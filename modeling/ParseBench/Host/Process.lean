/-
  ParseBench.Host.Process

  A process: its own view of the machine, which is a working directory, numbered
  streams and an environment. All its texts are raw.
-/

import ParseBench.Host.Course
import ParseBench.Host.Numeral
import ParseBench.Text.Utf8

namespace ParseBench

/-- Why something cannot be written. -/
inductive WriteFault where
  /-- The stream is not open, or not for writing. -/
  | closed
  | full
  deriving DecidableEq, Repr, Inhabited

/-- The state of a process. -/
structure Process where
  machine : Machine
  /-- The working directory. -/
  directory : Location := Machine.workplace
  /-- The streams that are open, by the numbers that the process knows them by. -/
  streams : List (Nat × Nat) := machine.standard
  /-- The streams that are kept open besides. -/
  held : List Nat := []
  environment : List (String × String) := []
  number : Nat := 1
  /-- The group that it gets signals with. -/
  group : Nat := 1
  /-- The signals that do nothing to it. -/
  ignored : List Nat := []
  /-- The signals that it does something on. -/
  caught : List Nat := []
  /-- What it says before its messages. -/
  voice : String := ""
  /-- Why some of the output could not be written. -/
  outputFault : Option WriteFault := none
  deriving Inhabited

/-- Why a path was refused, in words. -/
def Refusal.reason : Refusal → String
  | missing => "No such file or directory"
  | present => "File exists"
  | notDirectory => "Not a directory"
  | directory => "Is a directory"
  | tooLong => "File name too long"
  | looping => "Too many levels of symbolic links"
  | denied => "Permission denied"
  | full => "No space left on device"

/-- Why something cannot be written, in words. -/
def WriteFault.reason : WriteFault → String
  | closed => "Bad file descriptor"
  | full => Refusal.full.reason

/-- What a process does. -/
abbrev Act : Type → Type :=
  Task Process

namespace Process

/-! ## Paths -/

/-- The absolute path of a location, as raw text. -/
def absolute (l : Location) : String :=
  "/" ++ Text.join "/" (l.map FileName.toRaw)

/-- The absolute path of the working directory, as raw text. -/
def workingPath (p : Process) : String :=
  absolute p.directory

/-- The names along a path after each step up has been taken. -/
def settled (names : List String) : List String :=
  (names.foldl (fun back name =>
    if name = "." then back else if name = ".." then back.drop 1 else name :: back) []).reverse

/-- The files as the process sees them. -/
def tree (p : Process) : FileTree :=
  { p.machine.files with here := p.directory }

/-- The location that a raw path leads to. -/
def locate (p : Process) (path : String) : Except Refusal Location :=
  p.tree.reachAs .ofRaw true path

/-- The location of the name that a raw path is. -/
def locateName (p : Process) (path : String) : Except Refusal Location :=
  p.tree.reachAs .ofRaw (Path.endsInSlash path) path

/-- What a raw path leads to. -/
def find (p : Process) (path : String) : Except Refusal Entry :=
  (p.locate path).bind (p.tree.entryAt path)

/-- The names in a directory that a raw path leads to, as raw texts. -/
def names (p : Process) (path : String) : List String :=
  match p.find path, p.locate path with
  | .ok .directory, .ok l => (p.tree.children l).map FileName.toRaw
  | _, _ => []

/-- The tree with a new directory. -/
def makeDir (p : Process) (path : String) : Except Refusal FileTree :=
  (p.tree.reachAs .ofRaw false path).bind p.tree.makeDirAt

/-- The tree with the content of a file replaced. -/
def write (p : Process) (path : String) (content : ByteArray) : Except Refusal FileTree :=
  (p.locate path).bind (p.tree.writeAt path content)

/-- A path without slashes at its end. -/
def withoutSlashes (path : String) : String :=
  if path.toList.all (· == '/') then path
  else String.ofList (Text.trimRightWhere (· == '/') path.toList)

/-- The directories that hold the programs of the machine. -/
def programDirs : List Location := [["bin"], ["usr", "bin"]]

/-- The program of the machine at a location. -/
def programAt? (p : Process) (l : Location) : Option String :=
  match l.getLast? with
  | some name =>
    let name := name.toRaw
    if programDirs.contains l.dropLast && p.machine.programs.contains name then some name else none
  | none => none

/-- The program of the machine that a path leads to. -/
def programOfPath? (p : Process) (path : String) : Option String :=
  match p.locate path with
  | .ok l => p.programAt? l
  | .error _ => none

/-- The device at a location. The streams of a process have places of their own. -/
def deviceAt? (p : Process) (l : Location) : Option Device :=
  match p.machine.files.get? l with
  | some (.device d) => some d
  | _ =>
    match l.map FileName.toRaw with
    | ["dev", "fd", n] | ["proc", "self", "fd", n] => (Numeral.plain? n).map .stream
    | _ => none

/-- What can be found at a path. -/
inductive Node where
  | directory
  | file (f : File)
  | link (target : String)
  | pipe
  /-- A device or a stream. -/
  | device
  /-- A program of the machine. -/
  | program
  deriving Inhabited

/-- What is at a location that a path led to. -/
def nodeAt (p : Process) (path : String) (l : Location) : Except Refusal Node :=
  let unlessSlashed (n : Node) : Except Refusal Node :=
    if Path.endsInSlash path then .error .notDirectory else .ok n
  match p.machine.files.get? l with
  | some .directory => .ok .directory
  | some (.file f) => unlessSlashed (.file f)
  | some (.link target) => .ok (.link target)
  | some (.pipe _) => unlessSlashed .pipe
  | _ =>
    if (p.deviceAt? l).isSome then unlessSlashed .device
    else if (p.programAt? l).isSome then unlessSlashed .program
    else .error .missing

/-- What a path leads to. -/
def node (p : Process) (path : String) : Except Refusal Node := do
  p.nodeAt path (← p.locate path)

/-- What has the name that a path is, which may be a link. -/
def nameNode (p : Process) (path : String) : Except Refusal Node := do
  p.nodeAt path (← p.locateName path)

/-- What a path leads to, if something is there. -/
def node? (p : Process) (path : String) : Option Node :=
  (p.node path).toOption

/-- What has the name that a path is, if something has. -/
def nameNode? (p : Process) (path : String) : Option Node :=
  (p.nameNode path).toOption

/-- The process in the directory that a path leads to, if one is there. -/
def moved? (p : Process) (path : String) : Option Process :=
  match p.locate path with
  | .ok l => if p.machine.files.get? l = some .directory then some { p with directory := l } else none
  | .error _ => none

/-- Is a directory there? -/
def isDirectory (p : Process) (path : String) : Bool :=
  match p.node? path with
  | some .directory => true
  | _ => false

/-! ## Streams -/

/-- Opens a file. -/
def openThere (m : Machine) (f : File) (mode : OpenMode) : Nat × Machine :=
  let m := if mode = .replace then m.update { f with content := .empty } else m
  m.openStream (.file f.number 0 mode)

/-- Opens what a stream leads to another time. A stream that knows its place is opened anew,
    from its beginning; any other one is shared. -/
def openAgain (m : Machine) (id : Nat) (mode : OpenMode) : Nat × Machine :=
  match m.stream id with
  | .input _ => m.openStream (.input 0)
  | .file number _ _ =>
    match m.fileOf? number with
    | some f => openThere m f mode
    | none => m.openStream (.file number 0 mode)
  | _ => (id, m)

/-- Opens a device. -/
def openDevice (p : Process) (mode : OpenMode) : Device → Except Refusal (Nat × Machine)
  | .nothing => .ok (Machine.nowhere, p.machine)
  | .zeros => .ok (p.machine.openStream .zeros)
  | .full => .ok (p.machine.openStream .full)
  | .stream n =>
    match p.streams.lookup n with
    | some id => .ok (openAgain p.machine id mode)
    | none => .error .missing

/-- Opens what a path leads to, if that is no pipe. A file that is written is made if it is not
    there. -/
def openFile (p : Process) (path : String) (mode : OpenMode) : Except Refusal (Nat × Machine) := do
  let m := p.machine
  let l ← p.locate path
  match p.deviceAt? l with
  | some d => p.openDevice mode d
  | none =>
    match m.files.get? l with
    | some .directory => if mode = .read then return m.openStream .directory else throw .directory
    | some (.file f) =>
      if Path.endsInSlash path then throw .notDirectory else return openThere m f mode
    | some _ => throw .denied
    | none =>
      if mode = .read then throw .missing
      else if Path.endsInSlash path then throw .directory
      else
        let made : Machine := { m with files := m.files.addFile l .empty false }
        return made.openStream (.file m.files.numbered 0 mode)

/-- The process with a stream under a number. -/
def attach (p : Process) (number id : Nat) : Process :=
  { p with streams := (number, id) :: p.streams.filter (·.1 ≠ number) }

/-- The process with a stream closed. -/
def detach (p : Process) (number : Nat) : Process :=
  { p with streams := p.streams.filter (·.1 ≠ number) }

/-- The process with a stream kept open. -/
def hold (p : Process) (id : Nat) : Process :=
  { p with held := id :: p.held }

/-- The process with a stream that is not kept open any more. -/
def release (p : Process) (id : Nat) : Process :=
  { p with held := p.held.erase id }

/-- The process with signals that do nothing to it. -/
def ignoring (p : Process) (signals : List Nat) : Process :=
  { p with
    ignored := signals ++ p.ignored.filter (!signals.contains ·)
    caught := p.caught.filter (!signals.contains ·) }

/-- Does the process have a stream open? -/
def hasOpen (p : Process) (id : Nat) : Bool :=
  p.held.contains id || p.streams.any (·.2 == id)

/-! ## Being known -/

/-- What the machine knows of the process. -/
def record (p : Process) (parent : Nat) : ProcessRecord where
  number := p.number
  parent := parent
  group := p.group
  streams := p.streams.map (·.2) ++ p.held
  ignored := p.ignored
  caught := p.caught

/-- The process with the machine knowing how it is now. -/
def noted (p : Process) : Process :=
  { p with
    machine := p.machine.changeProcess p.number fun r =>
      { p.record r.parent with pending := r.pending, stopped := r.stopped, ending := r.ending } }

/-- Begins a process that is a copy of this one with a change, and that does something to its
    end. Yields its number. `σ` is the state that a process is part of. -/
def begin {σ : Type} (process : σ → Process) (put : σ → Process → σ) (change : σ → σ)
    (body : Task σ Ending) : Task σ Nat := fun s =>
  let p := (process s).noted
  let number := p.machine.numbered + 1
  let child := change (put s { p with number, held := [], caught := [] })
  let record := (process child).record p.number
  let machine :=
    { p.machine with numbered := number, processes := record :: p.machine.processes }.tidied
  .begins number
    (fun m => (body (put child { process child with machine := m })).course fun s => (process s).machine)
    machine fun m => .done number (put s { p with machine := m })

end Process

namespace Act

/-! ## Time -/

/-- Waits. -/
def pause (w : Wait) : Act Unit := fun p =>
  .waits w p.noted.machine fun m => .done () { p with machine := m }

/-- Ends the process. -/
def finish {α : Type} (ending : Ending) : Act α := fun p =>
  .ended ending p.machine

/-- Lets some time pass. If others can go on until then they do. -/
def spend (time : Nat) : Act Unit := do
  let p ← get
  let now := p.machine.clock + time
  if p.machine.alarm.any (· ≤ now) then pause { deadline := some now }
  else set { p with machine := { p.machine with clock := now } }

/-- The bound on what is repeated as long as others provide for it. -/
def patience : Nat := 1000000000

/-! ## Writing -/

/-- Has the pipe that a stream leads into no reader any more? -/
def isBroken (p : Process) (id : Nat) : Bool :=
  match p.machine.stream id with
  | .intoPipe reader =>
    !p.hasOpen reader && !p.machine.hasReader reader && !p.noted.machine.hasReader reader
  | _ => false

/-- What happens to a process that writes what nobody reads: it is killed, unless it ignores or
    expects that. -/
def breakPipe : Act Bool := do
  let p ← get
  if p.ignored.contains Signal.brokenPipe then return false
  else if p.caught.contains Signal.brokenPipe then
    set { p with machine := (p.machine.send? p.number Signal.brokenPipe).getD p.machine }
    return false
  else finish (.killed Signal.brokenPipe)

/-- Writes bytes to a stream. Says whether that was possible. -/
def writeStream (id : Nat) : (bound : Nat) → ByteArray → Act Bool
  | 0, _ => return false
  | bound + 1, bytes => do
    let p ← get
    if isBroken p id then breakPipe
    else
      match p.machine.write? id bytes with
      | none => return false
      | some (taken, machine) =>
        set { p with machine }
        if taken < bytes.size then
          pause { event := .writable id }
          writeStream id bound (bytes.extract taken bytes.size)
        else return true

/-- Writes bytes to a stream by its number, or says why that is not possible. -/
def writeTo (number : Nat) (bytes : ByteArray) : Act (Option WriteFault) := do
  if bytes.isEmpty then return none
  match (← get).streams.lookup number with
  | some id =>
    if ← writeStream id patience bytes then return none
    else return some (if (← get).machine.stream id matches .full then .full else .closed)
  | none => return some .closed

/-- Writes bytes to the output. If that is not possible it is noted. -/
def printBytes (bytes : ByteArray) : Act Unit := do
  let fault ← writeTo 1 bytes
  if fault.isSome then modify ({ · with outputFault := fault })

/-- Why some of the output could not be written, if that was not told before. -/
def takeOutputFault : Act (Option WriteFault) := do
  let p ← get
  set { p with outputFault := none }
  return p.outputFault

/-- Writes raw text to the output. -/
def print (text : String) : Act Unit :=
  printBytes (Raw.toBytes text)

/-- Writes a message to the stream of errors. -/
def complain (message : String) : Act Unit := do
  let _ ← writeTo 2 (Raw.toBytes ((← get).voice ++ message ++ "\n"))

/-! ## Reading -/

/-- The number of bytes that are read at once where there is no end. -/
def portion : Nat := 4096

/-- What there is to read of a stream, if it can be read. If there is nothing yet this waits;
    then nothing means that the end is reached. -/
def rest? (id : Nat) : Act (Option ByteArray) := do
  if !(← get).machine.isReadable id then pause { event := .readable id }
  return (← get).machine.rest? id portion

/-- Goes forward in a stream. -/
def advance (id count : Nat) : Act Unit :=
  modify fun p => { p with machine := p.machine.advance id count }

/-- Reads as many bytes as are wanted of what is there. -/
def readStream? (id : Nat) (wanted : ByteArray → Nat) : Act (Option ByteArray) := do
  match ← rest? id with
  | some rest =>
    let bytes := rest.extract 0 (wanted rest)
    advance id bytes.size
    return some bytes
  | none => return none

/-- Reads a stream to its end. -/
def drain (id : Nat) : (bound : Nat) → (before : ByteArray) → Act ByteArray
  | 0, before => return before
  | bound + 1, before => do
    match ← readStream? id ByteArray.size with
    | some bytes => if bytes.isEmpty then return before else drain id bound (before ++ bytes)
    | none => return before

/-- Gives back what was read and not used, if the stream knows its place. -/
def giveBack (id count : Nat) : Act Unit :=
  modify fun p => { p with machine := p.machine.retreat id count }

/-- Reads a line up to its end, if it has one. -/
def line (id : Nat) : (bound : Nat) → (before : ByteArray) → Act ByteArray
  | 0, before => return before
  | bound + 1, before => do
    match ← readStream? id Machine.lineSize with
    | none => return before
    | some bytes =>
      let l := before ++ bytes
      if bytes.isEmpty || l.data.back? = some 10 then return l else line id bound l

/-- The text of a stream up to its end, if it can be read. -/
def textOf? (id : Nat) : Act (Option String) := do
  if ((← get).machine.rest? id 0).isNone then return none
  else return some (Raw.ofBytes (← drain id patience .empty))

/-- Reads a line of the input. -/
def readLine : Act String := do
  match (← get).streams.lookup 0 with
  | some id => return Raw.ofBytes (← line id patience .empty)
  | none => return ""

/-- Reads the input to its end. -/
def readInput : Act String := do
  match (← get).streams.lookup 0 with
  | some id => return (← textOf? id).getD ""
  | none => return ""

/-- Opens a pipe that has a name. Who opens one end waits until somebody opens the other. -/
def openNamedPipe (number : Nat) (mode : OpenMode) : Act Nat := do
  let p ← get
  let m := p.noted.machine
  -- a pipe that nobody has open any more is as good as new
  let known := m.namedPipes.find? fun q =>
    q.number == number && (m.hasReader q.reader || m.hasWriter q.reader)
  let others := m.namedPipes.filter (·.number ≠ number)
  let (q, m) : NamedPipe × Machine :=
    match known with
    | some q => (q, m)
    | none =>
      let (reader, m) := m.openStream (.pipe .empty)
      ({ number, reader }, m)
  let isThere := if mode = .read then m.hasWriter q.reader else m.hasReader q.reader
  let reads : Bool := mode = .read || mode = .update
  let writes : Bool := mode ≠ .read
  let q := { q with readers := q.readers + reads.toNat, writers := q.writers + writes.toNat }
  let (id, m) : Nat × Machine :=
    if mode = .read then (q.reader, m)
    else m.openStream (if mode = .update then .throughPipe q.reader else .intoPipe q.reader)
  set ({ p with machine := { m with namedPipes := q :: others }.stirred }.hold id)
  if mode ≠ .update && !isThere then
    pause { event := .met number (mode = .read) (if mode = .read then q.writers else q.readers) }
  modify (·.release id)
  return id

/-- Opens what a path leads to. -/
def openPath (path : String) (mode : OpenMode) : Act (Except Refusal Nat) := do
  let p ← get
  match p.find path with
  | .ok (.pipe number) => return .ok (← openNamedPipe number mode)
  | _ =>
    match p.openFile path mode with
    | .ok (id, machine) =>
      set { p with machine }
      return .ok id
    | .error r => return .error r

/-- The content of a file, or why it cannot be read. -/
def readFile (path : String) : Act (Except Refusal String) := do
  match ← openPath path .read with
  | .error r => return .error r
  | .ok id =>
    modify (·.hold id)
    let text ← textOf? id
    modify (·.release id)
    match text with
    | some text => return .ok text
    | none => return .error .directory

/-! ## Other processes -/

/-- Begins a process that does something to its end, and yields its number. -/
def begin (change : Process → Process) (body : Act Ending) : Act Nat :=
  Process.begin id (fun _ p => p) change body

/-- Waits for the end of processes that were begun, and yields how they ended. -/
def await (numbers : List Nat) : Act (List Ending) := do
  pause { event := .ended numbers }
  let p ← get
  set { p with machine := p.machine.forget numbers }
  return numbers.map fun n => ((p.machine.process? n).bind (·.ending)).getD (.exit 0)

/-- Lets another process do something, and waits for its end. -/
def inChild (change : Process → Process) (body : Act Ending) : Act Ending := do
  let number ← begin change body
  return (← await [number]).headD (.exit 0)

/-- Sends a signal. Says whether there was somebody to get it. -/
def send (find : Machine → Option Machine) : Act Bool := do
  let p := (← get).noted
  match find p.machine with
  | none => return false
  | some machine =>
    set { p with machine }
    -- the signal may have been for the process itself
    match (machine.process? p.number).bind (·.ending) with
    | some ending => finish ending
    | none => return true

/-- The signals that have come, which are not there any more after that. -/
def takeSignals : Act (List Nat) := do
  let p ← get
  let pending := ((p.machine.process? p.number).map (·.pending)).getD []
  if pending.isEmpty then return []
  set { p with machine := p.machine.changeProcess p.number fun r => { r with pending := [] } }
  return pending

/-! ## Files -/

/-- Replaces the files of the machine. -/
def setFiles (files : FileTree) : Act Unit :=
  modify fun p => { p with machine := p.machine.withFiles files }

end Act

/-! ## Programs -/

/-- Why a program cannot be started. -/
inductive StartFault where
  | missing
  | denied
  /-- The file is nothing that can be run. -/
  | unknownFormat
  deriving DecidableEq, Repr, Inhabited

/-- The status by which a program that is not there is told. -/
def missingStatus : Nat := 127

/-- The status by which a program that cannot be run is told. -/
def deniedStatus : Nat := 126

/-- Starts the program at a path with arguments and waits for its end. -/
abbrev Launcher :=
  String → List String → Act (Except StartFault Ending)

/-- The program that runs a file that is nothing else. -/
def shellPath : String := "/bin/sh"

/-- Starts the first of some paths at which a program is, and yields its end or the status
    that says why there is none. A file that is nothing that can be run is taken for a
    script. -/
def Launcher.startFirst (launch : Launcher) (args : List String) (status : Nat) :
    List String → Act (Except Nat Ending)
  | [] => return .error status
  | path :: rest => do
    match ← launch path args with
    | .ok ending => return .ok ending
    | .error .missing => startFirst launch args status rest
    | .error .denied => startFirst launch args deniedStatus rest
    | .error .unknownFormat =>
      match ← launch shellPath (path :: args) with
      | .ok ending => return .ok ending
      | .error _ => return .error deniedStatus

namespace Process

/-- The directories that programs without a path are looked for in, where none are said. -/
def standardPath : String :=
  "/usr/local/sbin:/usr/local/bin:/usr/sbin:/usr/bin:/sbin:/bin"

/-- The paths to try for the name of a program. -/
def programPaths (searched : String) (name : String) : List String :=
  if name.toList.contains '/' then [name]
  else
    (Text.splitOn ':' searched).map fun directory =>
      if directory.isEmpty then name else directory ++ "/" ++ name

/-- The path of the program that a name stands for. -/
def programPath? (p : Process) (searched : String) (name : String) : Option String :=
  (programPaths searched name).find? fun path =>
    match p.node? path with
    | some (.file f) => f.executable
    | some .program => true
    | _ => false

end Process

end ParseBench
