/-
  ParseBench.Host.Machine

  What the processes of a machine share: the files, the standard streams of the
  session, every stream that was opened, the time, and what is known of each
  process. Streams are known by number, so processes that share one go on where
  another stopped.
-/

import ParseBench.Files.Access
import ParseBench.Host.Signal

namespace ParseBench

/-- How a file is opened. -/
inductive OpenMode where
  | read
  /-- For writing from the beginning; what was there is gone. -/
  | replace
  /-- For writing at the end. -/
  | append
  /-- For reading and writing from the beginning. -/
  | update
  deriving DecidableEq, Repr, Inhabited

/-- What an open stream leads to. -/
inductive Stream where
  /-- The standard input of the session, and the place in it that is next. -/
  | input (offset : Nat)
  /-- The standard output of the session. -/
  | output
  /-- Swallows what is written and has nothing to read. -/
  | nowhere
  /-- Swallows what is written and has zeros without end. -/
  | zeros
  /-- Has zeros without end and no room for what is written. -/
  | full
  /-- A directory, which can be opened and not read. -/
  | directory
  /-- A file by its number, and the place in it that is next. -/
  | file (number : Nat) (offset : Nat) (mode : OpenMode)
  /-- The end of a pipe that is read, with what was written and has not been read. -/
  | pipe (content : ByteArray)
  /-- The end of a pipe that is written, and the number of its other end. -/
  | intoPipe (reader : Nat)
  /-- Both ends of a pipe at once, by the end that is read. -/
  | throughPipe (reader : Nat)
  deriving Inhabited

/-- A pipe that has a name and that somebody has open. -/
structure NamedPipe where
  /-- Its number in the tree. -/
  number : Nat
  /-- The end that is read. -/
  reader : Nat
  /-- How often it has been opened for reading and for writing. -/
  readers : Nat := 0
  writers : Nat := 0
  deriving DecidableEq, Repr, Inhabited

/-- How a process ends. -/
inductive Ending where
  | exit (status : Nat)
  | killed (signal : Nat)
  deriving DecidableEq, Repr, Inhabited

/-- The status by which another process sees the end of one. -/
def Ending.status : Ending → Nat
  | exit status => status
  | killed signal => 128 + signal

/-- What is known of a process. -/
structure ProcessRecord where
  number : Nat
  /-- The process that began it. -/
  parent : Nat
  /-- The group that it gets signals with. -/
  group : Nat
  /-- The streams that it has open. -/
  streams : List Nat
  /-- The signals that do nothing to it. -/
  ignored : List Nat := []
  /-- The signals that it does something on. -/
  caught : List Nat := []
  /-- The signals that have come and are to be answered. -/
  pending : List Nat := []
  stopped : Bool := false
  /-- How it ended, as long as the process that began it has not asked for that. -/
  ending : Option Ending := none
  deriving Repr, Inhabited

/-- What processes share. -/
structure Machine where
  /-- The files from the root of the machine on. -/
  files : FileTree
  /-- The files that have no name any more and that somebody may have open. -/
  unnamed : List File := []
  /-- The pipes that have a name. -/
  namedPipes : List NamedPipe := []
  input : ByteArray
  /-- What has been written to the standard output, the last part first. -/
  output : List ByteArray
  /-- The streams that are open. -/
  streams : List (Nat × Stream) := [(0, .input 0), (1, .output), (2, .nowhere)]
  /-- The number of streams that have been numbered. -/
  opened : Nat := 3
  /-- The streams that a program begins with, by the numbers that it knows them by. -/
  standard : List (Nat × Nat) := [(0, 0), (1, 1), (2, 2)]
  /-- The names of the programs of the machine. -/
  programs : List String := []
  processes : List ProcessRecord := []
  /-- The number of processes that have been numbered. -/
  numbered : Nat := 1
  /-- The time, in millionths of a second. -/
  clock : Nat := 0
  /-- The time from which on another process can go on, if there is one. -/
  alarm : Option Nat := none
  deriving Inhabited

namespace Machine

/-! ## Files -/

/-- The directory that the tree of a session stands in. -/
def workplace : Location := ["work"]

/-- The other directories of a machine. -/
def systemDirs : List Location := [
  ["bin"], ["dev"], ["dev", "fd"], ["etc"], ["home"], ["lib"], ["opt"], ["proc"], ["proc", "self"],
  ["proc", "self", "fd"], ["root"], ["sbin"], ["tmp"], ["usr"], ["usr", "bin"], ["usr", "lib"],
  ["usr", "local"], ["usr", "local", "bin"], ["usr", "sbin"], ["var"], ["var", "tmp"]]

/-- The devices of a machine. -/
def devices : List (String × Device) := [
  ("null", .nothing), ("zero", .zeros), ("full", .full), ("random", .zeros), ("urandom", .zeros), ("stdin", .stream 0), ("stdout", .stream 1),
  ("stderr", .stream 2)]

/-- The files of a machine on which nobody has done anything. -/
def freshFiles : FileTree :=
  devices.foldl (fun t d => t.put ["dev", d.1] (.device d.2))
    (FileTree.ofDirectories workplace systemDirs)

/-- The file of a number. -/
def fileOf? (m : Machine) (number : Nat) : Option File :=
  (m.files.fileOf? number).or (m.unnamed.find? (·.number == number))

/-- Changes a file. -/
def update (m : Machine) (f : File) : Machine :=
  { m with
    files := m.files.update f
    unnamed := m.unnamed.map fun g => if g.number = f.number then f else g }

/-- The machine with other files. A file that has lost its last name stays as long as a stream
    may lead to it. -/
def withFiles (m : Machine) (files : FileTree) : Machine :=
  let opened := m.streams.filterMap fun
    | (_, .file number _ _) => some number
    | _ => none
  let lost := opened.eraseDups.filterMap fun n =>
    if (files.fileOf? n).isSome then none else m.fileOf? n
  { m with files := { files with here := m.files.here }, unnamed := lost }

/-! ## Streams -/

/-- The number of a stream to and from which nothing goes. -/
def nowhere : Nat := 2

/-- The stream of a number. -/
def stream (m : Machine) (id : Nat) : Stream :=
  (m.streams.lookup id).getD .nowhere

/-- Puts a stream in the place of another. -/
def setStream (m : Machine) (id : Nat) (s : Stream) : Machine :=
  { m with streams := m.streams.map fun e => if e.1 == id then (id, s) else e }

/-- Opens a stream, which gets the next number. -/
def openStream (m : Machine) (s : Stream) : Nat × Machine :=
  (m.opened, { m with streams := (m.opened, s) :: m.streams, opened := m.opened + 1 })

/-- Opens a pipe: the numbers of the end that is read and of the end that is written. -/
def openPipe (m : Machine) : (Nat × Nat) × Machine :=
  let (reader, m) := m.openStream (.pipe .empty)
  let (writer, m) := m.openStream (.intoPipe reader)
  ((reader, writer), m)

/-- The machine with new streams for what begins now. What goes on from before has no part in
    them. -/
def renewed (m : Machine) : Machine :=
  let streams := m.streams.map fun
    | (id, .input _) | (id, .output) => (id, .nowhere)
    | e => e
  let (reader, m) := { m with streams }.openStream (.input 0)
  let (writer, m) := m.openStream .output
  { m with standard := [(0, reader), (1, writer), (2, nowhere)] }

/-- The number of bytes that a pipe holds. -/
def pipeSize : Nat := 65536

/-- Does a process that runs have a stream open? -/
def isOpen (m : Machine) (id : Nat) : Bool :=
  m.processes.any fun r => r.ending.isNone && r.streams.contains id

/-- Can something still be written into the pipe with this end? -/
def hasWriter (m : Machine) (reader : Nat) : Bool :=
  m.streams.any fun
    | (id, .intoPipe r) | (id, .throughPipe r) => r == reader && m.isOpen id
    | _ => false

/-- Can something still be read from the pipe with this end? -/
def hasReader (m : Machine) (reader : Nat) : Bool :=
  m.isOpen reader || m.streams.any fun
    | (id, .throughPipe r) => r == reader && m.isOpen id
    | _ => false

/-- What has been written into a pipe and not been read. -/
def pipeContent (m : Machine) (reader : Nat) : ByteArray :=
  match m.stream reader with
  | .pipe content => content
  | _ => .empty

/-- Is there something to read from the stream, or else nothing to wait for? -/
def isReadable (m : Machine) (id : Nat) : Bool :=
  match m.stream id with
  | .pipe content => !content.isEmpty || !m.hasWriter id
  | .throughPipe reader => !(m.pipeContent reader).isEmpty
  | _ => true

/-- Is there room to write into the stream, or else nobody who would read it? -/
def isWritable (m : Machine) (id : Nat) : Bool :=
  match m.stream id with
  | .intoPipe reader | .throughPipe reader =>
    (m.pipeContent reader).size < pipeSize || !m.hasReader reader
  | _ => true

/-- The streams without those that no process can use any more, if there are many. -/
def tidied (m : Machine) : Machine :=
  if m.streams.length ≤ 32 then m
  else
    let isKept (id : Nat) : Bool :=
      id ≤ nowhere || m.isOpen id || m.namedPipes.any (·.reader == id)
    { m with streams := m.streams.filter fun e => isKept e.1 }

/-! ## Writing -/

/-- A content with bytes written over it at an offset. What lies between is zero. -/
def overwrite (content : ByteArray) (offset : Nat) (bytes : ByteArray) : ByteArray :=
  let gap : ByteArray := ⟨Array.replicate (offset - content.size) 0⟩
  content.extract 0 offset ++ gap ++ bytes ++ content.extract (offset + bytes.size) content.size

/-- The time after which others notice what has happened. -/
def notice : Nat := 200

/-- Others may go on soon. -/
def stirred (m : Machine) : Machine :=
  let time := m.clock + notice
  { m with alarm := some ((m.alarm.map (min time)).getD time) }

/-- Writes to a stream, if it is open for that: the number of bytes that were taken, and the
    machine then. A pipe takes no more than it has room for. -/
def write? (m : Machine) (id : Nat) (bytes : ByteArray) : Option (Nat × Machine) :=
  match m.stream id with
  | .input _ | .pipe _ | .directory | .full => none
  | .output => some (bytes.size, { m with output := bytes :: m.output })
  | .nowhere | .zeros => some (bytes.size, m)
  | .intoPipe reader | .throughPipe reader =>
    match m.stream reader with
    | .pipe content =>
      let taken := min bytes.size (pipeSize - content.size)
      some (taken, (m.setStream reader (.pipe (content ++ bytes.extract 0 taken))).stirred)
    | _ => none
  | .file number offset mode =>
    if mode = .read then none
    else
      match m.fileOf? number with
      | some f =>
        let offset := if mode = .append then f.content.size else offset
        let m := m.setStream id (.file number (offset + bytes.size) mode)
        some (bytes.size, m.update { f with content := overwrite f.content offset bytes })
      | none => some (bytes.size, m)

/-! ## Reading -/

/-- What can be read of a stream at once, if it can be read: all that is left of it, or what a
    pipe holds. Of zeros there are as many as are wanted. -/
def rest? (m : Machine) (id : Nat) (zeros : Nat) : Option ByteArray :=
  match m.stream id with
  | .input offset => some (m.input.extract offset m.input.size)
  | .output | .intoPipe _ => none
  | .nowhere => some .empty
  | .zeros | .full => some ⟨Array.replicate zeros 0⟩
  | .pipe content => some content
  | .throughPipe reader => some (m.pipeContent reader)
  | .directory => none
  | .file number offset mode =>
    if mode = .replace || mode = .append then none
    else
      match m.fileOf? number with
      | some f => some (f.content.extract offset f.content.size)
      | none => some .empty

/-- Goes forward in a stream. -/
def advance (m : Machine) (id : Nat) (count : Nat) : Machine :=
  match m.stream id with
  | .input offset => m.setStream id (.input (offset + count))
  | .pipe content => (m.setStream id (.pipe (content.extract count content.size))).stirred
  | .throughPipe reader =>
    let content := m.pipeContent reader
    (m.setStream reader (.pipe (content.extract count content.size))).stirred
  | .file number offset mode => m.setStream id (.file number (offset + count) mode)
  | .output | .intoPipe _ | .nowhere | .zeros | .full | .directory => m

/-- Goes back in a stream, if it knows its place. -/
def retreat (m : Machine) (id : Nat) (count : Nat) : Machine :=
  match m.stream id with
  | .input offset => m.setStream id (.input (offset - count))
  | .file number offset mode => m.setStream id (.file number (offset - count) mode)
  | _ => m

/-- The size of the first line with its end. -/
def lineSize (bytes : ByteArray) : Nat :=
  match bytes.findIdx? (· == 10) with
  | some i => i + 1
  | none => bytes.size

/-- The whole content of a stream that knows its place, also what lies before that. -/
def whole? (m : Machine) (id : Nat) : Option ByteArray :=
  match m.stream id with
  | .input _ => some m.input
  | .file number _ _ => (m.fileOf? number).map File.content
  | _ => none

/-! ## Processes -/

/-- What is known of the process of a number. -/
def process? (m : Machine) (number : Nat) : Option ProcessRecord :=
  m.processes.find? (·.number == number)

/-- Changes what is known of a process. -/
def changeProcess (m : Machine) (number : Nat) (f : ProcessRecord → ProcessRecord) : Machine :=
  { m with processes := m.processes.map fun r => if r.number == number then f r else r }

/-- Forgets processes. -/
def forget (m : Machine) (numbers : List Nat) : Machine :=
  { m with processes := m.processes.filter fun r => !numbers.contains r.number }

/-- Does the process of a number run? -/
def isRunning (m : Machine) (number : Nat) : Bool :=
  (m.process? number).any fun r => r.ending.isNone

/-- A process ends. It is known until the process that began it asks for its end; if that one
    does not run any more, nobody will. -/
def finish (m : Machine) (number : Nat) (ending : Ending) : Machine :=
  match m.process? number with
  | none => m
  | some r =>
    let noted := m.changeProcess number fun r => { r with ending := some ending, streams := [] }
    let processes := noted.processes.filter fun s =>
      !(s.parent == number && s.ending.isSome) && !(s.number == number && !m.isRunning r.parent)
    let told := { noted with processes }.changeProcess r.parent fun s =>
      if s.caught.contains Signal.child && !s.pending.contains Signal.child then
        { s with pending := s.pending ++ [Signal.child] }
      else s
    told.stirred

/-- Sends a signal to a process that has not ended. -/
def sendTo (m : Machine) (r : ProcessRecord) (signal : Nat) : Machine :=
  let change := m.changeProcess r.number
  if r.ending.isSome || signal = 0 then m
  else if signal = 9 then m.finish r.number (.killed signal)
  else if signal = 19 then change fun r => { r with stopped := true }
  else
    -- who is stopped goes on by this signal in any case
    let m := if signal = 18 then change fun r => { r with stopped := false } else m
    if r.ignored.contains signal then m.stirred
    else if r.caught.contains signal then
      (m.changeProcess r.number fun r =>
        if r.pending.contains signal then r else { r with pending := r.pending ++ [signal] }).stirred
    else if Signal.stops signal then change fun r => { r with stopped := true }
    else if Signal.isHarmless signal then m.stirred
    else m.finish r.number (.killed signal)

/-- Sends a signal to the process of a number, if there is one. -/
def send? (m : Machine) (number signal : Nat) : Option Machine :=
  (m.process? number).map fun r => m.sendTo r signal

/-- Sends a signal to all processes of a group, if there are some. -/
def sendGroup? (m : Machine) (group signal : Nat) : Option Machine :=
  let members := m.processes.filter (·.group == group)
  if members.isEmpty then none
  else some (members.foldl (fun m r => m.sendTo r signal) m)

end Machine

end ParseBench
