/-
  ParseBench.Host.System

  The runner that stands for a machine: it finds programs as processes do and runs
  them on the files and the standard streams of the session. Programs are those of
  the machine, executable files of the tree, and this program itself. What programs
  have left running goes on while the next ones run.
-/

import ParseBench.CommandLine.Run
import ParseBench.Host.Programs
import ParseBench.Host.Schedule

namespace ParseBench

/-- A machine. -/
structure Host where
  /-- What this program is built with. -/
  libraries : Libraries
  /-- The path of this program. -/
  self : String
  /-- The environment of the programs that are run, as far as it is not the usual one. -/
  environment : Environment
  deriving Inhabited

/-- A machine on which nothing has happened. -/
def Schedule.start : Schedule where
  machine := { files := Machine.freshFiles, input := .empty, output := [] }

namespace Schedule

/-- The schedule for another session. What was left running goes on. -/
def renewed (t : Schedule) : Schedule :=
  { t with machine := t.machine.renewed }

/-- Reads a pipe to its end in a process of its own, if somebody writes into it. -/
def readPipe? (t : Schedule) (pipe : Nat) : Option (ByteArray × Schedule) :=
  let (found, m) := t.machine.openStream (.pipe .empty)
  let number := m.numbered + 1
  let p : Process := { machine := { m with numbered := number }, streams := [], number }
  let body : Act Ending := do
    let id ← Act.openNamedPipe pipe .read
    modify (·.hold id)
    let bytes := Raw.toBytes ((← Act.textOf? id).getD "")
    modify fun p => { p with machine := p.machine.setStream found (.pipe bytes) }
    return .exit 0
  let course (m : Machine) : Course := (body { p with machine := m }).course Process.machine
  let machine := { p.machine with processes := p.record 0 :: m.processes }
  let t : Schedule := ⟨machine, ⟨number, { deadline := some m.clock }, course⟩ :: t.sleepers⟩
  let t := t.runTo number Act.patience
  if t.machine.isRunning number then none
  else
    let streams := t.machine.streams.filter (·.1 ≠ found)
    some (t.machine.pipeContent found, { t with machine := { t.machine with streams } })

/-- The schedule after pipes have been read in order. -/
def afterReads (t : Schedule) (pipes : List Nat) : Schedule :=
  pipes.foldl (fun t pipe => ((t.readPipe? pipe).map (·.2)).getD t) t

/-- What is read from a pipe after others. -/
def pipeContent? (t : Schedule) (before : List Nat) (pipe : Nat) : Option ByteArray :=
  ((t.afterReads before).readPipe? pipe).map (·.1)

/-- The schedule with other files, after pipes have been read in order. -/
def withFiles (t : Schedule) (files : FileTree) (reads : List Nat) : Schedule :=
  { t with machine := { t.machine with files } }.afterReads reads

/-- A session beside what goes on. -/
def session {σ : Type} (t : Schedule) (input : ByteArray) (host : σ) : Session σ :=
  { Session.start t.machine.files input host with pipes := t.pipeContent? }

end Schedule

namespace Host

/-! ## Processes -/

/-- The environment that processes usually have. -/
def usualEnvironment : Environment :=
  [("HOME", "/root"), ("PATH", Process.standardPath), ("PWD", Process.absolute Machine.workplace)]

/-- The environment of the programs that are run. -/
def processEnvironment (h : Host) : Environment :=
  (usualEnvironment.filter fun e => (h.environment.lookup e.1).isNone) ++ h.environment

/-- The number of the process of this program. -/
def selfNumber : Nat := 1

/-- The number of the stream that the input of the session is. -/
def inputStream (m : Machine) : Nat :=
  (m.standard.lookup 0).getD Machine.nowhere

/-- The schedule of a session: the files, the streams and the processes that were left. -/
def schedule (s : Session Schedule) : Schedule :=
  let t := s.host.withFiles s.files s.emptied
  let m := t.machine
  let self : ProcessRecord :=
    { number := selfNumber, parent := 0, group := selfNumber, streams := m.standard.map (·.2) }
  { t with
    machine := { m.setStream (inputStream m) (.input s.taken) with
      input := s.input
      output := []
      programs := Programs.names
      processes := self :: m.processes.filter (·.number ≠ selfNumber)
      alarm := none } }

/-- The first process of a program on a machine. -/
def process (h : Host) (m : Machine) : Process :=
  let number := m.numbered + 1
  let p : Process :=
    { machine := { m with numbered := number }
      environment := h.processEnvironment.map fun e => (Raw.ofText e.1, Raw.ofText e.2)
      number }
  let machine := { p.machine with processes := p.record selfNumber :: m.processes }
  { p with machine }

/-- The session after what happened on its machine. -/
def after (s : Session Schedule) (t : Schedule) : Session Schedule :=
  let m := t.machine
  { s with
    files := m.files
    taken := match m.stream (inputStream m) with
      | .input offset => offset
      | _ => s.taken
    output := m.output.foldr (fun bytes out => out ++ bytes) s.output
    host := { t with machine := { m with output := [] } }
    pipes := t.pipeContent?
    emptied := [] }

/-- The exit code for the end of a process: a process that was killed has 1. -/
def codeOf : Ending → Int
  | .exit status => status
  | .killed _ => 1

/-! ## Starting -/

/-- The levels to which this program may run itself. -/
def maxDepth : Nat := 64

/-- The levels to which programs may start each other. -/
def maxPrograms : Nat := 100000

/-- The time for which what a program has left running goes on before anything else happens. -/
def grace : Nat := 2000

/-- Lets things happen on a machine until a process has ended and some time has passed: how it
    ended. A process that never ends is killed. -/
def runToEnd (number : Nat) (t : Schedule) : Ending × Schedule :=
  let t := t.runTo number Act.patience
  let ending := ((t.machine.process? number).bind (·.ending)).getD (.killed 9)
  let t := { t with machine := t.machine.forget [number] }
  (ending, t.runUntil (t.machine.clock + grace) Act.patience)

/-- Tries the paths of a program in order. One that leads to a file that cannot be run is
    passed over, but a file of an unknown format ends the search. -/
def startFirst (h : Host) (arguments : List String) : List String → Run Schedule Int
  | [] => Run.fail .system
  | path :: rest => do
    let s ← get
    let t := schedule s
    let p := h.process t.machine
    let run (course : Course) : Run Schedule Int := do
      let first : Sleeper := ⟨p.number, { deadline := some p.machine.clock }, fun _ => course⟩
      let (ending, t) := runToEnd p.number { machine := p.machine, sleepers := first :: t.sleepers }
      set (after s t)
      return codeOf ending
    match Programs.launch maxPrograms path arguments p with
    | .done (.error .unknownFormat) _ => Run.fail .system
    | .done (.error _) _ => startFirst h arguments rest
    | turn =>
      run <| (turn.bind fun result p =>
        match result with
        | .ok ending => .done ending p
        | .error _ => .done (.exit deniedStatus) p).course Process.machine

/-- Runs this program in a process of its own, with a runner for its calls. What it
    reports is lost. -/
def inSelf (h : Host) (inner : Runner Schedule) (i : Invocation) : Run Schedule Int := do
  let s ← get
  let (status, t) := CommandLine.execute h.libraries h.self inner h.environment i.arguments s
  set { t with events := s.events }
  return status

/-- Can the texts of a call be handed to a program? None of them may have the zero
    character, which ends a text there. -/
def isPassable (i : Invocation) : Bool :=
  (i.program :: i.arguments).all fun s => !s.toList.contains '\x00'

/-- Starts a program and waits for its end. A program that is not there cannot be
    started, and neither can one without a name. -/
def start (h : Host) (inner : Runner Schedule) (i : Invocation) : Run Schedule Int := do
  if !isPassable i || i.program.isEmpty then Run.fail .system
  else if i.program = h.self then h.inSelf inner i
  else
    let searched := (h.processEnvironment.lookup "PATH").getD Process.standardPath
    let paths := Process.programPaths (Raw.ofText searched) (Raw.ofText i.program)
    h.startFirst (i.arguments.map Raw.ofText) paths

/-- Runs a call, with this program running itself at most `depth` levels deep. -/
def runner (h : Host) : (depth : Nat) → Runner Schedule
  | 0, i => Run.within (.starting i.program) (Run.fail .system)
  | depth + 1, i => do
    Run.report .info ("Running: " ++ i.display)
    let code ← Run.within (.starting i.program) (h.start (h.runner depth) i)
    if code = 0 then Run.report .debug ("'" ++ i.program ++ "' finished")
    else Run.report .warn ("'" ++ i.program ++ "' exited with code " ++ toString code)
    return code

end Host

end ParseBench
