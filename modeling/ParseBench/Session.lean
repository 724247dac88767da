/-
  ParseBench.Session

  Runs: computations over a session, which may fail. A session holds the files,
  the two standard streams, the report so far, and the state of whatever runs the
  external programs; a run that fails keeps what it did to the session until
  then.
-/

import ParseBench.Error
import ParseBench.Event
import ParseBench.Files.Access

namespace ParseBench

/-- What a run works on. `σ` is the state of the runner of external programs. -/
structure Session (σ : Type) where
  files : FileTree
  /-- The standard input. -/
  input : ByteArray
  /-- The number of its bytes that have been read. -/
  taken : Nat := 0
  /-- What has been written to the standard output. -/
  output : ByteArray
  events : List Event
  host : σ
  /-- What is read from a pipe, after others have been read, if somebody writes into it. -/
  pipes : List Nat → Nat → Option ByteArray := fun _ _ => none
  /-- The pipes that have been read, in order. -/
  emptied : List Nat := []

/-- A session with files and an input, in which nothing has happened. -/
def Session.start {σ : Type} (files : FileTree) (input : ByteArray) (host : σ) : Session σ :=
  { files, input, output := .empty, events := [], host }

/-- A computation over a session that yields a value or fails. -/
abbrev Run (σ : Type) : Type → Type :=
  ExceptT Error (StateM (Session σ))

namespace Run

variable {σ α : Type}

/-- Performs a run in a session. -/
def perform (r : Run σ α) (s : Session σ) : Except Error α × Session σ :=
  StateT.run (ExceptT.run r) s

/-! ## Reports and failures -/

/-- Reports an event. -/
def tell (e : Event) : Run σ Unit :=
  modify fun s => { s with events := s.events ++ [e] }

/-- Reports a message at a level. -/
def report (level : Level) (message : String) : Run σ Unit :=
  tell ⟨level, message⟩

/-- Reports events in order. -/
def tellAll (events : List Event) : Run σ Unit :=
  modify fun s => { s with events := s.events ++ events }

/-- Puts an error of the run into a context. -/
def within (c : Context) (r : Run σ α) : Run σ α :=
  ExceptT.adapt (Error.within c) r

/-- Fails for a cause. -/
def fail (c : Cause) : Run σ α :=
  throw ⟨[], c⟩

/-- A result that is already known. -/
def ofExcept (r : Except Error α) : Run σ α :=
  ExceptT.mk (pure r)

/-- Any refusal is a failure of the system. -/
def ofAccess (r : Except Refusal α) : Run σ α :=
  ofExcept (r.mapError fun _ => Cause.system)

/-! ## Streams -/

/-- Writes to the standard output. -/
def print (text : String) : Run σ Unit :=
  modify fun s => { s with output := s.output ++ text.toUTF8 }

/-- Reads the standard input to its end. -/
def takeInput : Run σ ByteArray := do
  let s ← get
  set { s with taken := s.input.size }
  return s.input.extract s.taken s.input.size

/-! ## Files -/

/-- The tree of files. -/
def files : Run σ FileTree := do
  return (← get).files

/-- Replaces the tree of files. -/
def setFiles (t : FileTree) : Run σ Unit :=
  modify fun s => { s with files := t }

/-- The bytes of a pipe, which are gone after that. -/
def takePipe (number : Nat) : Run σ ByteArray := do
  let s ← get
  match s.pipes s.emptied number with
  | some bytes =>
    set { s with emptied := s.emptied ++ [number] }
    return bytes
  | none => fail .system

/-- The bytes of a file or of a pipe. The standard input has a path, too, under which it is read
    from its beginning. -/
def readBytes (path : String) : Run σ ByteArray := do
  match (← files).find path with
  | .ok (.device (.stream 0)) => return (← get).input
  | .ok (.pipe number) => takePipe number
  | _ => ofAccess ((← files).read path)

/-- The text of a file, which has to be UTF-8. -/
def readText (path : String) : Run σ String := do
  match String.fromUTF8? (← readBytes path) with
  | some text => return text
  | none => fail .system

/-- Writes a file. -/
def writeText (path text : String) : Run σ Unit := do
  setFiles (← ofAccess ((← files).write path text.toUTF8))

/-- Makes a directory and what is missing above it. -/
def makeDirs (path : String) : Run σ Unit := do
  let (t, refusal) := (← files).makeDirs path
  setFiles t
  match refusal with
  | none => return ()
  | some _ => fail .system

end Run

end ParseBench
