/-
  ParseBench.Training.Runner

  Calls of external programs, how they are shown on a line as one would type them,
  and what runs them. A runner is a run for every call, so it may look at the files
  and change them; a rehearsal starts nothing, notes the calls and answers them with
  exit codes that were laid down before.
-/

import ParseBench.Session
import ParseBench.Text.Split

namespace ParseBench

/-! ## Calls -/

/-- A program and its arguments. -/
structure Invocation where
  program : String
  arguments : List String
  deriving DecidableEq, Repr, Inhabited

namespace Invocation

/-- Does an argument have to stand between single quotes? -/
def needsQuotes (argument : List Char) : Bool :=
  argument.isEmpty || argument.any fun c => Text.isBlank c || c == '\''

/-- The written form of an argument. Inside quotes a single quote is written by leaving
    the quotes for it. -/
def writeArgument (argument : String) : String :=
  if needsQuotes argument.toList then
    let inner := argument.toList.flatMap fun c => if c = '\'' then "'\\''".toList else [c]
    String.ofList ('\'' :: inner ++ ['\''])
  else argument

/-- The call on one line. The program's name is never put between quotes. -/
def display (i : Invocation) : String :=
  Text.join " " (i.program :: i.arguments.map writeArgument)

end Invocation

/-! ## Runners -/

/-- Runs a call to its end and yields its exit code, or fails to start it. -/
abbrev Runner (σ : Type) :=
  Invocation → Run σ Int

/-- Runs a call that has to end with exit code zero. -/
def Runner.runChecked {σ : Type} (runner : Runner σ) (i : Invocation) : Run σ Unit := do
  let code ← runner i
  if code = 0 then return ()
  else Run.fail (.externalFailure i.program code)

/-- The exit codes to answer with, `none` for a program that cannot be started, and the
    calls so far. -/
structure Rehearsal where
  codes : List (Option Int)
  calls : List Invocation := []
  deriving Repr, Inhabited

namespace Rehearsal

/-- The answer to the next call. Beyond the list every program ends well. -/
def next (r : Rehearsal) : Option Int :=
  r.codes.getD r.calls.length (some 0)

/-- Notes the call and gives the next answer. -/
def runner : Runner Rehearsal := fun i => do
  let s ← get
  set { s with host := { s.host with calls := s.host.calls ++ [i] } }
  match s.host.next with
  | some code => return code
  | none => Run.fail (.plain "runner failure")

end Rehearsal

end ParseBench
