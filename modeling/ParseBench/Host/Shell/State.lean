/-
  ParseBench.Host.Shell.State

  The state of a shell: its process, variables, functions and options; and what it
  does, which may leave a loop, a function or the shell as a whole.
-/

import ParseBench.Host.Shell.Command
import ParseBench.Host.Numeral
import ParseBench.Host.Process

namespace ParseBench

/-- A variable of a shell. -/
structure Variable where
  value : Option String := none
  exported : Bool := false
  readOnly : Bool := false
  deriving DecidableEq, Repr, Inhabited

/-- Processes that a shell has begun and does not wait for. -/
structure Job where
  /-- The place in the list of jobs, from one on. -/
  place : Nat
  /-- The number by which the script knows it, which is that of its last process. -/
  number : Nat
  processes : List Nat
  /-- How it ended, as far as the shell knows. -/
  ending : Option Ending := none
  /-- Has the shell been asked to wait for it? -/
  waited : Bool := false
  deriving Repr, Inhabited

/-- The state of a shell. -/
structure Shell where
  process : Process
  /-- The path of the working directory as the shell has come to it. -/
  here : String := "/"
  /-- The name of the script. -/
  name : String
  arguments : List String := []
  bindings : List (String × Variable) := []
  functions : List (String × Shell.Command) := []
  /-- The status of the last command. -/
  status : Nat := 0
  /-- The status of the last commands whose output was taken for the command that runs. -/
  outputStatus : Nat := 0
  /-- The letters of the options that are set. -/
  options : List Char := []
  /-- What is done on signals, and at the end of the shell. -/
  traps : List (String × String) := []
  /-- What the variables that functions have for themselves were before, the innermost
      function first. -/
  hidden : List (List (String × Option Variable)) := []
  /-- The loops around the command that runs. -/
  loops : Nat := 0
  /-- The functions and read files around the command that runs. -/
  calls : Nat := 0
  /-- The number by which the script knows itself. -/
  number : Nat := 1
  /-- The commands in the background, the last one first. -/
  jobs : List Job := []
  /-- The number of the last command in the background. -/
  lastJob : Option Nat := none
  /-- The signals that cannot be expected, as they were ignored before. -/
  ignoredBefore : List Nat := []
  /-- The line of the command that runs. -/
  line : Nat := 0
  /-- The builtin that runs. -/
  builtin : Option String := none
  /-- The place in the word of options that is read next. -/
  optionPlace : Nat := 1

namespace Shell

/-- Why commands are left before their end. -/
inductive Leave where
  /-- Leaves a number of loops. -/
  | loops (levels : Nat)
  /-- Leaves all but the last of a number of loops, and goes on with the next round of that. -/
  | round (levels : Nat)
  /-- Leaves a function or a file that is read. -/
  | function
  /-- Ends the shell. -/
  | shell
  /-- Something is wrong that ends the shell, unless it was in a builtin that allows it. -/
  | failure
  deriving DecidableEq, Repr, Inhabited

/-- What a shell does. -/
abbrev Exec : Type → Type :=
  ExceptT Leave (Task Shell)

/-! ## Parameters -/

/-- The characters at which values are cut into fields. -/
def separators (sh : Shell) : String :=
  match sh.bindings.lookup "IFS" with
  | some ⟨some s, _, _⟩ => s
  | _ => " \t\n"

/-- The value of a variable. -/
def valueOf? (sh : Shell) (name : String) : Option String :=
  (sh.bindings.lookup name).bind Variable.value

/-- The value of a parameter that is one text. -/
def parameter? (sh : Shell) (name : String) : Option String :=
  match name with
  | "#" => some (toString sh.arguments.length)
  | "?" => some (toString sh.status)
  | "$" => some (toString sh.number)
  | "!" => sh.lastJob.map toString
  | "-" => some (String.ofList sh.options)
  | "0" => some sh.name
  | "LINENO" => some (toString sh.line)
  | _ =>
    match Numeral.plain? name with
    | some n => sh.arguments[n - 1]?
    | none => sh.valueOf? name

/-- Is an option set? -/
def hasOption (sh : Shell) (c : Char) : Bool :=
  sh.options.contains c

/-- The variables that programs see. -/
def environment (sh : Shell) : List (String × String) :=
  sh.bindings.filterMap fun (name, v) =>
    if v.exported then v.value.map (name, ·) else none

/-- The directories in which programs are looked for. -/
def searched (sh : Shell) : String :=
  (sh.valueOf? "PATH").getD Process.standardPath

/-- The shell with what is known of a variable replaced. -/
def putVariable (sh : Shell) (name : String) (v : Variable) : Shell :=
  { sh with bindings := (name, v) :: sh.bindings.filter (·.1 ≠ name) }

/-- The shell without a variable. -/
def dropVariable (sh : Shell) (name : String) : Shell :=
  { sh with bindings := sh.bindings.filter (·.1 ≠ name) }

namespace Exec

/-- Lets the process of the shell do something. -/
def act {α : Type} (a : Act α) : Exec α :=
  ExceptT.lift (Task.within Shell.process (fun sh process => { sh with process }) a)

/-- Ends the process of the shell. -/
def finish {α : Type} (ending : Ending) : Exec α :=
  act (Act.finish ending)

/-- Ends the shell where its bound is reached. -/
def giveUp {α : Type} : Exec α :=
  finish (.killed 9)

/-- Sets the status. -/
def setStatus (status : Nat) : Exec Unit :=
  modify fun sh => { sh with status }

/-- Writes a message to the stream of errors, with where it comes from. -/
def complain (message : String) : Exec Unit := do
  let sh ← get
  let place := sh.name ++ ": " ++ toString sh.line ++ ": "
  let place :=
    match sh.builtin with
    | some name => place ++ name ++ ": "
    | none => place
  act (Act.complain (place ++ message))

/-- Something is wrong. -/
def fail {α : Type} (message : String) : Exec α := do
  complain message
  setStatus 2
  throw .failure

/-- Sets a variable. One that is protected cannot be set. -/
def assign (name value : String) : Exec Unit := do
  let sh ← get
  let old := (sh.bindings.lookup name).getD {}
  if old.readOnly then fail (name ++ ": is read only")
  else
    let exported := old.exported || sh.hasOption 'a'
    -- who sets the place of the next option starts over with its word
    let optionPlace := if name = "OPTIND" then 1 else sh.optionPlace
    set { sh.putVariable name { old with value := some value, exported } with optionPlace }

/-- Sets a variable that programs see. -/
def assignExported (name value : String) : Exec Unit := do
  assign name value
  modify fun sh => sh.putVariable name { (sh.bindings.lookup name).getD {} with exported := true }

/-- Performs something and catches how it is left. -/
def caught {α : Type} (action : Exec α) : Exec (Except Leave α) :=
  ExceptT.mk do return .ok (← action.run)

/-- Goes on with a result that was caught. -/
def resume {α : Type} : Except Leave α → Exec α
  | .ok a => return a
  | .error l => throw l

/-! ## Other processes -/

/-- Does the shell do something on signals, or at its end? -/
def hasTraps (sh : Shell) : Bool :=
  sh.traps.any fun t => !t.2.isEmpty

/-- The shell as a copy of itself begins. What is done on signals is not inherited, only that
    some are ignored. -/
def asCopy (sh : Shell) : Shell :=
  { sh with traps := sh.traps.filter (·.2.isEmpty), jobs := [] }

/-- Begins a copy of the shell, changed before it does something to its end. Yields the number
    of its process. -/
def fork (change : Shell → Shell) (body : Exec Ending) : Exec Nat :=
  ExceptT.lift <|
    Process.begin Shell.process (fun sh process => { sh with process }) (change ∘ asCopy) do
      match ← body.run with
      | .ok ending => return ending
      | .error _ => return .exit ((← get).status % 256)

/-- Changes the jobs. -/
def changeJobs (f : Job → Job) : Exec Unit :=
  modify fun sh => { sh with jobs := sh.jobs.map f }

/-- The first place for a job that is free, or whose job has ended and is of no interest any
    more. -/
def freePlace (jobs : List Job) : (bound place : Nat) → Nat
  | 0, place => place
  | bound + 1, place =>
    match jobs.find? (·.place == place) with
    | none => place
    | some j => if j.ending.isSome && j.waited then place else freePlace jobs bound (place + 1)

/-- The place for a new job. What was there is forgotten. -/
def takePlace : Exec Nat := do
  let sh ← get
  let place := freePlace sh.jobs sh.jobs.length 1
  set { sh with jobs := sh.jobs.filter (·.place ≠ place) }
  return place

/-- Notes the ends of commands in the background. -/
def noteJobs : Exec Unit := do
  let sh ← get
  if !sh.jobs.isEmpty then
    let m := sh.process.machine
    let hasEnded (j : Job) : Bool := j.ending.isNone && j.processes.all fun n => !m.isRunning n
    let noted (j : Job) : Job :=
      if hasEnded j then { j with ending := ((m.process? j.number).bind (·.ending)).getD (.exit 0) }
      else j
    let forgotten := (sh.jobs.filter hasEnded).flatMap Job.processes
    let process := { sh.process with machine := m.forget forgotten }
    set { sh with jobs := sh.jobs.map noted, process }

/-- Waits for the end of processes. What has ended besides is noted. -/
def await (numbers : List Nat) : Exec (List Ending) := do
  let endings ← act (Act.await numbers)
  noteJobs
  return endings

end Exec

end Shell

end ParseBench
