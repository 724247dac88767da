/-
  ParseBench.CommandLine.Run

  What the commands do, and the whole program: a command line is read, its
  command runs, and the process ends with a status.
-/

import ParseBench.CommandLine.Help
import ParseBench.Stats.Tabulate
import ParseBench.Training.FunctionalTest

namespace ParseBench

/-- What the program leaves to others. -/
structure Libraries where
  json : Json.Reader
  glob : PatternReader
  commandLine : CommandLine.Reader
  deriving Inhabited

variable {σ : Type}

namespace Stats

/-- Prints the table of result lines, as far as they can be read. -/
def printTable (s : Setting) (lines : List (Option String)) : Run σ Unit := do
  let (result, table) := s.tabulate lines
  Run.print table
  Run.tellAll (events result)
  let _ ← Run.ofExcept result

/-- Tabulates result lines out of a file or the standard input. Only the lines of a
    directory cannot be read. -/
def run (json : Json.Reader) (grammar kind : String) (device input : Option String) :
    Run σ Unit := do
  let kind ← Run.ofExcept ((Kind.ofName? kind).mapError fun e => ⟨[], .grammar e⟩)
  let g ← ProgramGrammar.load json grammar kind
  let setting : Setting := ⟨g, device⟩
  match input with
  | none => printTable setting (Text.byteLines (← Run.takeInput))
  | some path =>
    match ← Run.within (.opening path) do Run.ofAccess ((← Run.files).find path) with
    | .directory => printTable setting [none]
    | _ =>
      let content ← Run.within (.opening path) (Run.readBytes path)
      printTable setting (Text.byteLines content)

end Stats

namespace Command

/-- Runs or shows the plan of a functional test. Training steps call this program, whose
    path is `self`. -/
def functionalTestRun (json : Json.Reader) (self : String) (runner : Runner σ)
    (config : Option String) (dryRun : Bool) (datagen decoder : String) : Run σ Unit := do
  let config ← PlanConfig.load json config
  let plan : Plan := ⟨config, ⟨self, datagen, decoder⟩⟩
  if dryRun then Run.print (String.join (plan.steps.map PlanStep.preview))
  else
    plan.run runner
    Run.print "Functional test passed.\n"

/-- Does what is asked for. -/
def run (libraries : Libraries) (self : String) (runner : Runner σ) : Command → Run σ Unit
  | train config => do
    config.run runner
    Run.report .info "Training complete"
  | evaluate config => config.run libraries.glob runner
  | functionalTest config dryRun datagen decoder =>
    functionalTestRun libraries.json self runner config dryRun datagen decoder
  | score config => do
    let metrics ← config.run libraries.json
    Run.print metrics.report
  | stats grammar kind device input => Stats.run libraries.json grammar kind device input
  | ruleDistribution directory dataset => do
    let counts ← RuleCount.ofDataset libraries.json directory dataset
    Run.print (String.join (counts.map fun c => c.line ++ "\n"))

end Command

namespace CommandLine

/-- The status that a process ends with after a run. -/
def statusOf : Except Error Unit → Nat
  | .ok () => 0
  | .error e => exitStatus e.exitCode

/-- Runs a command and reports its failure. -/
def perform (libraries : Libraries) (self : String) (runner : Runner σ) (command : Command)
    (s : Session σ) : Nat × Session σ :=
  let (result, s) := (command.run libraries self runner).perform s
  match result with
  | .ok () => (statusOf result, s)
  | .error e => (statusOf result, { s with events := s.events ++ [⟨.error, e.message⟩] })

/-- The whole program: the status that it ends with, and the session after it. -/
def execute (libraries : Libraries) (self : String) (runner : Runner σ) (environment : Environment)
    (words : List String) (s : Session σ) : Nat × Session σ :=
  match parse libraries.commandLine environment words with
  | .ok command => perform libraries self runner command s
  | .error usage => (usage.exitCode, ((Run.print usage.output).perform s).2)

end CommandLine

end ParseBench
