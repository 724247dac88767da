/-
  ParseBench.Training.FunctionalTest

  Running the plan of a functional test: step by step, up to the first that
  fails.
-/

import ParseBench.Training.Plan
import ParseBench.Training.Runner

namespace ParseBench

variable {σ : Type}

/-- The configuration in a file, or the defaults if no file is named. -/
def PlanConfig.load (json : Json.Reader) (path : Option String) : Run σ PlanConfig := do
  match path with
  | none => return {}
  | some path =>
    let text ← Run.within (.readingPlan path) (Run.readText path)
    match PlanConfig.ofText? json text with
    | some config => return config
    | none => Run.within (.decodingPlan path) (Run.fail .json)

namespace Plan

/-- Runs a step, which is number `number` of `total`. -/
def runStep (runner : Runner σ) (total number : Nat) (s : PlanStep) : Run σ Unit := do
  Run.report .info ("[" ++ toString number ++ "/" ++ toString total ++ "] " ++ s.label)
  Run.within (.planStep s.label) (runner.runChecked s.invocation)

/-- Runs steps in order, the first of which has the given number. -/
def runSteps (runner : Runner σ) (total : Nat) : Nat → List PlanStep → Run σ Unit
  | _, [] => return ()
  | number, s :: rest => do
    runStep runner total number s
    runSteps runner total (number + 1) rest

/-- Runs the whole plan. -/
def run (p : Plan) (runner : Runner σ) : Run σ Unit := do
  runSteps runner p.steps.length 1 p.steps
  Run.report .info ("All " ++ toString p.steps.length ++ " functional test steps passed")

end Plan

end ParseBench
