/-
  ParseBench.Training.Evaluate

  Evaluation: the problem's test file is moved under a dev name, and the trainer
  evaluates on the directory that received it.
-/

import ParseBench.Data.Relocate
import ParseBench.Training.Family
import ParseBench.Training.Flags
import ParseBench.Training.Runner

namespace ParseBench

/-- What an evaluation is made with. -/
structure EvalConfig where
  flags : Flags
  family : Family
  trainer : String
  deriving DecidableEq, Repr, Inhabited

namespace EvalConfig

/-- The schedule with which the trainer only evaluates its last checkpoint. -/
def schedule : String := "evaluate"

/-- The flags of an evaluation on a directory. -/
def evaluationFlags (c : EvalConfig) (directory : String) : Flags :=
  { c.flags.normalized with dataDir := directory, schedule := some schedule }

/-- Evaluates. Problem and model have to be of one family. -/
def run {σ : Type} (c : EvalConfig) (glob : PatternReader) (runner : Runner σ) : Run σ Unit := do
  Run.ofExcept (c.family.check c.flags.problem c.flags.model)
  let directory ← Shard.relocate glob c.flags.dataDir c.flags.problem
  let flags := c.evaluationFlags directory
  Run.report .info ("Evaluating '" ++ flags.outputDir ++ "' on '" ++ flags.dataDir ++ "'")
  runner.runChecked ⟨c.trainer, flags.arguments⟩

end EvalConfig

end ParseBench
