/-
  ParseBench.Training.Train

  Training: the trainer runs once, and for perturb training the last checkpoints
  are then averaged and trained on again and again. Each loop continues from
  what the loop before it trained; all of them write below the first output
  directory.
-/

import ParseBench.Training.Family
import ParseBench.Training.Flags
import ParseBench.Training.Runner

namespace ParseBench

/-! ## Averaging -/

namespace Checkpoint

/-- The call that averages the last `count` checkpoints of a directory. -/
def averageCall (program directory target : String) (count : Nat) : Invocation :=
  ⟨program, ["--model_dir=" ++ directory, "--output_dir=" ++ target, "--n=" ++ toString count]⟩

/-- Makes the target directory and averages the last `count` checkpoints into it. -/
def average {σ : Type} (runner : Runner σ) (program directory target : String) (count : Nat) :
    Run σ Unit := do
  Run.within (.creating target) (Run.makeDirs target)
  Run.report .info ("Averaging last " ++ toString count ++ " checkpoints of '" ++ directory ++
    "' into '" ++ target ++ "'")
  Run.within (.averaging directory)
    (runner.runChecked (averageCall program directory target count))

end Checkpoint

/-! ## Training -/

/-- What a training run is made with. -/
structure TrainConfig where
  flags : Flags
  family : Family
  trainer : String
  averager : String
  deriving DecidableEq, Repr, Inhabited

namespace TrainConfig

variable {σ : Type}

/-- The call of the trainer with some flags. -/
def trainerCall (c : TrainConfig) (f : Flags) : Invocation :=
  ⟨c.trainer, f.arguments⟩

/-- One loop of perturb training: from the directory `current` into that of the loop. -/
def perturbLoop (c : TrainConfig) (runner : Runner σ) (base : Flags) (current : String)
    (loop : Nat) : Run σ Unit := do
  Run.report .info ("Perturb-training loop " ++ toString (loop + 1) ++ "/" ++ toString base.loops)
  let target := base.averagedDir loop
  Run.within (.perturbLoop loop)
    (Checkpoint.average runner c.averager current target (effectiveCheckpoints base.lastCheckpoints))
  Run.within (.perturbLoop loop)
    (runner.runChecked (c.trainerCall { base with outputDir := target }))

/-- The next `count` loops of perturb training, of which `loop` is the first. -/
def perturbLoops (c : TrainConfig) (runner : Runner σ) (base : Flags) :
    (current : String) → (loop count : Nat) → Run σ Unit
  | _, _, 0 => return ()
  | current, loop, count + 1 => do
    c.perturbLoop runner base current loop
    c.perturbLoops runner base (base.averagedDir loop) (loop + 1) count

/-- Trains. Problem and model have to be of one family. -/
def run (c : TrainConfig) (runner : Runner σ) : Run σ Unit := do
  Run.ofExcept (c.family.check c.flags.problem c.flags.model)
  let base := c.flags.normalized
  if base.hparams ≠ c.flags.hparams then
    Run.report .debug ("hparams '" ++ c.flags.hparams ++ "' → '" ++ base.hparams ++ "'")
  Run.report .info
    ("Training " ++ base.model ++ " on " ++ base.problem ++ " into '" ++ base.outputDir ++ "'")
  runner.runChecked (c.trainerCall base)
  if base.perturbTraining then
    c.perturbLoops runner base base.outputDir 0 base.loops
    Run.report .info ("Finished " ++ toString base.loops ++ " perturb-training loops")

end TrainConfig

end ParseBench
