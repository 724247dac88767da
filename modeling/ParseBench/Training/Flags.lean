/-
  ParseBench.Training.Flags

  The flags of one call of the trainer. A run that needs other flags derives a
  new record and leaves the old one as it is.
-/

import ParseBench.Files.Path
import ParseBench.Text.Split

namespace ParseBench

/-- The flags of a call of the trainer. -/
structure Flags where
  problem : String := ""
  model : String := ""
  hparams : String := ""
  hparamsSet : Option String := none
  dataDir : String := ""
  outputDir : String := ""
  userDir : Option String := none
  schedule : Option String := none
  curriculum : Bool := false
  perturbTraining : Bool := false
  loops : Nat := 1
  lastCheckpoints : Option Int := none
  /-- Flags that are handed on as they are. -/
  passthrough : List String := []
  deriving DecidableEq, Repr, Inhabited

/-! ## Hyperparameters -/

/-- Hyperparameters without the stray commas and blanks at their two ends. -/
def normalizeHparams (hparams : String) : String :=
  String.ofList (Text.trimWhere (fun c => c == ',' || Text.isBlank c) hparams.toList)

/-! ## Checkpoints -/

/-- The number of checkpoints that are averaged unless another is asked for. -/
def defaultCheckpoints : Nat := 3

/-- The number of checkpoints to average: the one asked for if it is positive. -/
def effectiveCheckpoints (requested : Option Int) : Nat :=
  match requested with
  | some n => if 0 < n then n.toNat else defaultCheckpoints
  | none => defaultCheckpoints

namespace Flags

/-- The flags with normalised hyperparameters. -/
def normalized (f : Flags) : Flags :=
  { f with hparams := normalizeHparams f.hparams }

/-- The directory of the averaged checkpoint of a loop. -/
def averagedDir (f : Flags) (loop : Nat) : String :=
  Path.join f.outputDir ("averaged_" ++ toString loop)

/-- The arguments of the trainer. Empty hyperparameters are left out, and the flags of
    perturb training are not the trainer's. -/
def arguments (f : Flags) : List String :=
  ["--problem=" ++ f.problem, "--model=" ++ f.model] ++
    (f.hparamsSet.toList.map ("--hparams_set=" ++ ·)) ++
    (if f.hparams.isEmpty then [] else ["--hparams=" ++ f.hparams]) ++
    ["--data_dir=" ++ f.dataDir, "--output_dir=" ++ f.outputDir] ++
    (f.userDir.toList.map ("--t2t_usr_dir=" ++ ·)) ++
    (f.schedule.toList.map ("--schedule=" ++ ·)) ++
    (if f.curriculum then ["--curriculum"] else []) ++
    f.passthrough

end Flags

end ParseBench
