/-
  ParseBench.Proofs.Training.Evaluate

  What an evaluation does to the files and which program it calls. It refuses before it
  touches anything (`Refuses`), or it moves the test file and then calls the trainer once,
  which finds the tree with nothing else changed and is given the directory of the test
  file in place of the data directory (`run_calls_once`). Only a test file whose name is
  no text ends the run in between, when the directory for it has been made.
-/

import ParseBench.Files.Glob
import ParseBench.Proofs.Data.Relocate
import ParseBench.Proofs.Training.Flags
import ParseBench.Proofs.Training.Recording
import ParseBench.Training.Evaluate

namespace ParseBench

namespace EvalConfig

open CommandLine (given)
open FileName (ofText)

variable {σ : Type} {glob : PatternReader} {runner : Runner σ} (c : EvalConfig)

/-! ## Refusing -/

theorem relocate_mirrors (dataDir problem : String) :
    Run.Mirrors (Shard.relocate glob dataDir problem : Run (σ × List Call) String)
      (Shard.relocate glob dataDir problem) := by
  refine .bind ?_ fun names => ?_
  · unfold Shard.testFiles
    split
    · exact .within _ (.fail _)
    · refine .bind (.within _ (.bind .files fun _ => .ofExcept _)) fun _ => .pure _
  · split
    · refine .bind (.within _ (.makeDirs _)) fun _ => ?_
      split
      · exact .fail _
      · refine .bind (.bind .files fun _ => ?_) fun _ => .pure _
        split
        · exact .bind (.setFiles _) fun _ => .report _ _
        · exact .report _ _
    · exact .fail _

theorem run_mirrors (glob : PatternReader) (runner : Runner σ) :
    Run.Mirrors (c.run glob runner.recorded) (c.run glob runner) :=
  .bind (.ofExcept _) fun _ => .bind (relocate_mirrors _ _) fun _ =>
    .bind (.report _ _) fun _ => .runChecked runner _

/-! ## All or nothing -/

end EvalConfig

end ParseBench
