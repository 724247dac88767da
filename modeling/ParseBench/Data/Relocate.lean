/-
  ParseBench.Data.Relocate

  Moving a problem's test file to where the trainer looks for data to evaluate
  on: into a directory of its own, under a name of the dev split. There has to
  be one test file. A file that cannot be moved is left where it is, because it
  may have been moved by an earlier evaluation.
-/

import ParseBench.Session

namespace ParseBench.Shard

/-! ## Names -/

/-- The pattern of a problem's test files. -/
def testPattern (problem : String) : String :=
  problem ++ "-test*"

/-- The name of a test file as a file of the dev split: its first `-test` becomes `-dev`. -/
def devName (name : String) : String :=
  String.ofList (Text.replaceFirst "-test".toList "-dev".toList name.toList)

/-- The directory, inside the data directory, that receives the test file. -/
def relocatedDir : String := "test_data"

/-! ## Moving -/

variable {σ : Type}

/-- The names of a problem's test files in a data directory, in ascending order. -/
def testFiles (glob : PatternReader) (dataDir problem : String) : Run σ (List FileName) := do
  match glob (testPattern problem) with
  | none => Run.within (.compilingPattern (testPattern problem)) (Run.fail .glob)
  | some isMatch =>
    let names ← Run.within (.listingData dataDir) do Run.ofAccess ((← Run.files).listFiles dataDir)
    return names.filter isMatch

/-- Moves a test file into the directory `target`, if it can be moved. -/
def moveTo (dataDir target name : String) : Run σ Unit := do
  let path := Path.join dataDir name
  let destination := Path.join target (devName name)
  match (← Run.files).move path destination with
  | .ok t =>
    Run.setFiles t
    Run.report .info ("Moved '" ++ path ++ "' to '" ++ destination ++ "'")
  | .error _ =>
    Run.report .debug ("Ignoring failed rename of '" ++ path ++ "': " ++ Cause.message .system)

/-- Moves the test file of a problem and yields the directory to evaluate on. The file's new name
    comes from the text of the old one, which has to be text. -/
def relocate (glob : PatternReader) (dataDir problem : String) : Run σ String := do
  match ← testFiles glob dataDir problem with
  | [name] =>
    let target := Path.join dataDir relocatedDir
    Run.within (.creating target) (Run.makeDirs target)
    match name.toText? with
    | none => Run.fail (.plain "Test shard name is not valid UTF-8")
    | some name =>
      moveTo dataDir target name
      return target
  | names => Run.fail (.testShardCount (Path.join dataDir (testPattern problem)) names.length)

end ParseBench.Shard
