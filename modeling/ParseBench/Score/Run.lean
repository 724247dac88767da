/-
  ParseBench.Score.Run

  Scoring and rule counting over files: the configuration names the grammar, the
  dataset holds the gold programs. Scoring writes a file with a line for each example
  and a file with the report of the metrics into a directory.
-/

import ParseBench.Data.Dataset
import ParseBench.Model.Load
import ParseBench.Score.Metrics
import ParseBench.Score.ResultLine
import ParseBench.Score.RuleCount
import ParseBench.Score.Scoring
import ParseBench.Session

namespace ParseBench

variable {σ : Type}

/-! ## Results -/

namespace Results

/-- The file of the result lines. -/
def linesFile : String := "t2t_results.txt"

/-- The file of the report. -/
def metricsFile : String := "t2t_stats.txt"

/-- Result lines as the text of a file. -/
def linesText (lines : List ResultLine) : String :=
  String.join (lines.map fun l => l.write ++ "\n")

/-- Makes the directory if it is not there. -/
def prepare (directory : String) : Run σ Unit :=
  Run.within (.creatingResults directory) (Run.makeDirs directory)

/-- Writes the result lines and yields the path of their file. -/
def writeLines (directory : String) (lines : List ResultLine) : Run σ String := do
  let path := Path.join directory linesFile
  Run.within (.creating path) (Run.writeText path "")
  Run.writeText path (linesText lines)
  Run.report .debug ("Wrote " ++ toString lines.length ++ " result lines to '" ++ path ++ "'")
  return path

/-- Writes the report and yields the path of its file. -/
def writeMetrics (directory : String) (m : Metrics) : Run σ String := do
  let path := Path.join directory metricsFile
  Run.within (.writing path) (Run.writeText path m.report)
  return path

end Results

/-! ## Runs -/

/-- The files that scoring reads, and the directory that it writes to. -/
structure ScoreConfig where
  /-- Configuration files of the model, the last one on top. -/
  layers : List String
  predictions : String
  dataset : String
  results : String
  deriving DecidableEq, Repr, Inhabited

/-- Scores the predictions, writes the results and yields the metrics. -/
def ScoreConfig.run (json : Json.Reader) (c : ScoreConfig) : Run σ Metrics := do
  let model ← ModelConfig.load json c.layers
  let g ← model.loadGrammar json
  let gold ← Dataset.load c.dataset
  let predictions ← Predictions.load c.predictions
  Run.tellAll (Score.events gold predictions)
  let (lines, metrics) ← Run.ofExcept (Score.score g gold predictions)
  Results.prepare c.results
  let _ ← Results.writeLines c.results lines
  let path ← Results.writeMetrics c.results metrics
  Run.report .info ("Wrote metrics to '" ++ path ++ "'")
  return metrics

/-- Counts the rules that the programs of a dataset use. The grammar is that of the model
    in a directory. -/
def RuleCount.ofDataset (json : Json.Reader) (directory dataset : String) :
    Run σ (List RuleCount) := do
  let model ← ModelConfig.load json (ModelConfig.directoryLayers directory)
  let g ← model.loadGrammar json
  let examples ← Dataset.load dataset
  Run.tellAll (RuleCount.events g examples model.input.maxLength)
  return RuleCount.tally g examples model.input.maxLength

end ParseBench
