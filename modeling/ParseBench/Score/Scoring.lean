/-
  ParseBench.Score.Scoring

  Judges predictions against the gold examples on the same lines. Accuracies are
  fractions of all predictions; program recall is the number of different gold
  programs predicted exactly, over the number of different gold programs.
-/

import ParseBench.Data.Dataset
import ParseBench.Program.Grammar
import ParseBench.Score.Metrics
import ParseBench.Score.ResultLine

namespace ParseBench.Score

/-- A gold example with the program decoded for it. -/
abbrev Pair := Example × Program

/-- The outcome of a prediction. Nothing is equivalent to an empty prediction. -/
def outcome (g : ProgramGrammar) (pair : Pair) : Outcome :=
  .judge pair.1.program pair.2 (!pair.2.isEmpty && g.compare pair.1.program pair.2)

/-- The result line of a prediction. -/
def resultLine (g : ProgramGrammar) (pair : Pair) : ResultLine where
  sentence := Text.join " " pair.1.sentence
  gold := pair.1.program.text
  predicted := pair.2.text
  outcome := outcome g pair

/-- The number of outcomes that pass a level. -/
def passing (level : Outcome → Bool) (outcomes : List Outcome) : Nat :=
  outcomes.countP level

/-- The different programs that were predicted exactly. -/
def correctPrograms (g : ProgramGrammar) (pairs : List Pair) : List Program :=
  ((pairs.filter fun pair => (outcome g pair).full).map (·.2)).eraseDups

/-- The different gold programs. -/
def goldPrograms (gold : List Example) : List Program :=
  (gold.map Example.program).eraseDups

/-- The metrics of the predictions in `pairs` against the gold examples. -/
def metrics (g : ProgramGrammar) (gold : List Example) (pairs : List Pair) : Metrics :=
  let outcomes := pairs.map (outcome g)
  let accuracy (level : Outcome → Bool) : Ratio := ⟨passing level outcomes, pairs.length⟩
  { grammarAccuracy := accuracy Outcome.grammar
    accuracy := accuracy Outcome.full
    functionCountAccuracy := accuracy Outcome.functionCount
    deviceAccuracy := accuracy Outcome.device
    functionAccuracy := accuracy Outcome.function
    signatureAccuracy := accuracy Outcome.signature
    programRecall := ⟨(correctPrograms g pairs).length, (goldPrograms gold).length⟩ }

/-- The result lines and metrics of predictions. There has to be a prediction, and a gold
    example for each. -/
def score (g : ProgramGrammar) (gold : List Example) (predictions : List Program) :
    Except Error (List ResultLine × Metrics) :=
  if predictions.isEmpty then .error Cause.noPredictions
  else if gold.length < predictions.length then
    .error (Cause.tooManyPredictions predictions.length gold.length)
  else
    let pairs := gold.zip predictions
    .ok (pairs.map (resultLine g), metrics g gold pairs)

/-- What is reported about the predictions: some gold examples may have none. -/
def events (gold : List Example) (predictions : List Program) : List Event :=
  if !predictions.isEmpty && predictions.length < gold.length then
    [⟨.warn, "Only " ++ toString predictions.length ++ " of " ++ toString gold.length ++
      " gold examples have a prediction"⟩]
  else []

end ParseBench.Score
