/-
  ParseBench.Score.Metrics

  Accuracies as fractions of counts, and the report that shows them.
-/

import ParseBench.Decimal.Shortest

namespace ParseBench

/-- A count over a total. -/
structure Ratio where
  count : Int
  total : Int
  deriving DecidableEq, Repr, Inhabited

namespace Ratio

/-- The ratio as a floating point number. -/
def value (r : Ratio) : Float :=
  Float.ofInt r.count / Float.ofInt r.total

/-- The shortest text that reads back as the ratio's floating point number. -/
def text (r : Ratio) : String :=
  Decimal.text r.value

end Ratio

/-- What a set of predictions is judged by. -/
structure Metrics where
  grammarAccuracy : Ratio
  accuracy : Ratio
  functionCountAccuracy : Ratio
  deviceAccuracy : Ratio
  functionAccuracy : Ratio
  signatureAccuracy : Ratio
  programRecall : Ratio
  deriving DecidableEq, Repr, Inhabited

namespace Metrics

/-- The names and values in the order of the report. -/
def entries (m : Metrics) : List (String × Ratio) :=
  [("grammar_accuracy", m.grammarAccuracy),
    ("accuracy", m.accuracy),
    ("function_count_accuracy", m.functionCountAccuracy),
    ("device_accuracy", m.deviceAccuracy),
    ("function_accuracy", m.functionAccuracy),
    ("signature_accuracy", m.signatureAccuracy),
    ("program_recall", m.programRecall)]

/-- The report: a line for each metric. -/
def report (m : Metrics) : String :=
  String.join (m.entries.map fun e => e.1 ++ " : " ++ e.2.text ++ "\n")

end Metrics

end ParseBench
