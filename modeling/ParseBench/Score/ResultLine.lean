/-
  ParseBench.Score.ResultLine

  The line that is written for each scored example: the sentence, the two
  programs, the verdict and four labels, separated by tabs. The device level is
  not recorded.
-/

import ParseBench.Error
import ParseBench.Score.Outcome

namespace ParseBench

/-- A scored example. -/
structure ResultLine where
  sentence : String
  gold : String
  predicted : String
  outcome : Outcome
  deriving DecidableEq, Repr, Inhabited

namespace ResultLine

/-! ## Writing -/

/-- The written form of the verdict. -/
def verdict (ok : Bool) : String :=
  if ok then "True" else "False"

/-- The written form of a level. -/
def label (ok : Bool) (name : String) : String :=
  (if ok then "Correct" else "Incorrect") ++ name

/-- The fields of a line in order. -/
def fields (r : ResultLine) : List String :=
  [r.sentence, r.gold, r.predicted, verdict r.outcome.full,
    label r.outcome.grammar "Grammar", label r.outcome.function "Function",
    label r.outcome.functionCount "NumFunction", label r.outcome.signature "Signature"]

/-- The line without its line end. -/
def write (r : ResultLine) : String :=
  Text.join "\t" r.fields

/-! ## Reading -/

/-- The verdict that a field holds. -/
def readVerdict (field : String) : Except Error Bool :=
  if field = "True" then .ok true
  else if field = "False" then .ok false
  else .error (Cause.badVerdict field)

/-- The level that a field holds: one of two words with the name of the level behind it. -/
def readLabel (field name : String) : Except Error Bool :=
  match (Text.dropLead? "Incorrect" field).or (Text.dropLead? "Correct" field) with
  | some rest =>
    if rest = name then .ok (Text.startsWith field "Correct")
    else .error (Cause.badLabel name field)
  | none => .error (Cause.badLabel name field)

/-- The line without line feeds and carriage returns at its end. -/
def dropLineEnd (line : String) : String :=
  String.ofList (Text.trimRightWhere (fun c => c == '\r' || c == '\n') line.toList)

/-- Reads a line. The device level, which is not recorded, counts as failed. -/
def read (line : String) : Except Error ResultLine :=
  match Text.splitOn '\t' (dropLineEnd line) with
  | [sentence, gold, predicted, full, grammar, function, functionCount, signature] => do
    let full ← readVerdict full
    let grammar ← readLabel grammar "Grammar"
    let function ← readLabel function "Function"
    let functionCount ← readLabel functionCount "NumFunction"
    let signature ← readLabel signature "Signature"
    let outcome : Outcome := { full, grammar, function, functionCount, signature }
    return { sentence, gold, predicted, outcome }
  | fields => .error (Cause.fieldCount fields.length)

end ResultLine

end ParseBench
