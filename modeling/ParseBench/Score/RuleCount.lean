/-
  ParseBench.Score.RuleCount

  How often each rule of a grammar is used by the programs of a dataset.
-/

import ParseBench.Data.Dataset
import ParseBench.Program.Grammar

namespace ParseBench

/-- The number of uses of a rule. -/
structure RuleCount where
  rule : Nat
  count : Nat
  text : String
  deriving DecidableEq, Repr, Inhabited

namespace RuleCount

/-- The rules used by the examples that the grammar derives, at most `maxLength` for each. -/
def uses (g : ProgramGrammar) (examples : List Example) (maxLength : Nat) : List Nat :=
  examples.flatMap fun e =>
    match g.vectorize e.program maxLength with
    | .ok rules => rules
    | .error _ => []

/-- One entry for each rule, in the order of their ids. -/
def tally (g : ProgramGrammar) (examples : List Example) (maxLength : Nat) : List RuleCount :=
  let used := uses g examples maxLength
  (List.range g.ruleCount).map fun rule => ⟨rule, used.count rule, g.ruleText rule⟩

/-- What is reported: the examples that were skipped, and how many were counted. -/
def events (g : ProgramGrammar) (examples : List Example) (maxLength : Nat) : List Event :=
  let skipped := examples.filterMap fun e =>
    match g.vectorize e.program maxLength with
    | .ok _ => none
    | .error error => some ⟨.warn, "Skipping example " ++ e.id ++ ": " ++ error.message⟩
  skipped ++ [⟨.info, "Counted " ++ toString (examples.length - skipped.length) ++ " programs (" ++
    g.kind.direction.label ++ " grammar), skipped " ++ toString skipped.length⟩]

/-- The line of a report that shows the count. -/
def line (c : RuleCount) : String :=
  toString c.rule ++ "\t" ++ toString c.count ++ "\t" ++ c.text

end RuleCount

end ParseBench
