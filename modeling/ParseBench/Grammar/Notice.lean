/-
  ParseBench.Grammar.Notice

  What the grammar compiler reports while it works.
-/

import ParseBench.Event
import ParseBench.Grammar.Error

namespace ParseBench.Grammar

/-- The reports of the grammar compiler. -/
inductive Notice where
  /-- A pass of the cleaning begins. -/
  | cleaningPass (number : Nat)
  /-- A left-hand side without alternatives is deleted. -/
  | emptied (lhs : Symbol)
  /-- Alternatives that mention a deleted left-hand side are deleted. -/
  | alternativesDropped (count : Nat) (lhs : Symbol)
  /-- A left-hand side that the start symbol does not reach is deleted. -/
  | unreachable (lhs : Symbol)
  /-- A rule receives its id. -/
  | numbered (id : Nat) (rule : Rule)
  /-- The item set of a state asks for two actions on one terminal. -/
  | conflictIn (state : Nat)
  /-- An item of such a set. -/
  | conflictItem (id : Nat) (rule : Rule) (dot : Nat)
  /-- No terminal begins what the non-terminal derives. -/
  | cannotStart (nonterminal : Symbol)
  /-- No terminal follows the non-terminal. -/
  | cannotBeFollowed (nonterminal : Symbol)
  /-- The sizes of the finished tables. -/
  | sizes (rules terminals nonterminals states : Nat)
  deriving DecidableEq, Repr

/-- The report as an event. -/
def Notice.event : Notice → Event
  | .cleaningPass number => ⟨.trace, "grammar optimisation pass " ++ toString number⟩
  | .emptied lhs => ⟨.debug, "non-terminal " ++ lhs ++ " is empty, deleted"⟩
  | .alternativesDropped count lhs =>
    ⟨.debug, toString count ++ " rule(s) of " ++ lhs ++ " deleted"⟩
  | .unreachable lhs => ⟨.debug, "non-terminal " ++ lhs ++ " is not reachable, deleted"⟩
  | .numbered id rule =>
    ⟨.trace, toString id ++ " " ++ rule.lhs ++ " -> " ++ Text.quotedList rule.rhs⟩
  | .conflictIn state => ⟨.error, "conflict in item set " ++ toString state⟩
  | .conflictItem id rule dot =>
    ⟨.error, "  " ++ toString id ++ " " ++ rule.text ++ " (dot at " ++ toString dot ++ ")"⟩
  | .cannotStart nonterminal =>
    ⟨.warn, "non-terminal " ++ nonterminal ++ " cannot start with any terminal"⟩
  | .cannotBeFollowed nonterminal =>
    ⟨.warn, "non-terminal " ++ nonterminal ++ " cannot be followed by any terminal"⟩
  | .sizes rules terminals nonterminals states =>
    ⟨.debug, "SLR tables: " ++ toString rules ++ " rules, " ++ toString terminals ++
      " terminals, " ++ toString nonterminals ++ " non-terminals, " ++ toString states ++
      " states"⟩

end ParseBench.Grammar
