/-
  ParseBench.Grammar.Automaton

  The collection of item sets that a shift-reduce parser moves between: the
  closure of the root rule's item, and all sets that come from it by advancing.
  The place of a set in breadth first order is its state.
-/

import ParseBench.Grammar.Item

namespace ParseBench.Grammar

/-- The set of the state after `set` on the symbol `s`. -/
def successor (rules : List Rule) (set : ItemSet) (s : Symbol) : ItemSet :=
  closure rules (advance rules set s)

/-- The item set in which a parser begins. -/
def initialSet (rules : List Rule) : ItemSet :=
  closure rules (initialItems rules rootSymbol)

/-- All item sets. There are no more of them than sets of items. -/
def itemSets (rules : List Rule) : List ItemSet :=
  Graph.reach (fun set => (followers rules set).map (successor rules set))
    (Nat.pow 2 (itemCount rules)) [initialSet rules]

/-- The item sets of a grammar and, for each of them, where its followers lead. -/
structure Automaton where
  sets : List ItemSet
  transitions : List (List (Symbol × Nat))
  deriving DecidableEq, Repr, Inhabited

namespace Automaton

/-- The automaton of a list of rules. -/
def ofRules (rules : List Rule) : Automaton :=
  let sets := itemSets rules
  { sets
    transitions := sets.map fun set =>
      (followers rules set).filterMap fun s =>
        (sets.idxOf? (successor rules set s)).map fun next => (s, next) }

/-- The state after `state` on the symbol `s`. -/
def next? (a : Automaton) (state : Nat) (s : Symbol) : Option Nat :=
  a.transitions[state]?.bind fun row => row.lookup s

end Automaton

end ParseBench.Grammar
