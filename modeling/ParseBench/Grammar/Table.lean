/-
  ParseBench.Grammar.Table

  The actions of the states. A state shifts the terminals its automaton has
  transitions on, accepts the end of the input after the start symbol, and
  applies the rule of a complete item backwards on the terminals that can follow
  its left-hand side. Two actions on one terminal are a conflict: then the
  grammar is not SLR(1).
-/

import ParseBench.Grammar.Alphabet
import ParseBench.Grammar.Automaton
import ParseBench.Grammar.FirstFollow
import ParseBench.Grammar.Notice

namespace ParseBench.Grammar

/-- What the actions are computed from. -/
structure TableInput where
  rules : List Rule
  alphabet : Alphabet
  automaton : Automaton
  /-- The FOLLOW set of each non-terminal of the alphabet. -/
  follow : List (Symbol × List Symbol)

namespace TableInput

/-- The terminals that can follow the left-hand side of a rule. -/
def followOf (t : TableInput) (rule : Nat) : List Symbol :=
  match t.rules[rule]? with
  | some r => (t.follow.lookup r.lhs).getD []
  | none => []

/-- Accepting the end of the input, or shifting. -/
def readActions (t : TableInput) (state : Nat) (set : ItemSet) (terminal : Symbol) :
    List Action :=
  if terminal = endToken && set.any fun i => nextSymbol? t.rules i == some endToken then
    [.accept]
  else
    match t.automaton.next? state terminal with
    | some next => [.shift next]
    | none => []

/-- The rules that the complete items of a set apply backwards on a terminal. -/
def reduceActions (t : TableInput) (complete : List Item) (terminal : Symbol) : List Action :=
  (complete.filter fun i => terminal ∈ t.followOf i.rule).map fun i => .reduce i.rule

/-- The items of a set with the dot at the end. -/
def completeItems (t : TableInput) (set : ItemSet) : List Item :=
  set.filter (isComplete t.rules)

/-- All actions that a state asks for on a terminal. -/
def actionsAt (t : TableInput) (state : Nat) (set : ItemSet) (terminal : Symbol) :
    List Action :=
  t.readActions state set terminal ++ t.reduceActions (t.completeItems set) terminal

/-! ## Conflicts -/

/-- A reduction that a state asks for on a terminal besides another action. -/
structure Conflict where
  state : Nat
  terminal : Symbol
  rule : Nat
  existing : Action
  deriving DecidableEq, Repr

/-- The first terminal on which the complete item `item` meets an action of the items
    `earlier` before it. -/
def itemConflict? (t : TableInput) (state : Nat) (set : ItemSet) (earlier : List Item)
    (item : Item) : Option Conflict :=
  (t.alphabet.terminals.filter fun terminal => terminal ∈ t.followOf item.rule).findSome?
    fun terminal =>
      -- the table holds the first action that came, so that one is named
      (t.readActions state set terminal ++ t.reduceActions earlier terminal).head?.map
        fun existing => ⟨state, terminal, item.rule, existing⟩

/-- The first conflict among complete items, given those before them. -/
def itemsConflict? (t : TableInput) (state : Nat) (set : ItemSet) :
    List Item → List Item → Option Conflict
  | _, [] => none
  | earlier, item :: rest =>
    (t.itemConflict? state set earlier item).or
      (t.itemsConflict? state set (earlier ++ [item]) rest)

/-- The first conflict in the order of states, items and terminals. -/
def conflict? (t : TableInput) : Option Conflict :=
  t.automaton.sets.zipIdx.findSome? fun s =>
    t.itemsConflict? s.2 s.1 [] (t.completeItems s.1)

/-- The reports about a conflict: the items of the state it is in. -/
def conflictNotices (t : TableInput) (c : Conflict) : List Notice :=
  .conflictIn c.state ::
    ((t.automaton.sets[c.state]?.getD []).filterMap fun i =>
      t.rules[i.rule]?.map fun r => .conflictItem i.rule r i.dot)

/-! ## Tables -/

/-- The action of each state on each terminal. -/
def actionTable (t : TableInput) : List (List Action) :=
  t.automaton.sets.zipIdx.map fun s =>
    t.alphabet.terminals.map fun terminal => (t.actionsAt s.2 s.1 terminal).headD .invalid

/-- The state after each state on each non-terminal. -/
def gotoTable (t : TableInput) : List (List (Option Nat)) :=
  t.automaton.sets.zipIdx.map fun s =>
    t.alphabet.nonterminals.map fun nonterminal => t.automaton.next? s.2 nonterminal

end TableInput

end ParseBench.Grammar
