/-
  ParseBench.Grammar.Item

  Items, rules with a dot, and the two operations on sets of them: the closure
  adds the rules that may be begun at a dot, and advancing moves the dots over a
  symbol.
-/

import ParseBench.Grammar.Basic
import ParseBench.Graph.Reach
import ParseBench.Ordered

namespace ParseBench.Grammar

/-- A rule and a place in its right-hand side. -/
structure Item where
  rule : Nat
  dot : Nat
  deriving DecidableEq, Repr, Inhabited

/-- Items are ordered by rule and then by place. -/
instance : LT Item where
  lt a b := a.rule < b.rule ∨ (a.rule = b.rule ∧ a.dot < b.dot)

instance : DecidableLT Item := fun a b =>
  inferInstanceAs (Decidable (a.rule < b.rule ∨ (a.rule = b.rule ∧ a.dot < b.dot)))

/-- A set of items in ascending order. -/
abbrev ItemSet := List Item

/-- The number of items of the rules. -/
def itemCount (rules : List Rule) : Nat :=
  (rules.map fun r => r.rhs.length + 1).foldr (· + ·) 0

/-- The symbol after the dot, if the dot is not at the end. -/
def nextSymbol? (rules : List Rule) (item : Item) : Option Symbol :=
  rules[item.rule]?.bind fun r => r.rhs[item.dot]?

/-- Is the dot at the end of the rule? -/
def isComplete (rules : List Rule) (item : Item) : Bool :=
  match rules[item.rule]? with
  | some r => item.dot == r.rhs.length
  | none => false

/-- The rules for `s` with the dot at the beginning. -/
def initialItems (rules : List Rule) (s : Symbol) : List Item :=
  (rules.zipIdx.filter fun r => r.1.lhs == s).map fun r => ⟨r.2, 0⟩

/-- The items that an item brings into a set: those of the non-terminal at its dot. -/
def broughtIn (rules : List Rule) (item : Item) : List Item :=
  match nextSymbol? rules item with
  | some s => if isNonterminal s then initialItems rules s else []
  | none => []

/-- The least set with the items that contains all that its members bring in. -/
def closure (rules : List Rule) (items : List Item) : ItemSet :=
  Ordered.ofList (Graph.reach (broughtIn rules) (itemCount rules + items.length) items)

/-- The items of a set with `s` at the dot, with the dot moved over it. -/
def advance (rules : List Rule) (set : ItemSet) (s : Symbol) : List Item :=
  (set.filter fun item => nextSymbol? rules item == some s).map fun item =>
    ⟨item.rule, item.dot + 1⟩

/-- The symbols at the dots of a set, each once, in the order of the items. The end
    of the input is not among them: it is accepted and never passed. -/
def followers (rules : List Rule) (set : ItemSet) : List Symbol :=
  Graph.unseen [endToken] (set.filterMap (nextSymbol? rules))

end ParseBench.Grammar
