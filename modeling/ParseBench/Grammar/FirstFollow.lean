/-
  ParseBench.Grammar.FirstFollow

  The terminals a non-terminal can begin with and those that can come directly
  after it. No rule is empty, so the first symbol of a right-hand side alone
  decides what the right-hand side begins with, and both sets are reachability
  in a graph of symbols.
-/

import ParseBench.Grammar.Basic
import ParseBench.Graph.Reach
import ParseBench.Ordered

namespace ParseBench.Grammar

/-- A number that the count of different symbols of the rules does not exceed. -/
def symbolBound (rules : List Rule) : Nat :=
  (rules.map fun r => r.rhs.length + 1).foldr (· + ·) 0 + 1

/-! ## FIRST -/

/-- The first symbols of the alternatives of `s`. -/
def heads (rules : List Rule) (s : Symbol) : List Symbol :=
  (rules.filter fun r => r.lhs == s).filterMap fun r => r.rhs.head?

/-- The symbols that what `s` derives can begin with. -/
def leading (rules : List Rule) (s : Symbol) : List Symbol :=
  Graph.reach (fun t => if isNonterminal t then heads rules t else []) (symbolBound rules)
    (heads rules s)

/-- The terminals that what the non-terminal `s` derives can begin with. -/
def firstSet (rules : List Rule) (s : Symbol) : List Symbol :=
  Ordered.ofList ((leading rules s).filter fun t => !isNonterminal t)

/-- The terminals that an occurrence of a symbol can begin with. -/
def firstOf (rules : List Rule) (s : Symbol) : List Symbol :=
  if isNonterminal s then firstSet rules s else [s]

/-! ## FOLLOW -/

/-- The symbols directly after the occurrences of `s` in a right-hand side. -/
def successors (s : Symbol) : List Symbol → List Symbol
  | a :: b :: rest => if a = s then b :: successors s (b :: rest) else successors s (b :: rest)
  | _ => []

/-- The left-hand sides whose followers are followers of `s`: those of the rules that
    end in it. -/
def parents (rules : List Rule) (s : Symbol) : List Symbol :=
  if isNonterminal s then
    (rules.filter fun r => r.rhs.getLast? == some s).map Rule.lhs
  else []

/-- The terminals that can come after an occurrence of `s` inside a right-hand side. -/
def innerFollow (rules : List Rule) (s : Symbol) : List Symbol :=
  if isNonterminal s then
    (rules.flatMap fun r => successors s r.rhs).flatMap (firstOf rules)
  else []

/-- The terminals that can come directly after `s`. -/
def followSet (rules : List Rule) (s : Symbol) : List Symbol :=
  Ordered.ofList <|
    (Graph.reach (parents rules) (symbolBound rules) [s]).flatMap (innerFollow rules)

end ParseBench.Grammar
