/-
  ParseBench.Grammar.Alphabet

  The terminals and non-terminals of a list of rules in ascending order. The id
  of a terminal is its place; the ids of the non-terminals come after those of
  the terminals.
-/

import ParseBench.Grammar.Error
import ParseBench.Ordered

namespace ParseBench.Grammar

/-- The symbols of a grammar, each kind in ascending order. -/
structure Alphabet where
  terminals : List Symbol
  nonterminals : List Symbol
  deriving DecidableEq, Repr, Inhabited

namespace Alphabet

/-- The symbols of the rules and the reserved tokens. A left-hand side is always a
    non-terminal of the alphabet, whatever its name. -/
def ofRules (rules : List Rule) : Alphabet where
  terminals := Ordered.ofList <| reservedTokens ++
    rules.flatMap fun r => r.rhs.filter fun s => !isNonterminal s
  nonterminals := Ordered.ofList <|
    rules.flatMap fun r => r.lhs :: r.rhs.filter isNonterminal

/-- The first terminal that stands at the place of a reserved token. -/
def misplaced? (a : Alphabet) : Option Symbol :=
  ((a.terminals.zip reservedTokens).find? fun p => p.1 != p.2).map (·.1)

/-- The alphabet of the rules, if the reserved tokens come first in it. -/
def ofRules? (rules : List Rule) : Except GrammarError Alphabet :=
  match (ofRules rules).misplaced? with
  | some terminal => .error (.reservedTerminal terminal)
  | none => .ok (ofRules rules)

end Alphabet

end ParseBench.Grammar
