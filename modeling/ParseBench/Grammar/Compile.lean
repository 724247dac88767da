/-
  ParseBench.Grammar.Compile

  From a rule set to a parser: cleaning, numbering, the alphabet, the FIRST and
  FOLLOW sets, the automaton and the tables.
-/

import ParseBench.Grammar.Cleaning
import ParseBench.Grammar.Numbering
import ParseBench.Grammar.Parser
import ParseBench.Grammar.Table

namespace ParseBench.Grammar

/-- A compiled grammar with what it was compiled from. -/
structure Compiled where
  start : Symbol
  /-- The rules in the order of their ids, the root rule last. -/
  rules : List Rule
  alphabet : Alphabet
  automaton : Automaton
  /-- The FIRST set of each non-terminal of the alphabet. -/
  first : List (Symbol × List Symbol)
  /-- The FOLLOW set of each non-terminal of the alphabet. -/
  follow : List (Symbol × List Symbol)
  actions : List (List Action)
  gotos : List (List (Option Nat))
  deriving Repr, Inhabited

namespace Compiled

/-- The FIRST set of a non-terminal of the alphabet. -/
def first? (c : Compiled) (s : Symbol) : Option (List Symbol) :=
  c.first.lookup s

/-- The FOLLOW set of a non-terminal of the alphabet. -/
def follow? (c : Compiled) (s : Symbol) : Option (List Symbol) :=
  c.follow.lookup s

/-- The reports about a finished grammar. -/
def notices (c : Compiled) : List Notice :=
  (c.first.filterMap fun f => if f.2.isEmpty then some (.cannotStart f.1) else none) ++
    (c.follow.filterMap fun f =>
      if f.1 != rootSymbol && f.2.isEmpty then some (.cannotBeFollowed f.1) else none) ++
    [.sizes c.rules.length c.alphabet.terminals.length c.alphabet.nonterminals.length
      c.automaton.sets.length]

/-- The parser of a compiled grammar. The root rule only serves the tables and is not
    one of the parser's rules. -/
def parser (c : Compiled) : Parser where
  rules := c.rules.dropLast.toArray
  terminals := c.alphabet.terminals.toArray
  nonterminals := c.alphabet.nonterminals.toArray
  start := c.start
  actions := (c.actions.map List.toArray).toArray
  gotos := (c.gotos.map List.toArray).toArray

end Compiled

/-- The rule set with the root rule, which puts the end of the input after `start`. -/
def withRoot (g : RuleSet) (start : Symbol) : RuleSet :=
  g ++ [⟨rootSymbol, [[start, endToken]]⟩]

/-- The tables of numbered rules, or the conflict in them, and what was reported. -/
def tabulate (start : Symbol) (rules : List Rule) (alphabet : Alphabet) :
    Except GrammarError Compiled × List Notice :=
  -- both tables are in ascending order, as the reports about them are
  let first := alphabet.nonterminals.map fun s => (s, firstSet rules s)
  let follow := alphabet.nonterminals.map fun s => (s, followSet rules s)
  let automaton := Automaton.ofRules rules
  let input : TableInput := { rules, alphabet, automaton, follow }
  match input.conflict? with
  | some c => (.error (.conflict c.state c.terminal c.rule c.existing), input.conflictNotices c)
  | none =>
    let compiled : Compiled :=
      { start, rules, alphabet, automaton, first, follow
        actions := input.actionTable
        gotos := input.gotoTable }
    (.ok compiled, compiled.notices)

/-- Compiles a cleaned rule set with its root rule. -/
def compileCleaned (g : RuleSet) (start : Symbol) : Except GrammarError Compiled × List Notice :=
  match number g with
  | (.error e, notices) => (.error e, notices)
  | (.ok rules, notices) =>
    match Alphabet.ofRules? rules with
    | .error e => (.error e, notices)
    | .ok alphabet =>
      let (result, later) := tabulate start rules alphabet
      (result, notices ++ later)

/-- Compiles a rule set with the given start symbol, and reports on the way. -/
def compile (g : RuleSet) (start : Symbol) : Except GrammarError Compiled × List Notice :=
  match clean g start with
  | (.error e, notices) => (.error e, notices)
  | (.ok cleaned, notices) =>
    let (result, later) := compileCleaned (withRoot cleaned start) start
    (result, notices ++ later)

end ParseBench.Grammar
