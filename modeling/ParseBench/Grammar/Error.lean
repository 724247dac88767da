/-
  ParseBench.Grammar.Error

  What can be wrong with a grammar, with a program or with an encoded program.
-/

import ParseBench.Grammar.Basic
import ParseBench.Text.Quoted

namespace ParseBench

open Grammar

/-- The causes of failure of the grammar compiler, the parser and the decoders. -/
inductive GrammarError where
  /-- No rules are left for the start symbol. -/
  | unknownStartSymbol (start : Symbol)
  /-- A rule mentions a non-terminal that no rule defines. -/
  | undefinedNonterminal (symbol : Symbol) (rule : Rule)
  /-- An alternative without symbols. -/
  | emptyRule (lhs : Symbol)
  /-- The same rule given twice. -/
  | duplicateRule (rule : Rule)
  /-- A terminal that takes the place of a reserved token in the order. -/
  | reservedTerminal (terminal : Symbol)
  /-- Two actions for one state and terminal: the grammar is not SLR(1). -/
  | conflict (state : Nat) (terminal : Symbol) (rule : Nat) (existing : Action)
  /-- A token that cannot come next. -/
  | parse (unexpected : String) (state : Nat) (expected : List Symbol)
  /-- A program token that stands for no terminal of the grammar. -/
  | unknownToken (token : String)
  /-- A sequence of rules that encodes no program. -/
  | invalidSequence
  /-- A grammar type name that is not known. -/
  | unknownGrammarType (name : String)
  deriving DecidableEq, Repr

/-- The wording of each cause. -/
def GrammarError.message : GrammarError → String
  | .unknownStartSymbol start => "start symbol '" ++ start ++ "' has no rules"
  | .undefinedNonterminal symbol rule =>
    "non-terminal " ++ symbol ++ " does not exist, in rule " ++ rule.text
  | .emptyRule lhs => "rule " ++ lhs ++ " -> (empty) is not allowed in an SLR grammar"
  | .duplicateRule rule => "duplicate rule " ++ rule.text
  | .reservedTerminal terminal =>
    "terminal '" ++ terminal ++ "' sorts before the reserved tokens"
  | .conflict state terminal rule existing =>
    "conflict for state " ++ toString state ++ " terminal " ++ terminal ++ ": want reduce " ++
      toString rule ++ ", have " ++ existing.text
  | .parse unexpected state expected =>
    "parse error: unexpected token " ++ unexpected ++ " in state " ++ toString state ++
      ", expected " ++ Text.quotedList expected
  | .unknownToken token => "token '" ++ token ++ "' is not a terminal of the grammar"
  | .invalidSequence => "invalid action sequence"
  | .unknownGrammarType name => "unknown grammar type '" ++ name ++ "'"

end ParseBench
