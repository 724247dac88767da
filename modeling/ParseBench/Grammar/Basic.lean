/-
  ParseBench.Grammar.Basic

  Symbols, rules and rule sets of a context-free grammar, and the actions of a
  shift-reduce parser. Symbols are names: those that begin with a dollar sign
  are non-terminals, all others are terminals.
-/

import ParseBench.Text.Split

namespace ParseBench.Grammar

/-! ## Symbols -/

/-- The name of a terminal or of a non-terminal. -/
abbrev Symbol := String

/-- Is the symbol a non-terminal, that is, does its name begin with a dollar sign? -/
def isNonterminal (s : Symbol) : Bool :=
  s.toList.head? == some '$'

/-- The padding token. It begins with a space, as the other two reserved tokens do,
    so that the three sort before every terminal that does not. -/
def paddingToken : Symbol := " 0PAD"

/-- The token that ends every input. -/
def endToken : Symbol := " 1EOF"

/-- The token that begins a decoder's output. -/
def startToken : Symbol := " 2START"

/-- The reserved tokens in the order of their ids 0, 1 and 2. -/
def reservedTokens : List Symbol := [paddingToken, endToken, startToken]

/-- The terminal id of the end of the input. -/
def endId : Nat := 1

/-- The left-hand side of the rule that puts the end of the input after the
    start symbol. -/
def rootSymbol : Symbol := "$ROOT"

/-! ## Rules -/

/-- One rule: its left-hand side, and what that becomes in a derivation. -/
structure Rule where
  lhs : Symbol
  rhs : List Symbol
  deriving DecidableEq, Repr, Inhabited

/-- The symbols of a right-hand side with blanks between them. -/
def rhsText (rhs : List Symbol) : String :=
  Text.join " " rhs

/-- The rule with an arrow between its sides. -/
def Rule.text (r : Rule) : String :=
  r.lhs ++ " -> " ++ rhsText r.rhs

/-- The alternatives that are given for one left-hand side. -/
structure RuleGroup where
  lhs : Symbol
  alternatives : List (List Symbol)
  deriving DecidableEq, Repr, Inhabited

/-- A grammar as it is written down: groups of rules in the order of definition. -/
abbrev RuleSet := List RuleGroup

/-- The rules of a rule set in the order of definition. -/
def RuleSet.rules (g : RuleSet) : List Rule :=
  g.flatMap fun group => group.alternatives.map fun rhs => ⟨group.lhs, rhs⟩

@[simp] theorem RuleSet.rules_nil : RuleSet.rules [] = [] := rfl

@[simp] theorem RuleSet.rules_cons (group : RuleGroup) (g : RuleSet) :
    RuleSet.rules (group :: g) =
      group.alternatives.map (fun rhs => ⟨group.lhs, rhs⟩) ++ RuleSet.rules g := by
  simp [RuleSet.rules]

theorem RuleSet.rules_append (g h : RuleSet) :
    RuleSet.rules (g ++ h) = RuleSet.rules g ++ RuleSet.rules h := by
  simp [RuleSet.rules]

/-! ## Actions -/

/-- What a shift-reduce parser does in a state on a terminal. -/
inductive Action where
  /-- The terminal cannot come next. -/
  | invalid
  /-- The input is complete. -/
  | accept
  /-- Read the terminal and go to a state. -/
  | shift (state : Nat)
  /-- Replace the right-hand side of a rule by its left-hand side. -/
  | reduce (rule : Nat)
  deriving DecidableEq, Repr, Inhabited

/-- The name of an action in messages. -/
def Action.text : Action → String
  | .invalid => "Invalid"
  | .accept => "Accept"
  | .shift state => "Shift(" ++ toString state ++ ")"
  | .reduce rule => "Reduce(" ++ toString rule ++ ")"

/-- An input token: the id of the terminal it stands for and its own text. -/
structure Token where
  terminal : Nat
  text : String
  deriving DecidableEq, Repr, Inhabited

/-- One step of a parser: a token is read or a rule is applied backwards. -/
inductive Step where
  | shift (token : Token)
  | reduce (rule : Nat)
  deriving DecidableEq, Repr, Inhabited

/-- The rules that a sequence of steps applies, in order. -/
def reductions (steps : List Step) : List Nat :=
  steps.filterMap fun
    | .shift _ => none
    | .reduce rule => some rule

end ParseBench.Grammar
