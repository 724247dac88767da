/-
  ParseBench.Grammar.Parser

  A shift-reduce parser driven by tables, and its two encodings of a token
  list: the steps it takes, and its reductions in the order from the root down.
-/

import ParseBench.Grammar.Error

namespace ParseBench.Grammar

/-- A compiled grammar. The ids of rules, terminals and non-terminals are their
    places in the arrays; the symbol ids of the non-terminals come after those of
    the terminals. -/
structure Parser where
  rules : Array Rule
  terminals : Array Symbol
  nonterminals : Array Symbol
  start : Symbol
  /-- The action of each state on each terminal. -/
  actions : Array (Array Action)
  /-- The state after each state on each non-terminal. -/
  gotos : Array (Array (Option Nat))
  deriving Repr, Inhabited

namespace Parser

/-- The id of a symbol. A name that is a left-hand side has the id of a non-terminal. -/
def symbolId? (p : Parser) (s : Symbol) : Option Nat :=
  match p.nonterminals.toList.idxOf? s with
  | some i => some (p.terminals.size + i)
  | none => p.terminals.toList.idxOf? s

/-- The id of a terminal. -/
def terminalId? (p : Parser) (s : Symbol) : Option Nat :=
  (p.symbolId? s).filter (· < p.terminals.size)

/-- The action of a state on a terminal id. An id that stands for no terminal can
    never come next. -/
def action (p : Parser) (state terminal : Nat) : Action :=
  ((p.actions[state]?).bind fun row => row[terminal]?).getD .invalid

/-- The state after `state` on a left-hand side. -/
def goto? (p : Parser) (state : Nat) (lhs : Symbol) : Option Nat := do
  let column ← p.nonterminals.toList.idxOf? lhs
  let row ← p.gotos[state]?
  let next ← row[column]?
  next

/-- The terminals that can come next in a state. -/
def expected (p : Parser) (state : Nat) : List Symbol :=
  (p.terminals.toList.zipIdx.filter fun t => p.action state t.2 != .invalid).map (·.1)

/-- The name of a terminal id in messages. -/
def terminalName (p : Parser) (terminal : Nat) : String :=
  p.terminals[terminal]?.getD ("#" ++ toString terminal)

/-! ## The machine -/

/-- The states entered and not yet left, the last one first; the steps taken, the
    last one first; and the tokens not yet read. -/
structure Config where
  stack : List Nat
  taken : List Step
  input : List Token
  deriving Repr, DecidableEq

/-- What one turn of the machine leads to. -/
inductive Turn where
  | done (result : Except GrammarError (List Step))
  | more (config : Config)

/-- The next token. After the last one the end of the input is read again and again. -/
def nextToken (input : List Token) : Token :=
  input.headD ⟨endId, ""⟩

/-- One turn of the machine. -/
def turn (p : Parser) (c : Config) : Turn :=
  let state := c.stack.headD 0
  let token := nextToken c.input
  match p.action state token.terminal with
  | .invalid =>
    .done (.error (.parse (p.terminalName token.terminal) state (p.expected state)))
  | .accept => .done (.ok c.taken.reverse)
  | .shift next => .more ⟨next :: c.stack, .shift token :: c.taken, c.input.tail⟩
  | .reduce rule =>
    match p.rules[rule]? with
    | none => .done (.error .invalidSequence)
    | some r =>
      -- one state was entered for each symbol of the right-hand side
      let below := c.stack.drop r.rhs.length
      match below.head?.bind fun top => p.goto? top r.lhs with
      | none => .done (.error .invalidSequence)
      | some next => .more ⟨next :: below, .reduce rule :: c.taken, c.input⟩

/-- At most `bound` turns; `none` if they do not suffice. -/
def run (p : Parser) : Nat → Config → Option (Except GrammarError (List Step))
  | 0, _ => none
  | bound + 1, c =>
    match p.turn c with
    | .done result => some result
    | .more c => run p bound c

/-- The machine's first configuration on an input. -/
def init (tokens : List Token) : Config :=
  ⟨[0], [], tokens⟩

/-- A number of turns that suffices for an input of length `n`. There is a turn for
    each token and one for the end. A reduction that takes more than one state off the
    stack undoes a token, and between two such events no left-hand side comes up twice
    on the same state: the machine would never stop. -/
def turnBound (p : Parser) (n : Nat) : Nat :=
  (2 * n + 2) * (p.nonterminals.size + 2)

/-- The steps that accept a token list. -/
def parse (p : Parser) (tokens : List Token) : Except GrammarError (List Step) :=
  (p.run (p.turnBound tokens.length) (init tokens)).getD (.error .invalidSequence)

/-! ## From the root down -/

/-- The number of non-terminals in a right-hand side. -/
def childCount (rhs : List Symbol) : Nat :=
  (rhs.filter isNonterminal).length

/-- Turns reductions into the listing of their tree from the root down. `forest` holds
    the listings of the trees not yet under a node, the last one first. -/
def listDown (p : Parser) : List (List Nat) → List Nat → Except GrammarError (List (List Nat))
  | forest, [] => .ok forest
  | forest, rule :: rest =>
    match p.rules[rule]? with
    | none => .error .invalidSequence
    | some r =>
      let n := childCount r.rhs
      -- the trees of the children are the last ones that were finished
      if forest.length < n then .error .invalidSequence
      else listDown p ((rule :: (forest.take n).reverse.flatten) :: forest.drop n) rest

/-- The rules of a token list's tree from the root down: each node before its children,
    the children from left to right. -/
def parseDown (p : Parser) (tokens : List Token) : Except GrammarError (List Nat) := do
  let steps ← p.parse tokens
  match ← p.listDown [] (reductions steps) with
  | [] => .error .invalidSequence
  | listing :: _ => .ok listing

end Parser

end ParseBench.Grammar
