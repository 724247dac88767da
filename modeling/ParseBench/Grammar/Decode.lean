/-
  ParseBench.Grammar.Decode

  The way back from an encoded program to its terminals: from steps in the order
  of a shift-reduce parser, and from rules in the order from the root down.
-/

import ParseBench.Grammar.Parser

namespace ParseBench.Grammar.Parser

/-! ## From the root down -/

/-- Expands the leftmost non-terminal of `pending` by the next rule until none is left.
    Yields the terminals in order and the rules that were not needed. The rules are
    taken as they come: their left-hand sides are not compared. -/
def expand (p : Parser) : List Nat → List Symbol → Option (List Symbol × List Nat)
  | [], pending => if pending.any isNonterminal then none else some (pending, [])
  | rule :: rest, pending =>
    match pending.dropWhile (fun s => !isNonterminal s) with
    -- every non-terminal has its rule: the tree is complete
    | [] => some (pending, rule :: rest)
    | _ :: after => do
      let r ← p.rules[rule]?
      let (terminals, unread) ← expand p rest (r.rhs ++ after)
      some (pending.takeWhile (fun s => !isNonterminal s) ++ terminals, unread)

/-- The terminals of a rule sequence from the root down. What follows the rules of the
    tree is not looked at. -/
def terminalsDown (p : Parser) (rules : List Nat) : Except GrammarError (List Symbol) :=
  match p.expand rules [rootSymbol] with
  | some (terminals, _) => .ok terminals
  | none => .error .invalidSequence

/-! ## From the leaves up -/

/-- A terminal of a rebuilt program, with its text if a token for it was given. -/
structure Leaf where
  terminal : Nat
  text : Option String
  deriving DecidableEq, Repr, Inhabited

/-- Takes the last given token of a terminal out of the tokens held, the last one
    first. -/
def takeToken (terminal : Nat) : List Token → Leaf × List Token
  | [] => (⟨terminal, none⟩, [])
  | token :: held =>
    if token.terminal = terminal then (⟨terminal, some token.text⟩, held)
    else
      let (leaf, held) := takeToken terminal held
      (leaf, token :: held)

/-- The state of a rebuilding: the tokens given and not yet placed, the last one first;
    the programs not yet under a node, the last one first and each back to front; and
    the left-hand side of the last rule. -/
structure Rebuild where
  held : List Token
  forest : List (List Leaf)
  top : Option Symbol
  deriving Repr

/-- Collects the leaves under a right-hand side, which is read from its end. -/
def collect (p : Parser) :
    List Symbol → List Token → List (List Leaf) → Option (List Leaf × List Token × List (List Leaf))
  | [], held, forest => some ([], held, forest)
  | s :: rest, held, forest =>
    if isNonterminal s then
      match forest with
      | [] => none
      | tree :: forest => do
        let (leaves, held, forest) ← collect p rest held forest
        some (tree ++ leaves, held, forest)
    else do
      let id ← p.symbolId? s
      let (leaf, held) := takeToken id held
      let (leaves, held, forest) ← collect p rest held forest
      some (leaf :: leaves, held, forest)

/-- One step of a rebuilding. A rule that renames one non-terminal to another moves
    nothing. -/
def rebuildStep (p : Parser) (state : Rebuild) : Step → Option Rebuild
  | .shift token => some { state with held := token :: state.held }
  | .reduce rule => do
    let r ← p.rules[rule]?
    if r.rhs.length = 1 && r.rhs.all isNonterminal then
      -- the tree under the old name becomes the tree under the new one
      some { state with top := some r.lhs }
    else
      let (leaves, held, forest) ← p.collect r.rhs.reverse state.held state.forest
      some ⟨held, leaves :: forest, some r.lhs⟩

/-- The terminals of a step sequence in order, each with the text of the token that was
    given for it. Steps that do not end in one tree under the start symbol rebuild
    nothing. -/
def rebuild (p : Parser) (steps : List Step) : Except GrammarError (List Leaf) :=
  match steps.foldlM p.rebuildStep ⟨[], [], none⟩ with
  | some ⟨_, [leaves], some top⟩ =>
    if top = p.start then .ok leaves.reverse else .error .invalidSequence
  | _ => .error .invalidSequence

end ParseBench.Grammar.Parser
