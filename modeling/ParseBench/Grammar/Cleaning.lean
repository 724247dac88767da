/-
  ParseBench.Grammar.Cleaning

  Deletes from a rule set what cannot take part in a derivation: left-hand
  sides without alternatives together with the alternatives that mention them,
  and left-hand sides that the start symbol does not reach. The two kinds of
  deletion alternate until neither finds anything.
-/

import ParseBench.Grammar.Notice

namespace ParseBench.Grammar

/-- The number of left-hand sides and alternatives. Every deletion makes it smaller. -/
def RuleSet.weight (g : RuleSet) : Nat :=
  (g.map fun group => group.alternatives.length + 1).foldr (· + ·) 0

/-! ## Left-hand sides without alternatives -/

/-- The alternatives that mention none of the deleted left-hand sides. -/
def keptAlternatives (deleted : List Symbol) (alternatives : List (List Symbol)) :
    List (List Symbol) :=
  alternatives.filter fun rhs => !rhs.any (· ∈ deleted)

/-- A sweep over the groups in order, with the left-hand sides deleted so far. It
    marks groups without alternatives as deleted and shortens the others; what is
    marked early in a sweep already counts for the groups after it. -/
def sweep (deleted : List Symbol) : RuleSet → RuleSet × List Symbol × List Notice
  | [] => ([], deleted, [])
  | group :: rest =>
    if group.alternatives.isEmpty then
      if group.lhs ∈ deleted then
        let (rest, deleted, notices) := sweep deleted rest
        (group :: rest, deleted, notices)
      else
        let (rest, deleted, notices) := sweep (group.lhs :: deleted) rest
        (group :: rest, deleted, .emptied group.lhs :: notices)
    else
      -- a group that loses its last alternative here is marked in the next sweep
      let kept := keptAlternatives deleted group.alternatives
      let dropped := group.alternatives.length - kept.length
      let (rest, deleted, notices) := sweep deleted rest
      (⟨group.lhs, kept⟩ :: rest, deleted,
        if dropped = 0 then notices else .alternativesDropped dropped group.lhs :: notices)

/-- Sweeps until a sweep finds nothing, at most `bound` times. -/
def sweepAll : Nat → List Symbol → RuleSet → RuleSet × List Symbol × List Notice
  | 0, deleted, g => (g, deleted, [])
  | bound + 1, deleted, g =>
    let (g, deleted, notices) := sweep deleted g
    if notices.isEmpty then (g, deleted, [])
    else
      let (g, deleted, later) := sweepAll bound deleted g
      (g, deleted, notices ++ later)

/-- The rule set without left-hand sides that have no alternatives, and what was
    reported. Each sweep but the last deletes something, hence the bound. -/
def removeEmpty (g : RuleSet) : RuleSet × List Notice :=
  let (swept, deleted, notices) := sweepAll (g.weight + 1) [] g
  (swept.filter fun group => group.lhs ∉ deleted, notices)

/-! ## Unreachable left-hand sides -/

/-- The alternatives of a left-hand side. Where it is given twice the later group
    counts. -/
def alternativesOf? (g : RuleSet) (s : Symbol) : Option (List (List Symbol)) :=
  (g.reverse.find? fun group => group.lhs == s).map RuleGroup.alternatives

/-- The non-terminals of an alternative that are still to be visited, in order. An
    undefined one is an error. -/
def mentioned (g : RuleSet) (visited : List Symbol) (rule : Rule) :
    List Symbol → Except GrammarError (List Symbol)
  | [] => .ok []
  | s :: rest =>
    if !isNonterminal s || s ∈ visited then mentioned g visited rule rest
    else if (alternativesOf? g s).isNone then .error (.undefinedNonterminal s rule)
    else (mentioned g visited rule rest).map (s :: ·)

/-- The same for all alternatives of a left-hand side. -/
def mentionedBy (g : RuleSet) (visited : List Symbol) (lhs : Symbol) :
    List (List Symbol) → Except GrammarError (List Symbol)
  | [] => .ok []
  | rhs :: rest =>
    match mentioned g visited ⟨lhs, rhs⟩ rhs with
    | .error e => .error e
    | .ok found => (mentionedBy g visited lhs rest).map (found ++ ·)

/-- Depth first search with at most `bound` steps: `pending` holds the symbols to be
    visited, the next one first, and the last one mentioned is visited first. -/
def visit (g : RuleSet) : Nat → List Symbol → List Symbol → Except GrammarError (List Symbol)
  | 0, visited, _ => .ok visited
  | _ + 1, visited, [] => .ok visited
  | bound + 1, visited, s :: pending =>
    if s ∈ visited then visit g bound visited pending
    else
      match mentionedBy g (s :: visited) s ((alternativesOf? g s).getD []) with
      | .error e => .error e
      | .ok found => visit g bound (s :: visited) (found.reverse ++ pending)

/-- The left-hand sides that `start` reaches. Every symbol of the grammar is put off
    at most once for each time it occurs, hence the bound. -/
def reachable (g : RuleSet) (start : Symbol) : Except GrammarError (List Symbol) :=
  if (alternativesOf? g start).isNone then .error (.unknownStartSymbol start)
  else visit g ((g.rules.map fun r => r.rhs.length).foldr (· + ·) 0 + 2) [] [start]

/-- The rule set without what `start` does not reach, and what was reported. -/
def removeUnreachable (g : RuleSet) (start : Symbol) :
    Except GrammarError (RuleSet × List Notice) :=
  match reachable g start with
  | .error e => .error e
  | .ok visited =>
    .ok (g.filter fun group => group.lhs ∈ visited,
      (g.filter fun group => group.lhs ∉ visited).map fun group => .unreachable group.lhs)

/-! ## Both -/

/-- Cleaning passes until a pass deletes nothing, at most `bound` of them; `pass` is
    the number of the next one. -/
def cleanFrom (start : Symbol) : Nat → Nat → RuleSet → Except GrammarError RuleSet × List Notice
  | 0, _, g => (.ok g, [])
  | bound + 1, pass, g =>
    let (nonempty, emptied) := removeEmpty g
    let notices := .cleaningPass pass :: emptied
    match removeUnreachable nonempty start with
    | .error e => (.error e, notices)
    | .ok (reached, unreached) =>
      -- a pass that deletes nothing leaves what the one before it left
      if emptied.isEmpty && unreached.isEmpty then (.ok reached, notices)
      else
        let (result, later) := cleanFrom start bound (pass + 1) reached
        (result, notices ++ unreached ++ later)

/-- The rule set without what cannot take part in a derivation from `start`, and what
    was reported. Each pass but the last deletes something, hence the bound. -/
def clean (g : RuleSet) (start : Symbol) : Except GrammarError RuleSet × List Notice :=
  cleanFrom start (g.weight + 1) 1 g

end ParseBench.Grammar
