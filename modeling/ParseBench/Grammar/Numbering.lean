/-
  ParseBench.Grammar.Numbering

  The rules of a grammar in the order of definition. The place of a rule in that
  order is its id.
-/

import ParseBench.Grammar.Notice

namespace ParseBench.Grammar

/-- The first rule that cannot be numbered: an empty one, or one that is among those
    before it. -/
def firstFault (seen : List Rule) : List Rule → Option GrammarError
  | [] => none
  | r :: rest =>
    if r.rhs.isEmpty then some (.emptyRule r.lhs)
    else if r ∈ seen then some (.duplicateRule r)
    else firstFault (r :: seen) rest

/-- The rules before the first that cannot be numbered. -/
def beforeFault (seen : List Rule) : List Rule → List Rule
  | [] => []
  | r :: rest =>
    if r.rhs.isEmpty || r ∈ seen then [] else r :: beforeFault (r :: seen) rest

/-- The rules of a rule set if each is not empty and given once, and what was
    reported. -/
def number (g : RuleSet) : Except GrammarError (List Rule) × List Notice :=
  let result :=
    match firstFault [] g.rules with
    | some e => .error e
    | none => .ok g.rules
  (result, (beforeFault [] g.rules).zipIdx.map fun r => .numbered r.2 r.1)

end ParseBench.Grammar
