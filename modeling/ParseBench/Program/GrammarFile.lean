/-
  ParseBench.Program.GrammarFile

  Grammar files: the start symbol, the rules in the order of the file, and the
  two ways in which program tokens are given to terminals, by list and by the
  beginning of the token.
-/

import ParseBench.Error
import ParseBench.Json.Tree
import ParseBench.Ordered

namespace ParseBench

open Grammar

/-- What a grammar file holds. The classes are in ascending order of their names. -/
structure GrammarFile where
  start : Symbol
  /-- The alternatives of each left-hand side, not yet checked. -/
  rules : List (String × Json)
  /-- The tokens that stand for a terminal. -/
  tokenClasses : List (Symbol × List String)
  /-- The beginning of the tokens that stand for a terminal. -/
  leadClasses : List (Symbol × String)
  deriving Inhabited

namespace GrammarFile

/-- The fields of a grammar file, in order. -/
def fieldNames : List String := ["start", "rules", "terminal_classes", "prefix_classes"]

/-- The depth at which the rules stand: inside the file and inside the table of rules. -/
def rulesDepth : Nat := Json.maxDepth - 2

/-- A table from names to what `read` makes of its values, in ascending order. -/
def classes? {α : Type} (read : Json → Option α) : Json.Tree → Option (List (String × α))
  | .object members => do
    let bindings ← Json.Tree.bindings? rulesDepth members
    let values ← bindings.mapM fun b => (read b.2).map fun v => (b.1, v)
    return Ordered.table values
  | _ => none

/-- The rules of a grammar file, each left-hand side at its first place with its last
    alternatives. -/
def rules? : Json.Tree → Option (List (String × Json))
  | .object members => (Json.Tree.bindings? rulesDepth members).map Json.fieldsOf
  | _ => none

/-- Reads a grammar file. The start symbol and the rules have to be there. -/
def ofText? (json : Json.Reader) (s : String) : Option GrammarFile := do
  let tree ← json s
  let record ← tree.record? fieldNames
  let start ← record "start"
  let start ← start.value? rulesDepth
  let start ← start.asString?
  let rules ← record "rules"
  let rules ← rules? rules
  let tokenClasses ←
    match record "terminal_classes" with
    | some t => classes? (Json.list? Json.asString?) t
    | none => some []
  let leadClasses ←
    match record "prefix_classes" with
    | some t => classes? Json.asString? t
    | none => some []
  return { start, rules, tokenClasses, leadClasses }

/-- The alternatives of one left-hand side. -/
def group (rule : String × Json) : Except Error RuleGroup :=
  match Json.list? (Json.list? Json.asString?) rule.2 with
  | some alternatives => .ok ⟨rule.1, alternatives⟩
  | none => .error ⟨[.decodingRules rule.1], .json⟩

/-- The rules in the order of the file. -/
def ruleSet (f : GrammarFile) : Except Error RuleSet :=
  f.rules.mapM group

end GrammarFile

end ParseBench
