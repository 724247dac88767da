/-
  ParseBench.Json.Tree

  JSON text as a tree of what is written: strings that are not text because of a
  lone surrogate escape, numbers by their digits, and repeated names are all
  still there. Whoever asks for a value decides what of it has to make sense: parts
  that nobody asks for need only be well formed.

  How a text is read is left to a reader. What is made of the tree does not depend
  on it.
-/

import ParseBench.Json.Number

namespace ParseBench.Json

/-- What is written, before it is given a meaning. -/
inductive Tree where
  | null
  | bool (b : Bool)
  | number (text : NumberText)
  /-- A string, `none` if it holds a lone surrogate. -/
  | string (text : Option String)
  | array (items : List Tree)
  | object (members : List (Option String × Tree))
  deriving Inhabited

/-- A reader of JSON: the tree of a text that is one. -/
abbrev Reader := String → Option Tree

/-! ## Values -/

/-- The levels of nesting that a value may have, itself included. -/
def maxDepth : Nat := 128

mutual

/-- The value of a tree. Every string has to be text and every number has to fit; a
    value with parts needs two levels of depth, one of them for its parts. -/
def Tree.value? : Nat → Tree → Option Json
  | _, .null => some .null
  | _, .bool b => some (.bool b)
  | _, .number t => t.value?.map .number
  | _, .string s => s.map .string
  | depth, .array items =>
    if depth < 2 then none else (Tree.items? (depth - 1) items).map .array
  | depth, .object members =>
    if depth < 2 then none
    else (Tree.bindings? (depth - 1) members).map fun b => .object (fieldsOf b)

/-- The values of the items of an array. -/
def Tree.items? : Nat → List Tree → Option (List Json)
  | _, [] => some []
  | depth, t :: rest => do
    let j ← Tree.value? depth t
    let later ← Tree.items? depth rest
    return j :: later

/-- The names and values of the members of an object, as they are given. -/
def Tree.bindings? : Nat → List (Option String × Tree) → Option (List (String × Json))
  | _, [] => some []
  | depth, (name, t) :: rest => do
    let name ← name
    let j ← Tree.value? depth t
    let later ← Tree.bindings? depth rest
    return (name, j) :: later

end

/-- The value that a JSON text stands for. -/
def ofText? (json : Reader) (s : String) : Option Json := do
  let tree ← json s
  tree.value? maxDepth

/-! ## Records -/

/-- The names and members of an object, if all its names are text. -/
def named? : List (Option String × Tree) → Option (List (String × Tree))
  | [] => some []
  | (name, t) :: rest => do
    let name ← name
    let later ← named? rest
    return (name, t) :: later

/-- The fields of a record by name, before they are given a value. As with values a
    record is an object or an array; but here a field that is given twice is an error. -/
def Tree.record? (names : List String) : Tree → Option (String → Option Tree)
  | .object members => do
    let members ← named? members
    if names.all fun name => (members.filter (·.1 == name)).length ≤ 1 then
      some fun name => members.lookup name
    else none
  | .array items =>
    if items.length ≤ names.length then
      some fun name => (names.idxOf? name).bind fun i => items[i]?
    else none
  | _ => none

end ParseBench.Json
