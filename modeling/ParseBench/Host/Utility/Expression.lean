/-
  ParseBench.Host.Utility.Expression

  Expressions that are said in words: whole numbers, texts, comparisons and
  matches. Every value is a text; the ones that stand for nothing are false.
-/

import ParseBench.Host.Numeral
import ParseBench.Host.Utility.Basic
import ParseBench.Host.Utility.Regex

namespace ParseBench.Utility

/-- An expression. -/
inductive Expression where
  | literal (s : String)
  /-- The left value unless that is nothing. -/
  | either (left right : Expression)
  /-- The left value if neither is nothing. -/
  | both (left right : Expression)
  | comparison (op : String) (left right : Expression)
  | arithmetic (op : String) (left right : Expression)
  | matching (text pattern : Expression)
  | size (text : Expression)
  /-- The first place of one of some characters. -/
  | place (text set : Expression)
  | part (text first count : Expression)
  deriving Repr, Inhabited

namespace Expression

/-! ## Values -/

/-- The whole number that a value is. -/
def int? (s : String) : Option Int :=
  match s.toList with
  | '-' :: digits => (Numeral.plain? (String.ofList digits)).map fun n => -(n : Int)
  | digits => (Numeral.plain? (String.ofList digits)).map fun n => (n : Int)

/-- Is the value nothing? The zeros are, in whatever way they are written. -/
def isNothing (s : String) : Bool :=
  match s.toList with
  | [] => true
  | '-' :: digits => !digits.isEmpty && digits.all (· == '0')
  | digits => digits.all (· == '0')

/-- The value of a condition. -/
def truth (b : Bool) : String :=
  if b then "1" else "0"

/-- What a comparison of two values says. Numbers are compared as numbers. -/
def compared (op left right : String) : Bool :=
  let order : Ordering :=
    match int? left, int? right with
    | some l, some r => compare l r
    | _, _ => compare left right
  match op with
  | "<" => order == .lt
  | "<=" => order != .gt
  | "=" | "==" => order == .eq
  | "!=" => order != .eq
  | ">=" => order != .lt
  | _ => order == .gt

/-- The result of arithmetic. Only zero cannot be divided by, and a quotient goes toward
    zero. -/
def calculated? (op : String) (left right : Int) : Option Int :=
  match op with
  | "+" => some (left + right)
  | "-" => some (left - right)
  | "*" => some (left * right)
  | "/" => if right = 0 then none else some (left.tdiv right)
  | _ => if right = 0 then none else some (left.tmod right)

/-- What a pattern matches at the beginning of a text: its first group if there is one, and
    else the number of characters. -/
def matched? (text pattern : String) : Option String := do
  let r ← (Regex.ofText {} pattern).toOption
  match r.matchAt? false { after := text.toList } with
  | some p =>
    if r.groupCount > 0 then some (String.ofList ((p.groups.lookup 1).getD []))
    else some (toString p.before.length)
  | none => some (if r.groupCount > 0 then "" else "0")

/-- A part of a text by the place of its beginning, the first one being one, and its size. -/
def partOf (text first count : String) : String :=
  match int? first, int? count with
  | some first, some count =>
    if first ≤ 0 then ""
    else String.ofList ((text.toList.drop (first.toNat - 1)).take count.toNat)
  | _, _ => ""

/-- The value of an expression. What does not count is not looked at. -/
def value? : Expression → Option String
  | literal s => some s
  | either l r => do
    let left ← l.value?
    if isNothing left then
      let right ← r.value?
      some (if isNothing right then "0" else right)
    else some left
  | both l r => do
    let left ← l.value?
    if isNothing left then some "0"
    else
      let right ← r.value?
      some (if isNothing right then "0" else left)
  | comparison op l r => do
    let left ← l.value?
    let right ← r.value?
    some (truth (compared op left right))
  | arithmetic op l r => do
    let left ← l.value?
    let right ← r.value?
    (calculated? op (← int? left) (← int? right)).map toString
  | matching text pattern => do
    let text ← text.value?
    matched? text (← pattern.value?)
  | size text => do
    let text ← text.value?
    some (toString text.length)
  | place text set => do
    let text ← text.value?
    let set ← set.value?
    some (toString (((text.toList.findIdx? set.toList.contains).map (· + 1)).getD 0))
  | part text first count => do
    let text ← text.value?
    let first ← first.value?
    let count ← count.value?
    some (partOf text first count)

/-! ## Reading -/

/-- The operators from the weakest level to the strongest, with what they make. -/
def levels : List (List (String × (Expression → Expression → Expression))) := [
  [("|", either)],
  [("&", both)],
  ["<", "<=", "=", "==", "!=", ">=", ">"].map fun op => (op, comparison op),
  ["+", "-"].map fun op => (op, arithmetic op),
  ["*", "/", "%"].map fun op => (op, arithmetic op),
  [(":", matching)]]

mutual

/-- What the operators from some level on join, read at most `bound` steps deep. -/
def joined? : (bound : Nat) → (level : Nat) → List String → Option (Expression × List String)
  | 0, _, _ => none
  | bound + 1, level, words =>
    match levels[level]? with
    | none => single? bound words
    | some ops => do
      let (first, rest) ← joined? bound (level + 1) words
      continued? bound level ops first rest

/-- What goes on after an operand: operators of one level join to the left. -/
def continued? : (bound : Nat) → (level : Nat) →
    List (String × (Expression → Expression → Expression)) → Expression → List String →
    Option (Expression × List String)
  | 0, _, _, _, _ => none
  | bound + 1, level, ops, before, words =>
    match words with
    | [] => some (before, [])
    | op :: rest =>
      match ops.lookup op with
      | none => some (before, words)
      | some make => do
        let (next, rest) ← joined? bound (level + 1) rest
        continued? bound level ops (make before next) rest

/-- One operand. -/
def single? : (bound : Nat) → List String → Option (Expression × List String)
  | 0, _ => none
  | _ + 1, [] => none
  | bound + 1, word :: rest =>
    match word with
    | "+" =>
      match rest with
      | s :: rest => some (literal s, rest)
      | [] => none
    | "length" => (single? bound rest).map fun r => (size r.1, r.2)
    | "match" => do
      let (text, rest) ← single? bound rest
      let (pattern, rest) ← single? bound rest
      some (matching text pattern, rest)
    | "index" => do
      let (text, rest) ← single? bound rest
      let (set, rest) ← single? bound rest
      some (place text set, rest)
    | "substr" => do
      let (text, rest) ← single? bound rest
      let (first, rest) ← single? bound rest
      let (count, rest) ← single? bound rest
      some (part text first count, rest)
    | "(" => do
      let (e, rest) ← joined? bound 0 rest
      match rest with
      | ")" :: rest => some (e, rest)
      | _ => none
    | ")" => none
    | s => some (literal s, rest)

end

/-- The expression that the words are. -/
def ofWords? (words : List String) : Option Expression :=
  match joined? (16 * words.length + 16) 0 words with
  | some (e, []) => some e
  | _ => none

end Expression

/-- Prints the value of an expression. The status says whether it is nothing. -/
def expr : Utility := fun args => do
  let words := match args with
    | "--" :: rest => rest
    | _ => args
  match (Expression.ofWords? words).bind Expression.value? with
  | some value =>
    Act.print (value ++ "\n")
    return if Expression.isNothing value then 1 else 0
  | none =>
    Act.complain "expr: syntax error"
    return 2

end ParseBench.Utility
