/-
  ParseBench.Host.Shell.Arithmetic

  Expressions over words of 64 bits: reading them, and their values. Variables are
  read and set while an expression is evaluated.
-/

import ParseBench.Host.Numeral
import ParseBench.Host.Shell.Command

namespace ParseBench.Shell

/-- The operators with two operands that both have values. -/
inductive Operator where
  | bitOr | bitXor | bitAnd
  | equal | different
  | less | atMost | greater | atLeast
  | shiftLeft | shiftRight
  | plus | minus
  | times | quotient | remainder
  deriving DecidableEq, Repr, Inhabited

/-- An expression. -/
inductive Expression where
  | literal (n : Int64)
  | named (name : String)
  | negated (e : Expression)
  | inverted (e : Expression)
  | notTrue (e : Expression)
  | binary (op : Operator) (left right : Expression)
  | conjunction (left right : Expression)
  | disjunction (left right : Expression)
  | conditional (condition yes no : Expression)
  /-- Sets a variable, to the value after an operator was applied if there is one. -/
  | assignment (name : String) (op : Option Operator) (e : Expression)
  deriving Repr, Inhabited

namespace Operator

/-- The value of a truth. -/
def truth (b : Bool) : Int64 :=
  if b then 1 else 0

/-- The value of an operator. Nothing can be divided by zero. -/
def result? (op : Operator) (a b : Int64) : Option Int64 :=
  match op with
  | bitOr => some (a ||| b)
  | bitXor => some (a ^^^ b)
  | bitAnd => some (a &&& b)
  | equal => some (truth (a == b))
  | different => some (truth (a != b))
  | less => some (truth (a < b))
  | atMost => some (truth (a ≤ b))
  | greater => some (truth (b < a))
  | atLeast => some (truth (b ≤ a))
  | shiftLeft => some (a <<< b)
  | shiftRight => some (a >>> b)
  | plus => some (a + b)
  | minus => some (a - b)
  | times => some (a * b)
  | quotient => if b = 0 then none else some (a / b)
  | remainder => if b = 0 then none else some (a % b)

end Operator

namespace Expression

/-! ## Values -/

variable {m : Type → Type} [Monad m]

/-- The value of an expression. `read` gives the value of a variable, `write` sets one, and
    `fail` is what a division by zero does. -/
def value (read : String → m Int64) (write : String → Int64 → m Unit) (fail : m Int64) :
    Expression → m Int64
  | literal n => return n
  | named name => read name
  | negated e => return -(← e.value read write fail)
  | inverted e => return ~~~(← e.value read write fail)
  | notTrue e => return Operator.truth ((← e.value read write fail) == 0)
  | binary op left right => do
    let a ← left.value read write fail
    let b ← right.value read write fail
    match op.result? a b with
    | some n => return n
    | none => fail
  | conjunction left right => do
    if (← left.value read write fail) == 0 then return 0
    return Operator.truth ((← right.value read write fail) != 0)
  | disjunction left right => do
    if (← left.value read write fail) != 0 then return 1
    return Operator.truth ((← right.value read write fail) != 0)
  | conditional condition yes no => do
    if (← condition.value read write fail) != 0 then yes.value read write fail
    else no.value read write fail
  | assignment name op e => do
    match op with
    | none =>
      let n ← e.value read write fail
      write name n
      return n
    | some op =>
      let b ← e.value read write fail
      let a ← read name
      match op.result? a b with
      | some n =>
        write name n
        return n
      | none => fail

/-! ## Reading -/

/-- The signs of operators with two operands, the weakest first. A sign that begins another
    one comes after it. -/
def levels : List (List (String × Operator)) := [
  [("|", .bitOr)],
  [("^", .bitXor)],
  [("&", .bitAnd)],
  [("==", .equal), ("!=", .different)],
  [("<=", .atMost), (">=", .atLeast), ("<", .less), (">", .greater)],
  [("<<", .shiftLeft), (">>", .shiftRight)],
  [("+", .plus), ("-", .minus)],
  [("*", .times), ("/", .quotient), ("%", .remainder)]]

/-- All signs. At every place the longest one counts. -/
def signs : List String :=
  ["<<=", ">>=", "||", "&&", "==", "!=", "<=", ">=", "<<", ">>", "+=", "-=", "*=", "/=", "%=",
    "&=", "^=", "|=", "=", "|", "^", "&", "<", ">", "+", "-", "*", "/", "%", "!", "~", "?", ":",
    "(", ")"]

/-- A token of an expression. -/
inductive Token where
  | number (n : Int64)
  | name (s : String)
  | sign (s : String)
  deriving DecidableEq, Repr, Inhabited

/-- The tokens of a text, at most `bound` of them. -/
def tokens? : (bound : Nat) → List Char → Option (List Token)
  | 0, _ => none
  | bound + 1, s =>
    match s.dropWhile Numeral.isBlank with
    | [] => some []
    | c :: rest =>
      let s := c :: rest
      if c.isDigit then do
        let (n, rest) ← Numeral.natural? s
        (tokens? bound rest).map (.number (Int64.ofInt (Numeral.clamp n)) :: ·)
      else if isNameStart c then
        (tokens? bound (s.dropWhile isNameChar)).map
          (.name (String.ofList (s.takeWhile isNameChar)) :: ·)
      else do
        let sign ← signs.find? fun sign => Text.startsWith (String.ofList s) sign
        (tokens? bound (s.drop sign.length)).map (.sign sign :: ·)

/-- The operator of an assignment, if the sign is that of one. -/
def assigning? (sign : String) : Option (Option Operator) :=
  if sign = "=" then some none
  else
    match levels.flatten.find? fun l => l.1 ++ "=" == sign with
    | some (_, op) =>
      match op with
      -- comparisons have no assignments, though a sign may look like one
      | .less | .greater | .equal | .different | .atMost | .atLeast => none
      | op => some (some op)
    | none => none

mutual

/-- Reads an assignment or what is stronger, at most `bound` levels deep, and what follows. -/
def assignment? : (bound : Nat) → List Token → Option (Expression × List Token)
  | 0, _ => none
  | bound + 1, ts =>
    match ts with
    | .name name :: .sign sign :: rest =>
      match assigning? sign with
      | some op => (assignment? bound rest).map fun r => (.assignment name op r.1, r.2)
      | none => conditional? bound ts
    | ts => conditional? bound ts

/-- Reads a choice between two expressions. -/
def conditional? : (bound : Nat) → List Token → Option (Expression × List Token)
  | 0, _ => none
  | bound + 1, ts => do
    let (c, rest) ← disjunction? bound ts
    match rest with
    | .sign "?" :: rest =>
      let (yes, rest) ← assignment? bound rest
      match rest with
      | .sign ":" :: rest => (conditional? bound rest).map fun r => (.conditional c yes r.1, r.2)
      | _ => none
    | rest => some (c, rest)

/-- Reads alternatives. -/
def disjunction? : (bound : Nat) → List Token → Option (Expression × List Token)
  | 0, _ => none
  | bound + 1, ts => do
    let (e, rest) ← conjunction? bound ts
    match rest with
    | .sign "||" :: rest => (disjunction? bound rest).map fun r => (.disjunction e r.1, r.2)
    | rest => some (e, rest)

/-- Reads conditions that have to hold together. -/
def conjunction? : (bound : Nat) → List Token → Option (Expression × List Token)
  | 0, _ => none
  | bound + 1, ts => do
    let (e, rest) ← binary? bound levels ts
    match rest with
    | .sign "&&" :: rest => (conjunction? bound rest).map fun r => (.conjunction e r.1, r.2)
    | rest => some (e, rest)

/-- Reads operators of some levels and what is stronger. -/
def binary? : (bound : Nat) → List (List (String × Operator)) → List Token →
    Option (Expression × List Token)
  | 0, _, _ => none
  | bound + 1, [], ts => unary? bound ts
  | bound + 1, level :: stronger, ts => do
    let (e, rest) ← binary? bound stronger ts
    moreBinary? bound level stronger e rest

/-- Reads what may follow the left operand of a level. -/
def moreBinary? : (bound : Nat) → List (String × Operator) → List (List (String × Operator)) →
    Expression → List Token → Option (Expression × List Token)
  | 0, _, _, _, _ => none
  | bound + 1, level, stronger, left, ts =>
    match ts with
    | .sign sign :: rest =>
      match level.lookup sign with
      | some op => do
        let (right, rest) ← binary? bound stronger rest
        moreBinary? bound level stronger (.binary op left right) rest
      | none => some (left, ts)
    | ts => some (left, ts)

/-- Reads a sign before an operand, or an operand. -/
def unary? : (bound : Nat) → List Token → Option (Expression × List Token)
  | 0, _ => none
  | bound + 1, ts =>
    match ts with
    | .sign "-" :: rest => (unary? bound rest).map fun r => (.negated r.1, r.2)
    | .sign "+" :: rest => unary? bound rest
    | .sign "~" :: rest => (unary? bound rest).map fun r => (.inverted r.1, r.2)
    | .sign "!" :: rest => (unary? bound rest).map fun r => (.notTrue r.1, r.2)
    | .sign "(" :: rest =>
      match assignment? bound rest with
      | some (e, .sign ")" :: rest) => some (e, rest)
      | _ => none
    | .number n :: rest => some (.literal n, rest)
    | .name name :: rest => some (.named name, rest)
    | _ => none

end

/-- The expression that a text is. -/
def ofText? (s : String) : Option Expression := do
  let ts ← tokens? (s.length + 1) s.toList
  match ← assignment? (16 * ts.length + 32) ts with
  | (e, []) => some e
  | _ => none

end Expression

end ParseBench.Shell
