/-
  ParseBench.Json.Reading

  A reader of JSON. A text is cut into lexemes, and these are put together to a tree.
-/

import ParseBench.Json.Tree

namespace ParseBench.Json

/-! ## Strings -/

/-- A character as it is written in a string: itself, or by a 16-bit unit. -/
inductive Piece where
  | plain (c : Char)
  | unit (n : Nat)
  deriving Repr, DecidableEq

/-- The value of a hexadecimal digit. -/
def hexDigit? (c : Char) : Option Nat :=
  if '0' ≤ c ∧ c ≤ '9' then some (c.toNat - '0'.toNat)
  else if 'a' ≤ c ∧ c ≤ 'f' then some (c.toNat - 'a'.toNat + 10)
  else if 'A' ≤ c ∧ c ≤ 'F' then some (c.toNat - 'A'.toNat + 10)
  else none

/-- The 16-bit unit that four hexadecimal digits give. -/
def unit? (a b c d : Char) : Option Nat := do
  let a ← hexDigit? a
  let b ← hexDigit? b
  let c ← hexDigit? c
  let d ← hexDigit? d
  return ((a * 16 + b) * 16 + c) * 16 + d

/-- The character that a backslash and a letter stand for. -/
def escaped? : Char → Option Char
  | '"' => some '"'
  | '\\' => some '\\'
  | '/' => some '/'
  | 'b' => some '\x08'
  | 'f' => some '\x0c'
  | 'n' => some '\n'
  | 'r' => some '\r'
  | 't' => some '\t'
  | _ => none

/-- The pieces of a string after its opening quote, and what follows its closing quote. -/
def stringBody : List Char → Option (List Piece × List Char)
  | [] => none
  | '"' :: rest => some ([], rest)
  | '\\' :: 'u' :: a :: b :: c :: d :: rest => do
    let n ← unit? a b c d
    let (pieces, rest) ← stringBody rest
    return (.unit n :: pieces, rest)
  | '\\' :: e :: rest => do
    let c ← escaped? e
    let (pieces, rest) ← stringBody rest
    return (.plain c :: pieces, rest)
  | c :: rest =>
    if c.toNat < 0x20 then none
    else do
      let (pieces, rest) ← stringBody rest
      return (.plain c :: pieces, rest)

/-- The characters of the pieces: two units are one character if they are a surrogate
    pair, and a surrogate outside a pair is none. -/
def textOf? : List Piece → Option (List Char)
  | [] => some []
  | .plain c :: rest => (textOf? rest).map (c :: ·)
  | .unit n :: rest =>
    if 0xD800 ≤ n ∧ n < 0xDC00 then
      -- the first half of a pair: the second half has to be the next piece
      match rest with
      | .unit m :: rest =>
        if 0xDC00 ≤ m ∧ m < 0xE000 then
          (textOf? rest).map (Char.ofNat (0x10000 + (n - 0xD800) * 0x400 + (m - 0xDC00)) :: ·)
        else none
      | _ => none
    else if 0xDC00 ≤ n ∧ n < 0xE000 then none
    else (textOf? rest).map (Char.ofNat n :: ·)

/-! ## Lexemes -/

/-- The smallest meaningful parts of JSON text. -/
inductive Lexeme where
  | openObject
  | closeObject
  | openArray
  | closeArray
  | colon
  | comma
  /-- A value without parts. -/
  | atom (value : Tree)

/-- The characters a number is made of. -/
def isNumberChar (c : Char) : Bool :=
  c.isDigit || c == '-' || c == '+' || c == '.' || c == 'e' || c == 'E'

/-- The value of a keyword. -/
def keyword? (name : List Char) : Option Tree :=
  if name = "null".toList then some .null
  else if name = "true".toList then some (.bool true)
  else if name = "false".toList then some (.bool false)
  else none

/-- The first lexeme of a text that does not begin with a blank, and what follows it. -/
def lexeme? : List Char → Option (Lexeme × List Char)
  | [] => none
  | '\x7b' :: rest => some (.openObject, rest)
  | '\x7d' :: rest => some (.closeObject, rest)
  | '[' :: rest => some (.openArray, rest)
  | ']' :: rest => some (.closeArray, rest)
  | ':' :: rest => some (.colon, rest)
  | ',' :: rest => some (.comma, rest)
  | '"' :: rest =>
    (stringBody rest).map fun (pieces, rest) =>
      (.atom (.string ((textOf? pieces).map String.ofList)), rest)
  | c :: rest =>
    if c.isDigit || c == '-' then
      -- all that can belong to a number is taken, and has to be one
      (NumberText.ofChars? ((c :: rest).takeWhile isNumberChar)).map fun t =>
        (.atom (.number t), (c :: rest).dropWhile isNumberChar)
    else
      (keyword? ((c :: rest).takeWhile Char.isAlpha)).map fun v =>
        (.atom v, (c :: rest).dropWhile Char.isAlpha)

/-- The four blanks of JSON. -/
def isSpace (c : Char) : Bool :=
  c == ' ' || c == '\n' || c == '\r' || c == '\t'

/-- The lexemes of a text, at most `bound` of them. -/
def lexemes? : Nat → List Char → Option (List Lexeme)
  | 0, _ => some []
  | bound + 1, s =>
    match s.dropWhile isSpace with
    -- nothing but blanks is left
    | [] => some []
    | s => do
      let (first, rest) ← lexeme? s
      let later ← lexemes? bound rest
      return first :: later

/-! ## Trees -/

/-- A value that has been begun: its finished parts, the last one first. -/
inductive Frame where
  | array (items : List Tree)
  | object (members : List (Option String × Tree)) (name : Option String)

/-- What may come next. -/
inductive Expectation where
  | value
  /-- A value or the end of the array that was just opened. -/
  | firstItem
  /-- A name or the end of the object that was just opened. -/
  | firstName (members : List (Option String × Tree))
  | name (members : List (Option String × Tree))
  | colon (members : List (Option String × Tree)) (name : Option String)
  /-- A comma or the end of the innermost value, after `last`. -/
  | rest (last : Tree)

/-- Reads lexemes with the values begun so far, the innermost first. -/
def build : List Frame → Expectation → List Lexeme → Option Tree
  | [], .rest last, [] => some last
  | frames, .value, .atom v :: later => build frames (.rest v) later
  | frames, .firstItem, .atom v :: later => build frames (.rest v) later
  | frames, .value, .openArray :: later => build (.array [] :: frames) .firstItem later
  | frames, .firstItem, .openArray :: later => build (.array [] :: frames) .firstItem later
  | frames, .value, .openObject :: later => build frames (.firstName []) later
  | frames, .firstItem, .openObject :: later => build frames (.firstName []) later
  | .array _ :: frames, .firstItem, .closeArray :: later => build frames (.rest (.array [])) later
  | frames, .firstName _, .closeObject :: later => build frames (.rest (.object [])) later
  | frames, .firstName members, .atom (.string s) :: later => build frames (.colon members s) later
  | frames, .name members, .atom (.string s) :: later => build frames (.colon members s) later
  | frames, .colon members name, .colon :: later =>
    build (.object members name :: frames) .value later
  | .array items :: frames, .rest last, .comma :: later =>
    build (.array (last :: items) :: frames) .value later
  | .array items :: frames, .rest last, .closeArray :: later =>
    build frames (.rest (.array (last :: items).reverse)) later
  | .object members name :: frames, .rest last, .comma :: later =>
    build frames (.name ((name, last) :: members)) later
  | .object members name :: frames, .rest last, .closeObject :: later =>
    build frames (.rest (.object ((name, last) :: members).reverse)) later
  | _, _, _ => none

/-- The tree of a JSON text. Each lexeme has at least one character, hence the bound. -/
def Tree.ofText? : Reader := fun s => do
  let lexemes ← lexemes? (s.length + 1) s.toList
  build [] .value lexemes

end ParseBench.Json
