/-
  ParseBench.Host.Numeral

  Whole numbers as programs read them at the beginning of a text, with a sign and
  perhaps with a base of their own.
-/

import ParseBench.Text.Split

namespace ParseBench.Numeral

/-- Is the character a blank between words or lines? -/
def isBlank (c : Char) : Bool :=
  c == ' ' || (9 ≤ c.toNat && c.toNat ≤ 13)

/-- The value of a digit in some base. -/
def digit? (base : Nat) (c : Char) : Option Nat :=
  let value :=
    if c.isDigit then c.toNat - '0'.toNat
    else if c.isLower then c.toNat - 'a'.toNat + 10
    else if c.isUpper then c.toNat - 'A'.toNat + 10
    else 36
  if value < base then some value else none

/-- The value of the digits at the beginning of a text. -/
def value (base : Nat) (s : List Char) : Nat :=
  (s.takeWhile fun c => (digit? base c).isSome).foldl
    (fun n c => n * base + (digit? base c).getD 0) 0

/-- A number in a base and what follows it, if there is a digit. -/
def inBase? (base : Nat) (s : List Char) : Option (Nat × List Char) :=
  match s with
  | c :: _ =>
    if (digit? base c).isSome then
      some (value base s, s.dropWhile fun c => (digit? base c).isSome)
    else none
  | [] => none

/-- A number without sign in the base that its beginning says: sixteen after `0x`, eight
    after `0`, else ten. -/
def natural? (s : List Char) : Option (Nat × List Char) :=
  match s with
  | '0' :: x :: rest =>
    match if x = 'x' || x = 'X' then inBase? 16 rest else none with
    | some r => some r
    | none => inBase? 8 s
  | '0' :: _ => inBase? 8 s
  | s => inBase? 10 s

/-- A number with blanks and a sign before it, read by `read`. -/
def signed? (read : List Char → Option (Nat × List Char)) (s : List Char) :
    Option (Int × List Char) :=
  match s.dropWhile isBlank with
  | '-' :: rest => (read rest).map fun r => (-(r.1 : Int), r.2)
  | '+' :: rest => (read rest).map fun r => ((r.1 : Int), r.2)
  | rest => (read rest).map fun r => ((r.1 : Int), r.2)

/-- The least and the greatest number of a word. -/
def least : Int := -0x8000000000000000

/-- The greatest number of a word. -/
def greatest : Int := 0x7fffffffffffffff

/-- The number of a word that is nearest. -/
def clamp (n : Int) : Int :=
  max least (min n greatest)

/-- The decimal number that is the whole text, apart from blanks around it. -/
def decimal? (s : String) : Option Int :=
  match signed? (inBase? 10) s.toList with
  | some (n, rest) =>
    if rest.all isBlank && least ≤ n && n ≤ greatest then some n else none
  | none => none

/-- The number without sign that is the whole text. -/
def plain? (s : String) : Option Nat :=
  if !s.isEmpty && s.all Char.isDigit then some (value 10 s.toList) else none

end ParseBench.Numeral
