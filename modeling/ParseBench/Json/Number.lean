/-
  ParseBench.Json.Number

  The numbers of JSON text. A number without fraction and exponent that fits 64
  bits is whole. Any other is a floating point number: the digits that fit 64
  bits are rounded once, and scaling by the power of ten rounds once more.
-/

import ParseBench.Json.Value

namespace ParseBench.Json

/-- The parts of a written number. -/
structure NumberText where
  negative : Bool
  digits : List Char
  fraction : List Char
  /-- The sign of the exponent, true below zero, and its digits. -/
  exponent : Option (Bool × List Char)
  deriving Repr, DecidableEq

namespace NumberText

/-! ## Reading the parts -/

/-- The exponent at the end of a number: nothing, or a letter, a sign and digits. -/
def exponent? : List Char → Option (Option (Bool × List Char))
  | [] => some none
  | e :: rest =>
    if e = 'e' ∨ e = 'E' then
      let (negative, digits) :=
        match rest with
        | '+' :: digits => (false, digits)
        | '-' :: digits => (true, digits)
        | digits => (false, digits)
      if !digits.isEmpty && digits.all Char.isDigit then some (some (negative, digits)) else none
    else none

/-- The parts of a number. There is a digit before a point and one after it, and no
    zero before another digit. -/
def ofChars? (s : List Char) : Option NumberText :=
  let (negative, s) :=
    match s with
    | '-' :: s => (true, s)
    | s => (false, s)
  let digits := s.takeWhile Char.isDigit
  let rest := s.dropWhile Char.isDigit
  if digits.isEmpty || (digits.head? == some '0' && digits.length != 1) then none
  else
    match rest with
    | '.' :: rest =>
      let fraction := rest.takeWhile Char.isDigit
      if fraction.isEmpty then none
      else (exponent? (rest.dropWhile Char.isDigit)).map fun e => ⟨negative, digits, fraction, e⟩
    | rest => (exponent? rest).map fun e => ⟨negative, digits, [], e⟩

/-! ## The value -/

/-- The largest whole number of 64 bits. -/
def maxWord : Nat := 0xffffffffffffffff

/-- The digits of a whole part as a number, as far as it fits a word, and the number of
    digits left out. -/
def wholePart : Nat → List Char → Nat × Nat
  | n, [] => (n, 0)
  | n, d :: rest =>
    let next := n * 10 + (d.toNat - '0'.toNat)
    if next ≤ maxWord then wholePart next rest else (n, (d :: rest).length)

/-- The digits of a fraction added to a number, as far as it fits a word, and how many
    of them were added. -/
def fractionPart : Nat → List Char → Nat × Nat
  | n, [] => (n, 0)
  | n, d :: rest =>
    let next := n * 10 + (d.toNat - '0'.toNat)
    if next ≤ maxWord then
      -- a digit of the fraction moves the point by one place
      let (n, count) := fractionPart next rest
      (n, count + 1)
    else (n, 0)

/-- The digits of an exponent as a number. -/
def exponentSize (digits : List Char) : Nat :=
  digits.foldl (fun n d => n * 10 + (d.toNat - '0'.toNat)) 0

/-- The largest power of ten that a floating point number holds. -/
def maxPower : Nat := 308

/-- `10 ^ k` as a floating point number. -/
def powerOfTen (k : Nat) : Float :=
  Float.ofScientific 1 false k

/-- `x` divided by `10 ^ size`, in steps of the largest power and until nothing is left.
    There are at most `steps` full steps. -/
def scaleDown : Nat → Float → Nat → Float
  | 0, x, size => x / powerOfTen size
  | steps + 1, x, size =>
    if size ≤ maxPower then x / powerOfTen size
    else if x == 0 then x
    else scaleDown steps (x / powerOfTen maxPower) (size - maxPower)

/-- `significand * 10 ^ exponent`, unless it is too large for a floating point number. -/
def scaled? (significand : Nat) (exponent : Int) : Option Float :=
  let x := Float.ofNat significand
  if exponent < 0 then some (scaleDown (exponent.natAbs / maxPower + 1) x exponent.natAbs)
  else if exponent.natAbs ≤ maxPower then
    let y := x * powerOfTen exponent.natAbs
    if y.isInf then none else some y
  else if significand = 0 then some x
  else none

/-- The largest exponent that is looked at: a larger one leaves nothing, or is too large. -/
def maxExponent : Nat := 0x7fffffff

/-- The floating point number with the given parts. -/
def real? (t : NumberText) (significand : Nat) (shift : Int) : Option Float :=
  let size? : Option Float :=
    match t.exponent with
    | none => scaled? significand shift
    | some (below, digits) =>
      let size := exponentSize digits
      -- the point moves by the digits that were left out or that came from the fraction
      if size ≤ maxExponent then
        scaled? significand (if below then shift - size else shift + size)
      else if significand ≠ 0 ∧ !below then none
      else some 0
  size?.map fun x => if t.negative then -x else x

/-- The value of a written number, unless it is too large for a floating point number.
    The negative zero is a floating point number. -/
def value? (t : NumberText) : Option Number :=
  let (whole, left) := wholePart 0 t.digits
  let (significand, places) := fractionPart whole t.fraction
  if left = 0 && t.fraction.isEmpty && t.exponent.isNone then
    -- a whole number that left out no digit fits a word
    if !t.negative then some (.natural whole)
    else if whole = 0 || 0x8000000000000000 < whole then some (.real (-(Float.ofNat whole)))
    else some (.negative whole)
  else (t.real? significand ((left : Int) - places)).map .real

end NumberText

end ParseBench.Json
