/-
  ParseBench.Host.Fraction

  Fractions as programs read and print them. What is read is rounded to a floating
  point number first; everything after that is exact.
-/

import ParseBench.Decimal.Shortest
import ParseBench.Host.Numeral

namespace ParseBench

/-- A fraction that is not negative. -/
structure Fraction where
  numerator : Nat
  denominator : Nat
  deriving DecidableEq, Repr, Inhabited

namespace Fraction

/-! ## Reading -/

/-- The fraction that a floating point number is. One that is not finite counts as zero. -/
def ofFloat (x : Float) : Fraction :=
  match Decimal.magnitudeOf x.toBits.toNat with
  | .finite mantissa exponent => ⟨mantissa * Nat.pow 2 exponent.toNat, Nat.pow 2 (-exponent).toNat⟩
  | _ => ⟨0, 1⟩

/-- The exponent after the digits of a number, and what follows it. -/
def exponent (s : List Char) : Int × List Char :=
  match s with
  | e :: rest =>
    if e = 'e' || e = 'E' then
      let (sign, digits) : Int × List Char :=
        match rest with
        | '-' :: digits => (-1, digits)
        | '+' :: digits => (1, digits)
        | digits => (1, digits)
      match Numeral.inBase? 10 digits with
      | some (n, rest) => (sign * n, rest)
      | none => (0, s)
    else (0, s)
  | [] => (0, [])

/-- The floating point number that is nearest to a decimal. -/
def nearest (digits : Nat) (power : Int) : Float :=
  -- beyond these powers every number is infinite or zero
  let power := max (-5000) (min power 5000)
  Float.ofScientific digits (power < 0) power.natAbs

/-- The number at the beginning of a text without sign, and what follows it. -/
def ofText? (s : List Char) : Option (Fraction × List Char) :=
  let whole := s.takeWhile Char.isDigit
  let rest := s.dropWhile Char.isDigit
  let (part, rest) : List Char × List Char :=
    match rest with
    | '.' :: later => (later.takeWhile Char.isDigit, later.dropWhile Char.isDigit)
    | _ => ([], rest)
  if whole.isEmpty && part.isEmpty then none
  else
    let (power, rest) := exponent rest
    some (ofFloat (nearest (Numeral.value 10 (whole ++ part)) (power - part.length)), rest)

/-! ## Digits -/

/-- The nearest whole number. Ties go to the even neighbour. -/
def round (x : Fraction) : Nat :=
  let down := x.numerator / x.denominator
  let twice := 2 * (x.numerator % x.denominator)
  if x.denominator < twice || (x.denominator = twice && down % 2 = 1) then down + 1 else down

/-- The fraction times a power of ten. -/
def shifted (x : Fraction) (power : Int) : Fraction :=
  ⟨x.numerator * Nat.pow 10 power.toNat, x.denominator * Nat.pow 10 (-power).toNat⟩

/-- The greatest power of ten that is not greater than the fraction, as an exponent. Zero has
    none and counts as one. -/
def order (x : Fraction) : Int :=
  if x.numerator = 0 then 0
  else
    let guess : Int := (toString x.numerator).length - (toString x.denominator).length
    -- the lengths say it up to one
    if x.denominator * Nat.pow 10 guess.toNat ≤ x.numerator * Nat.pow 10 (-guess).toNat then guess
    else guess - 1

/-- Digits with a point before the last ones. -/
def withPoint (digits : String) (places : Nat) : String :=
  let digits := List.replicate (places + 1 - digits.length) '0' ++ digits.toList
  let whole := String.ofList (digits.take (digits.length - places))
  if places = 0 then whole else whole ++ "." ++ String.ofList (digits.drop (digits.length - places))

/-- The text with a fixed number of places. -/
def fixed (x : Fraction) (places : Nat) : String :=
  withPoint (toString (x.shifted places).round) places

/-- The digits with some number of places after the first, and the power of ten that they are
    taken times. -/
def scaled (x : Fraction) (places : Nat) : Nat × Int :=
  let power := x.order
  let digits := (x.shifted (places - power)).round
  -- rounding may make one digit more
  if digits = Nat.pow 10 (places + 1) then (digits / 10, power + 1) else (digits, power)

/-- An exponent as it is written, with two digits at least. -/
def writeExponent (power : Int) : String :=
  let digits := toString power.natAbs
  (if power < 0 then "-" else "+") ++ (if digits.length < 2 then "0" else "") ++ digits

/-- The text with an exponent. -/
def scientific (x : Fraction) (places : Nat) : String :=
  let (digits, power) := x.scaled places
  withPoint (toString digits) places ++ "e" ++ writeExponent power

/-- A text without the zeros at the end of its places. -/
def withoutZeros (s : String) : String :=
  if s.toList.contains '.' then
    let kept := Text.trimRightWhere (· == '0') s.toList
    String.ofList (if kept.getLast? = some '.' then kept.dropLast else kept)
  else s

/-- The text with some number of digits that count, with an exponent only where that is
    shorter. The zeros at its end are left out unless they are `kept`. -/
def general (x : Fraction) (count : Nat) (kept : Bool) : String :=
  let places := max count 1 - 1
  let (digits, power) := x.scaled places
  let trimmed (s : String) : String := if kept then s else withoutZeros s
  if -4 ≤ power && power ≤ places then trimmed (x.fixed (places - power).toNat)
  else trimmed (withPoint (toString digits) places) ++ "e" ++ writeExponent power

end Fraction

end ParseBench
