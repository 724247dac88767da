/-
  ParseBench.Decimal.Shortest

  The text of a floating point number: the fewest digits that read back as the
  same number. A number is taken apart into m · 2 ^ q, and everything else is
  exact arithmetic on natural numbers.
-/

namespace ParseBench.Decimal

/-! ## Parts of a number -/

/-- A floating point number without its sign. -/
inductive Magnitude where
  | infinite
  | undefined
  /-- `mantissa * 2 ^ exponent`. -/
  | finite (mantissa : Nat) (exponent : Int)
  deriving DecidableEq, Repr

/-- The smallest exponent of a finite number. -/
def minExponent : Int := -1074

/-- Is the sign of the number with these 64 bits set? -/
def signOf (bits : Nat) : Bool :=
  bits / Nat.pow 2 63 % 2 == 1

/-- The magnitude of the number with these 64 bits. -/
def magnitudeOf (bits : Nat) : Magnitude :=
  let exponent : Nat := bits / Nat.pow 2 52 % Nat.pow 2 11
  let fraction := bits % Nat.pow 2 52
  if exponent = Nat.pow 2 11 - 1 then (if fraction = 0 then .infinite else .undefined)
  else if exponent = 0 then .finite fraction minExponent
  else .finite (fraction + Nat.pow 2 52) (minExponent + (exponent : Int) - 1)

/-! ## Shortest digits -/

/-- A positive number and the two ends of the interval of numbers that read back as it,
    all over one denominator. -/
structure Interval where
  low : Nat
  value : Nat
  high : Nat
  denominator : Nat
  /-- Do the ends themselves read back as the number? -/
  closed : Bool
  deriving DecidableEq, Repr

/-- The interval of `mantissa * 2 ^ exponent`. The ends lie halfway to the neighbours; the
    neighbour below a power of two is half as far away. An end reads back as the neighbour
    with the even mantissa. -/
def intervalOf (mantissa : Nat) (exponent : Int) : Interval :=
  -- in quarters of the unit of the last place
  let gap := if mantissa = Nat.pow 2 52 ∧ minExponent < exponent then 1 else 2
  let scale := Nat.pow 2 (exponent - 2).toNat
  { low := (4 * mantissa - gap) * scale
    value := 4 * mantissa * scale
    high := (4 * mantissa + 2) * scale
    denominator := Nat.pow 2 (2 - exponent).toNat
    closed := mantissa % 2 == 0 }

/-- Is `digits * 10 ^ place` in the interval? -/
def Interval.contains (i : Interval) (digits : Nat) (place : Int) : Bool :=
  let point := digits * i.denominator * Nat.pow 10 place.toNat
  let low := i.low * Nat.pow 10 (-place).toNat
  let high := i.high * Nat.pow 10 (-place).toNat
  if i.closed then low ≤ point && point ≤ high else low < point && point < high

/-- The number of digits of the value before the decimal point; of a value below one tenth,
    minus the number of zeros after the point. -/
def Interval.magnitude (i : Interval) : Int :=
  -- no positive number is so small that 340 places leave nothing of it
  (Nat.toDigits 10 (i.value * Nat.pow 10 340 / i.denominator)).length - 340

/-- The multiple of `10 ^ place` in the interval that is next to the value, if there is
    one: of two the nearer, and of two equally near the upper. -/
def Interval.nearest? (i : Interval) (place : Int) : Option Nat :=
  let value := i.value * Nat.pow 10 (-place).toNat
  let unit := i.denominator * Nat.pow 10 place.toNat
  let below := value / unit
  match i.contains below place, i.contains (below + 1) place with
  | false, false => none
  | true, false => some below
  | false, true => some (below + 1)
  | true, true => if 2 * (value % unit) < unit then some below else some (below + 1)

/-- The digits, at least `count` of them, of the shortest number in the interval, and the
    place of the last one. At most `more` further counts are tried. -/
def Interval.shortest (i : Interval) : Nat → Nat → Nat × Int
  | 0, count => (i.value * Nat.pow 10 (count - i.magnitude).toNat / i.denominator, i.magnitude - count)
  | more + 1, count =>
    match i.nearest? (i.magnitude - count) with
    | some digits => (digits, i.magnitude - count)
    | none => i.shortest more (count + 1)

/-- The digits of the shortest number in the interval and the place of the decimal point,
    counted from before the first digit. Seventeen digits always suffice. -/
def Interval.digits (i : Interval) : List Char × Int :=
  let (digits, place) := i.shortest 17 1
  -- a grid may have been too fine by zeros at the end
  let all := Nat.toDigits 10 digits
  ((all.reverse.dropWhile (· == '0')).reverse, place + all.length)

/-! ## Layout -/

/-- How digits become a text. -/
structure Layout where
  /-- The least place of the decimal point that is written without an exponent. -/
  minPlace : Int
  /-- The greatest such place. -/
  maxPlace : Int
  deriving DecidableEq, Repr

/-- Numbers from one ten-thousandth to below ten to the sixteenth are written without an
    exponent, and a whole number has a zero after the point. -/
def reportLayout : Layout := ⟨-3, 16⟩

/-- The text of digits with the decimal point at `place`. -/
def Layout.write (n : Layout) (digits : List Char) (place : Int) : String :=
  if n.minPlace ≤ place ∧ place ≤ n.maxPlace then
    if place ≤ 0 then
      String.ofList ("0.".toList ++ List.replicate (-place).toNat '0' ++ digits)
    else
      let whole := digits.take place.toNat
      let fraction := digits.drop place.toNat
      String.ofList (whole ++ List.replicate (place.toNat - whole.length) '0' ++ ['.'] ++
        (if fraction.isEmpty then ['0'] else fraction))
  else
    let rest := digits.drop 1
    String.ofList (digits.take 1 ++ (if rest.isEmpty then [] else '.' :: rest)) ++ "e" ++
      toString (place - 1)

/-- The text of a magnitude. -/
def Magnitude.text : Magnitude → String
  | .infinite => "inf"
  | .undefined => "NaN"
  | .finite mantissa exponent =>
    if mantissa = 0 then "0.0"
    else
      let (digits, place) := (intervalOf mantissa exponent).digits
      reportLayout.write digits place

/-- The text of a floating point number. -/
def text (x : Float) : String :=
  let bits := x.toBits.toNat
  let magnitude := magnitudeOf bits
  if signOf bits ∧ magnitude ≠ .undefined then "-" ++ magnitude.text else magnitude.text

end ParseBench.Decimal
