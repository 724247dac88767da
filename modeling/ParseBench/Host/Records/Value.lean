/-
  ParseBench.Host.Records.Value

  The values of programs that go through records: numbers and texts, which stand for
  each other. A text that was read may look like a number, and is compared as one
  then.
-/

import ParseBench.Host.Utility.Printing

namespace ParseBench.Records

open Utility (Layout)

/-- A value. -/
inductive Value where
  /-- Nothing was assigned. -/
  | unset
  | number (x : Float)
  | text (s : String)
  /-- A text that was read and that looks like a number. -/
  | numeral (s : String) (x : Float)
  deriving Repr, Inhabited

/-! ## Numbers in texts -/

/-- A word that stands for a number that is not finite, and what follows it. -/
def infiniteAt? (s : List Char) : Option (Float × List Char) :=
  let word := String.ofList ((s.take 3).map Char.toLower)
  if word = "nan" then some (0.0 / 0.0, s.drop 3)
  else if word = "inf" then
    some (1.0 / 0.0, if String.ofList ((s.take 8).map Char.toLower) = "infinity" then s.drop 8 else s.drop 3)
  else none

/-- The number without sign at the beginning of a text, and what follows it. -/
def unsignedAt? (s : List Char) : Option (Float × List Char) :=
  match s with
  | '0' :: x :: rest =>
    match if x = 'x' || x = 'X' then Numeral.inBase? 16 rest else none with
    | some (n, later) => some (Float.ofNat n, later)
    | none => decimalAt? s
  | s => (infiniteAt? s).or (decimalAt? s)
where
  /-- A decimal number with a point and an exponent. -/
  decimalAt? (s : List Char) : Option (Float × List Char) :=
    let whole := s.takeWhile Char.isDigit
    let rest := s.drop whole.length
    let (part, rest) : List Char × List Char :=
      match rest with
      | '.' :: later =>
        let digits := later.takeWhile Char.isDigit
        if whole.isEmpty && digits.isEmpty then ([], rest) else (digits, later.drop digits.length)
      | _ => ([], rest)
    if whole.isEmpty && part.isEmpty then none
    else
      let (power, rest) := Fraction.exponent rest
      some (Fraction.nearest (Numeral.value 10 (whole ++ part)) (power - part.length), rest)

/-- The number at the beginning of a text, and what follows it. -/
def numberAt? (s : List Char) : Option (Float × List Char) :=
  match s.dropWhile Numeral.isBlank with
  | '-' :: rest => (unsignedAt? rest).map fun (x, rest) => (-x, rest)
  | '+' :: rest => unsignedAt? rest
  | rest => unsignedAt? rest

/-- The number that a text stands for. -/
def numberOfText (s : String) : Float :=
  ((numberAt? s.toList).map (·.1)).getD 0

namespace Value

/-- The value of a text that was read. -/
def ofInput (s : String) : Value :=
  match numberAt? s.toList with
  | some (x, rest) => if rest.all Numeral.isBlank then numeral s x else text s
  | none => text s

/-- The value of a whole number. -/
def ofNat (n : Nat) : Value := number (Float.ofNat n)

/-- The value of an answer. -/
def ofBool (b : Bool) : Value := number (if b then 1 else 0)

/-- The number that a value stands for. -/
def toNumber : Value → Float
  | unset => 0
  | number x => x
  | text s => numberOfText s
  | numeral _ x => x

end Value

/-! ## Texts of numbers -/

/-- The whole part of a number, if the number is finite. -/
def wholePart? (x : Float) : Option Int :=
  if x.isNaN || x.isInf then none
  else
    let f := Fraction.ofFloat x.abs
    let n : Int := (f.numerator / f.denominator : Nat)
    some (if x < 0 then -n else n)

/-- The whole part of a number as far as it has its place in a word. -/
def wordPart (x : Float) : Int :=
  match wholePart? x with
  | some n => max (-0x8000000000000000) (min n 0xffffffffffffffff)
  | none => if x.isInf && x > 0 then 0x7fffffffffffffff else -0x8000000000000000

/-- The whole number that a value counts with. -/
def Value.toInt (v : Value) : Int :=
  let n := wordPart v.toNumber
  max (-0x80000000) (min n 0x7fffffff)

/-- Is the bit of the sign set? -/
def isSigned (x : Float) : Bool :=
  x.toBits ≥ 0x8000000000000000

/-- A number in a layout that a letter says. `none` says that the letter is none for numbers. -/
def laidOut? (l : Layout) (letter : Char) (x : Float) : Option String :=
  let n := wordPart x
  let magnitude := Fraction.ofFloat x.abs
  let fraction (write : Nat → String) : String :=
    if x.isNaN || x.isInf then
      let l : Layout := { l with signs := l.signs.filter (· ≠ '0') }
      l.fill (l.sign (isSigned x) ++ if x.isNaN then "nan" else "inf")
    else l.fraction (isSigned x) write
  match letter with
  | 'd' | 'i' => some (l.decimal n)
  | 'u' => some (l.inBase 10 "" (n % 0x10000000000000000).toNat)
  | 'o' => some (l.inBase 8 "0" (n % 0x10000000000000000).toNat)
  | 'x' => some (l.inBase 16 "0x" (n % 0x10000000000000000).toNat)
  | 'X' => some ((l.inBase 16 "0X" (n % 0x10000000000000000).toNat).map Char.toUpper)
  | 'f' | 'F' => some (fraction magnitude.fixed)
  | 'e' => some (fraction magnitude.scientific)
  | 'E' => some ((fraction magnitude.scientific).map Char.toUpper)
  | 'g' => some (fraction fun n => magnitude.general n (l.signs.contains '#'))
  | 'G' => some ((fraction fun n => magnitude.general n (l.signs.contains '#')).map Char.toUpper)
  | _ => none

/-- The number that a format says, or a star takes from values. -/
def sizeAt (values : List Value) : List Char → Option Int × List Char × List Value
  | '*' :: rest => ((values.head?).map Value.toInt, rest, values.drop 1)
  | s =>
    let digits := s.takeWhile Char.isDigit
    (if digits.isEmpty then none else some (Numeral.value 10 digits), s.drop digits.length, values)

/-- The directive after a percent sign, what follows it, and the values that are left. -/
def directiveAt? (values : List Value) (s : List Char) : Option (Layout × Char × List Char × List Value) :=
  let signs := s.takeWhile fun c => "#-+ 0".toList.contains c
  let (width, s, values) := sizeAt values (s.drop signs.length)
  let (precision, s, values) : Option Int × List Char × List Value :=
    match s with
    | '.' :: rest =>
      let (n, s, values) := sizeAt values rest
      (some (n.getD 0), s, values)
    | s => (none, s, values)
  let s := s.dropWhile fun c => c = 'l' || c = 'h'
  let width := width.getD 0
  let signs := if width < 0 then '-' :: signs else signs
  match s with
  | [] => none
  | c :: rest =>
    some (⟨signs, width.natAbs, precision.bind fun n => if n < 0 then none else some n.toNat⟩, c, rest, values)

/-- Why a format cannot be filled in. -/
inductive FormatFault where
  | tooFew
  | improper
  deriving DecidableEq, Repr, Inhabited

/-- What is said of a format that a function cannot fill in. -/
def FormatFault.message (function : String) : FormatFault → String
  | .tooFew => "not enough arguments passed to " ++ function
  | .improper => "improper conversion in " ++ function

/-- Puts values in a format, at most `bound` parts of it. Where that fails, what stands before
    the fault is there all the same. -/
def filledIn (textOf : Value → String) : (bound : Nat) → List Value → List Char →
    List Char × Option FormatFault
  | 0, _, _ => ([], none)
  | _ + 1, _, [] => ([], none)
  | bound + 1, values, '%' :: '%' :: rest =>
    let (out, fault) := filledIn textOf bound values rest
    ('%' :: out, fault)
  | bound + 1, values, '%' :: rest =>
    match directiveAt? values rest with
    | none => ([], some (if values.isEmpty then .tooFew else .improper))
    | some (layout, letter, rest, values) =>
      match values with
      | [] => ([], some .tooFew)
      | v :: values =>
        let shown? :=
          match letter, v with
          | 's', v => some (layout.text (textOf v))
          | 'c', .number x | 'c', .numeral _ x =>
            some (layout.fill (String.singleton (Char.ofNat ((wordPart x) % 256).toNat)))
          -- a text has a zero behind its last character
          | 'c', v => some (layout.fill (String.singleton ((textOf v).toList.headD '\x00')))
          | letter, v => laidOut? layout letter v.toNumber
        match shown? with
        | none => ([], some .improper)
        | some shown =>
          let (out, fault) := filledIn textOf bound values rest
          (shown.toList ++ out, fault)
  | bound + 1, values, c :: rest =>
    let (out, fault) := filledIn textOf bound values rest
    (c :: out, fault)

namespace Value

/-- The text of a number: whole numbers in full, others in a format. -/
def textOfNumber (format : String) (x : Float) : String :=
  let inFull : Bool :=
    match wholePart? x with
    | some n => Float.ofInt n == x && -0x8000000000000000 ≤ n && n < 0x10000000000000000
    | none => false
  if inFull then toString ((wholePart? x).getD 0)
  else
    match directiveAt? [] (format.toList.drop 1), format.toList.head? with
    | some (layout, letter, [], _), some '%' => (laidOut? layout letter x).getD ""
    | _, _ =>
      String.ofList (filledIn (fun _ => "") (format.length + 1) [number x] format.toList).1

/-- The text that a value stands for. -/
def toText (format : String) : Value → String
  | unset => ""
  | number x => textOfNumber format x
  | text s => s
  | numeral s _ => s

/-- Does a value hold as a condition? -/
def isTrue : Value → Bool
  | unset => false
  | number x => x != 0
  | text s => !s.isEmpty
  | numeral _ x => x != 0

/-- The order of two values: numbers by their size, all else by their texts. -/
def isLess (format : String) (a b : Value) : Bool :=
  match a, b with
  | text _, _ | _, text _ => a.toText format < b.toText format
  | _, _ => a.toNumber < b.toNumber

/-- Are two values the same? -/
def isSame (format : String) (a b : Value) : Bool :=
  match a, b with
  | text _, _ | _, text _ => a.toText format == b.toText format
  | _, _ => a.toNumber == b.toNumber

end Value

end ParseBench.Records
