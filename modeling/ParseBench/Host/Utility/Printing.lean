/-
  ParseBench.Host.Utility.Printing

  Printing: the escapes of a text, and arguments filled into a format.
-/

import ParseBench.Host.Fraction
import ParseBench.Host.Utility.Basic

namespace ParseBench.Utility

/-! ## Escapes -/

/-- Is the character a digit in base eight? -/
def isOctal (c : Char) : Bool :=
  '0' ≤ c && c ≤ '7'

/-- The byte that at most three octal digits stand for, and what follows them. -/
def octal (s : List Char) : Char × List Char :=
  let digits := (s.take 3).takeWhile isOctal
  (Char.ofNat (Numeral.value 8 digits % 256), s.drop digits.length)

/-- The character that a letter after a backslash stands for. -/
def escaped? : Char → Option Char
  | 'a' => some '\x07'
  | 'b' => some '\x08'
  | 'e' => some '\x1b'
  | 'f' => some '\x0c'
  | 'n' => some '\n'
  | 'r' => some '\r'
  | 't' => some '\t'
  | 'v' => some '\x0b'
  | '\\' => some '\\'
  | _ => none

/-- The character that an escape stands for, and what follows it. The text begins after the
    backslash; if it is no escape, the backslash stands for itself. -/
def escape : List Char → Char × List Char
  | [] => ('\\', [])
  | c :: rest =>
    if isOctal c then octal (c :: rest)
    else
      match escaped? c with
      | some e => (e, rest)
      | none => ('\\', c :: rest)

theorem length_escape_le (s : List Char) : (escape s).2.length ≤ s.length := by
  unfold escape
  split
  · simp
  · split
    · simp [octal]
    · split <;> simp

/-- The same for text that is printed, where octal digits may have one zero more before
    them. -/
def longEscape : List Char → Char × List Char
  | '0' :: d :: rest => if isOctal d then octal (d :: rest) else escape ('0' :: d :: rest)
  | s => escape s

theorem length_longEscape_le (s : List Char) : (longEscape s).2.length ≤ s.length := by
  unfold longEscape
  split
  · split
    · simp [octal]
      omega
    · exact length_escape_le _
  · exact length_escape_le _

/-- A text with its escapes replaced, and whether an escape ends all output. -/
def unescape : List Char → List Char × Bool
  | [] => ([], false)
  | '\\' :: 'c' :: _ => ([], true)
  | '\\' :: rest =>
    let (s, stops) := unescape (longEscape rest).2
    ((longEscape rest).1 :: s, stops)
  | c :: rest =>
    let (s, stops) := unescape rest
    (c :: s, stops)
termination_by s => s.length
decreasing_by
  · have := length_longEscape_le rest
    simp
    omega
  · simp

/-- Writes its arguments with blanks between them, and with their escapes replaced. -/
def echo : Utility := fun args => do
  let (isOpen, args) :=
    match args with
    | "-n" :: args => (true, args)
    | args => (false, args)
  let (s, stops) := unescape (Text.join " " args).toList
  Act.print (String.ofList s ++ if isOpen || stops then "" else "\n")
  return 0

/-- Is this an option of the echo that is a program? -/
def isEchoOption (s : String) : Bool :=
  match s.toList with
  | '-' :: letters => !letters.isEmpty && letters.all fun c => c == 'n' || c == 'e' || c == 'E'
  | _ => false

/-- Writes its arguments with blanks between them. Escapes are replaced if an option asks for
    it. -/
def plainEcho : Utility := fun args => do
  let options := (args.takeWhile isEchoOption).flatMap fun s => s.toList.drop 1
  let text := Text.join " " (args.dropWhile isEchoOption)
  let escapes := (options.reverse.find? (· ≠ 'n')) == some 'e'
  let (s, stops) := if escapes then unescape text.toList else (text.toList, false)
  Act.print (String.ofList s ++ if options.contains 'n' || stops then "" else "\n")
  return 0

/-! ## Formats -/

/-- How a value is laid out. -/
structure Layout where
  signs : List Char
  width : Nat
  precision : Option Nat
  deriving Repr, Inhabited

namespace Layout

/-- A text filled up with blanks. -/
def fill (l : Layout) (s : String) : String :=
  let blanks := String.ofList (List.replicate (l.width - s.length) ' ')
  if l.signs.contains '-' then s ++ blanks else blanks ++ s

/-- The layout of a text, of which the precision is the greatest length. -/
def text (l : Layout) (s : String) : String :=
  l.fill (match l.precision with
    | some n => String.ofList (s.toList.take n)
    | none => s)

/-- Digits with their sign. Zeros fill them up where that is asked for and `exact` does not
    forbid it. -/
def number (l : Layout) (sign digits : String) (exact : Bool) : String :=
  if l.signs.contains '0' && !l.signs.contains '-' && !exact then
    sign ++ String.ofList (List.replicate (l.width - sign.length - digits.length) '0') ++ digits
  else l.fill (sign ++ digits)

/-- Digits with zeros before them up to the precision. -/
def extended (l : Layout) (digits : String) : String :=
  match l.precision with
  | some 0 => if digits = "0" then "" else digits
  | some n => String.ofList (List.replicate (n - digits.length) '0') ++ digits
  | none => digits

/-- The sign of a number. -/
def sign (l : Layout) (isNegative : Bool) : String :=
  if isNegative then "-"
  else if l.signs.contains '+' then "+"
  else if l.signs.contains ' ' then " "
  else ""

/-- The layout of a whole number. -/
def decimal (l : Layout) (n : Int) : String :=
  l.number (l.sign (n < 0)) (l.extended (toString n.natAbs)) l.precision.isSome

/-- The layout of a number without sign in a base. -/
def inBase (l : Layout) (base : Nat) (lead : String) (n : Nat) : String :=
  let digits := l.extended (String.ofList (Nat.toDigits base n))
  l.number (if l.signs.contains '#' && n ≠ 0 then lead else "") digits l.precision.isSome

/-- The layout of a fraction, whose text `write` makes for a precision. -/
def fraction (l : Layout) (isNegative : Bool) (write : (precision : Nat) → String) : String :=
  l.number (l.sign isNegative) (write (l.precision.getD 6)) false

end Layout

/-- The state of filling a format: the arguments that are left, the output, and what was
    wrong. -/
structure Filling where
  args : List String
  output : String := ""
  faults : List String := []
  /-- Is all output at its end? -/
  stopped : Bool := false
  deriving Repr, Inhabited

namespace Filling

/-- The filling with a text written. -/
def write (f : Filling) (s : String) : Filling :=
  { f with output := f.output ++ s }

/-- The next argument and the filling after it. -/
def next (f : Filling) : String × Filling :=
  (f.args.headD "", { f with args := f.args.drop 1 })

/-- The filling with a fault noted, if an argument that ought to be a number is one only as
    far as `rest`. -/
def noteRest (f : Filling) (arg : String) (rest : List Char) : Filling :=
  if rest.isEmpty then f else { f with faults := f.faults ++ [arg ++ ": not completely converted"] }

/-- The filling with a fault noted, if an argument is no number. -/
def noteMissing (f : Filling) (arg : String) : Filling :=
  if arg.isEmpty then f else { f with faults := f.faults ++ [arg ++ ": expected numeric value"] }

/-- The next argument as a number. A quote stands for the character after it; what is no
    number fails, but as much of it as is one counts. -/
def nextNumber (f : Filling) : Int × Filling :=
  match f.args with
  | [] => (0, f)
  | arg :: args =>
    let f := { f with args }
    match arg.toList with
    | '"' :: rest | '\'' :: rest => ((rest.map Char.toNat).headD 0, f)
    | s =>
      match Numeral.signed? Numeral.natural? s with
      | some (n, rest) =>
        if Numeral.clamp n = n then (n, f.noteRest arg rest)
        else
          let fault := arg ++ ": Numerical result out of range"
          (Numeral.clamp n, { f with faults := f.faults ++ [fault] })
      | none => (0, f.noteMissing arg)

/-- The next argument as a fraction and its sign. As much of it as is a number counts. -/
def nextFraction (f : Filling) : Bool × Fraction × Filling :=
  let (arg, g) := f.next
  let (isNegative, s) : Bool × List Char :=
    match arg.toList.dropWhile Numeral.isBlank with
    | '-' :: rest => (true, rest)
    | '+' :: rest => (false, rest)
    | rest => (false, rest)
  match Fraction.ofText? s with
  | some (x, rest) => (isNegative, x, g.noteRest arg rest)
  | none => (false, ⟨0, 1⟩, g.noteMissing arg)

/-- A number that is said in a format, or by an argument for a star. -/
def size (f : Filling) : List Char → Option Int × List Char × Filling
  | '*' :: rest =>
    let (n, f) := f.nextNumber
    (some n, rest, f)
  | s =>
    let digits := s.takeWhile Char.isDigit
    (if digits.isEmpty then none else some (Numeral.value 10 digits),
      s.dropWhile Char.isDigit, f)

/-- Fills in the next argument as a fraction, of which `write` makes the text. -/
def writeFraction (f : Filling) (l : Layout) (write : Fraction → Nat → String) : Filling :=
  let (isNegative, x, f) := f.nextFraction
  f.write (l.fraction isNegative (write x))

/-- Fills in one value. `none` says that the letter is not known. -/
def convert? (f : Filling) (l : Layout) : Char → Option Filling
  | 's' =>
    let (s, f) := f.next
    some (f.write (l.text s))
  | 'b' =>
    let (s, f) := f.next
    let (s, stops) := unescape s.toList
    some { f.write (l.text (String.ofList s)) with stopped := stops }
  | 'c' =>
    let (s, f) := f.next
    some (f.write (l.fill (String.singleton (s.toList.headD '\x00'))))
  | 'd' | 'i' =>
    let (n, f) := f.nextNumber
    some (f.write (l.decimal n))
  | 'u' =>
    let (n, f) := f.nextNumber
    some (f.write (l.inBase 10 "" (n % 0x10000000000000000).toNat))
  | 'o' =>
    let (n, f) := f.nextNumber
    some (f.write (l.inBase 8 "0" (n % 0x10000000000000000).toNat))
  | 'x' =>
    let (n, f) := f.nextNumber
    some (f.write (l.inBase 16 "0x" (n % 0x10000000000000000).toNat))
  | 'X' =>
    let (n, f) := f.nextNumber
    some (f.write ((l.inBase 16 "0X" (n % 0x10000000000000000).toNat).map Char.toUpper))
  | 'f' | 'F' => some (f.writeFraction l Fraction.fixed)
  | 'e' => some (f.writeFraction l Fraction.scientific)
  | 'E' => some (f.writeFraction l fun x n => (x.scientific n).map Char.toUpper)
  | 'g' => some (f.writeFraction l fun x n => x.general n (l.signs.contains '#'))
  | 'G' =>
    some (f.writeFraction l fun x n => (x.general n (l.signs.contains '#')).map Char.toUpper)
  | _ => none

/-- Fills in a directive, which begins after the percent sign. Yields what follows it. -/
def directive? (f : Filling) (s : List Char) : Option (Filling × List Char) :=
  let isSign (c : Char) : Bool := "#-+ 0".toList.contains c
  let signs := s.takeWhile isSign
  let (width, s, f) := f.size (s.dropWhile isSign)
  let (precision, s, f) : Option Int × List Char × Filling :=
    match s with
    | '.' :: rest =>
      let (n, s, f) := f.size rest
      (some (n.getD 0), s, f)
    | s => (none, s, f)
  let width := width.getD 0
  -- a negative width aligns to the left
  let signs := if width < 0 then '-' :: signs else signs
  let layout : Layout := ⟨signs, width.natAbs, precision.bind fun n => if n < 0 then none else some n.toNat⟩
  match s with
  | [] => none
  | c :: rest => (f.convert? layout c).map (·, rest)

/-- Fills in a format once, at most `bound` parts of it. A directive that is not known fails,
    and what was written before it stays. -/
def once : (bound : Nat) → Filling → List Char → Filling × Bool
  | 0, f, _ => (f, true)
  | _ + 1, f, [] => (f, true)
  | bound + 1, f, '%' :: '%' :: rest => once bound (f.write "%") rest
  | bound + 1, f, '%' :: rest =>
    match f.directive? rest with
    | none => (f, false)
    | some (f, rest) => if f.stopped then (f, true) else once bound f rest
  | bound + 1, f, '\\' :: rest =>
    let (e, later) := escape rest
    once bound (f.write (String.singleton e)) later
  | bound + 1, f, c :: rest => once bound (f.write (String.singleton c)) rest

/-- Fills in a format again and again, as long as that uses up arguments. -/
def repeated (format : List Char) : (bound : Nat) → Filling → Filling × Bool
  | 0, f => (f, true)
  | bound + 1, f =>
    match once (format.length + 1) f format with
    | (g, false) => (g, false)
    | (g, true) =>
      if g.stopped || g.args.isEmpty || g.args.length = f.args.length then (g, true)
      else repeated format bound g

end Filling

/-- Writes its arguments in a format. -/
def printf : Utility := fun args => do
  match if args.head? = some "--" then args.drop 1 else args with
  | [] =>
    Act.complain "printf: usage: printf format [arg ...]"
    return 2
  | format :: args =>
    let (f, ok) := Filling.repeated format.toList (args.length + 1) { args }
    for fault in f.faults do Act.complain ("printf: " ++ fault)
    Act.print f.output
    return if !ok then 2 else if f.faults.isEmpty then 0 else 1

end ParseBench.Utility
