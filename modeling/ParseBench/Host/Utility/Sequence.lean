/-
  ParseBench.Host.Utility.Sequence

  Rows of numbers. The numbers are decimals, which are kept as whole numbers of
  their smallest places.
-/

import ParseBench.Host.Fraction
import ParseBench.Host.Utility.Printing

namespace ParseBench.Utility

/-- A decimal: a whole number over a power of ten. -/
structure DecimalFraction where
  digits : Int
  /-- The number of places after the point. -/
  places : Nat
  deriving DecidableEq, Repr, Inhabited

namespace DecimalFraction

/-- The decimal that is the whole text. -/
def ofText? (s : String) : Option DecimalFraction :=
  let (sign, s) : Int × List Char :=
    match s.toList with
    | '-' :: rest => (-1, rest)
    | '+' :: rest => (1, rest)
    | rest => (1, rest)
  let whole := s.takeWhile (· ≠ '.')
  let fraction := (s.dropWhile (· ≠ '.')).drop 1
  let digits := whole ++ fraction
  if !digits.isEmpty && digits.all Char.isDigit then
    some ⟨sign * Numeral.value 10 digits, fraction.length⟩
  else none

/-- The whole number that the decimal is of some places. Places beyond them are dropped. -/
def scaled (d : DecimalFraction) (places : Nat) : Int :=
  (d.digits * Nat.pow 10 (places - d.places)).tdiv (Nat.pow 10 (d.places - places))

/-- The text of a whole number of some places, filled with zeros up to a width. -/
def write (n : Int) (places width : Nat) : String :=
  let sign := if n < 0 then "-" else ""
  let digits := Fraction.withPoint (toString n.natAbs) places
  sign ++ String.ofList (List.replicate (width - sign.length - digits.length) '0') ++ digits

end DecimalFraction

/-- Arguments with a mark before the first one that is a negative number and so no option. -/
def beforeNegative : List String → List String
  | [] => []
  | arg :: rest =>
    match arg.toList with
    | '-' :: c :: _ => if c.isDigit || c = '.' then "--" :: arg :: rest else arg :: beforeNegative rest
    | _ => arg :: beforeNegative rest

/-- Numbers from a first one to a last one by a step. -/
def row (first step last : Int) : List Int :=
  let count := if step > 0 then (last - first) / step + 1 else (first - last) / (-step) + 1
  (List.range count.toNat).map fun (i : Nat) => first + step * (i : Int)

/-- The text of a format up to its directive, and what follows its percent sign, if it has one. -/
def upToDirective : List Char → List Char × Option (List Char)
  | '%' :: '%' :: rest => let (text, after) := upToDirective rest; ('%' :: text, after)
  | '%' :: rest => ([], some rest)
  | c :: rest => let (text, after) := upToDirective rest; (c :: text, after)
  | [] => ([], none)

/-- What is wrong with a format, in which one directive has to stand. -/
def formatFault? (format : String) : Option String :=
  match (upToDirective format.toList).2 with
  | none => some "has no % directive"
  | some directive =>
    match directive.dropWhile fun c => "#-+ 0'.".toList.contains c || c.isDigit with
    | [] => some "ends in %"
    | letter :: rest =>
      if !"aefgAEFG".toList.contains letter then some ("has unknown %" ++ String.singleton letter ++ " directive")
      else if (upToDirective rest).2.isSome then some "has too many % directives"
      else none

/-- Puts a number in a format. -/
def formatted (format : String) (number : String) : String :=
  match upToDirective format.toList with
  | (before, none) => String.ofList before
  | (before, some directive) =>
    match Filling.directive? { args := [number] } directive with
    | none => String.ofList before
    | some (f, rest) => String.ofList before ++ f.output ++ String.ofList (upToDirective rest).1

/-- Prints a row of numbers. -/
def seq : Utility := fun args =>
  let options : OptionTable :=
    { plain := "w", valued := "sf", long := [("separator", 's'), ("equal-width", 'w'), ("format", 'f')] }
  withOptions "seq" options 1 (fun o => do
    let numbers : Option (DecimalFraction × DecimalFraction × DecimalFraction) := do
      match ← o.operands.mapM DecimalFraction.ofText? with
      | [last] => some (⟨1, 0⟩, ⟨1, 0⟩, last)
      | [first, last] => some (first, ⟨1, 0⟩, last)
      | [first, step, last] => if step.digits = 0 then none else some (first, step, last)
      | _ => none
    match numbers with
    | none =>
      Act.complain "seq: invalid argument"
      return 1
    | some (first, step, last) =>
      if o.has 'w' && o.has 'f' then
        misuse "seq" "format string may not be specified when printing equal width strings"
        return 1
      -- the last number may have more places than are shown
      let shown := max first.places step.places
      let places := max shown last.places
      let text (n : Int) (width : Nat) : String := DecimalFraction.write n shown width
      let width :=
        if o.has 'w' then
          max (text (first.scaled shown) 0).length (text (last.scaled shown) 0).length
        else 0
      let items := row (first.scaled places) (step.scaled places) (last.scaled places)
      let words ←
        match o.value? 'f' with
        | none => pure (items.map fun n => text (n.tdiv (Nat.pow 10 (places - shown))) width)
        | some format =>
          if let some fault := formatFault? format then
            Act.complain ("seq: format '" ++ format ++ "' " ++ fault)
            return 1
          pure (items.map fun n => formatted format (DecimalFraction.write n places 0))
      if !words.isEmpty then Act.print (Text.join ((o.value? 's').getD "\n") words ++ "\n")
      return 0) (beforeNegative args)

end ParseBench.Utility
