/-
  ParseBench.Host.Utility.Dump

  Showing the bytes of contents: line by line, each with its place, in one way or
  in several ways below each other.
-/

import ParseBench.Host.Utility.Blocks

namespace ParseBench.Utility

namespace Dump

/-- How bytes are shown. -/
inductive Manner where
  | characters
  | names
  /-- A number in some base, with or without sign. -/
  | number (base : Nat) (signed : Bool)
  deriving DecidableEq, Repr, Inhabited

/-- One way to show bytes, some of them together. -/
structure Style where
  manner : Manner
  size : Nat
  /-- Are the characters shown at the end of a line? -/
  trailed : Bool := false
  deriving DecidableEq, Repr, Inhabited

/-- The number of digits that numbers of some size need. -/
def digitCount (base size : Nat) : Nat :=
  (Nat.toDigits base (Nat.pow 256 size - 1)).length

/-- The width of what is shown of one number. -/
def Style.width (s : Style) : Nat :=
  match s.manner with
  | .characters | .names => 3
  | .number 10 true => (toString (Nat.pow 256 s.size / 2)).length + 1
  | .number base _ => digitCount base s.size

/-- The names of the first characters. -/
def controlNames : List String := [
  "nul", "soh", "stx", "etx", "eot", "enq", "ack", "bel", "bs", "ht", "nl", "vt", "ff", "cr", "so", "si",
  "dle", "dc1", "dc2", "dc3", "dc4", "nak", "syn", "etb", "can", "em", "sub", "esc", "fs", "gs", "rs",
  "us", "sp"]

/-- A text with a sign before it until it is wide enough. -/
def filled (fill : Char) (width : Nat) (s : String) : String :=
  String.ofList (List.replicate (width - s.length) fill) ++ s

/-- Digits in some base. -/
def digits (base n : Nat) : String :=
  String.ofList (Nat.toDigits base n)

/-- A byte as a character. -/
def character (b : UInt8) : String :=
  match b.toNat with
  | 0 => "\\0"
  | 7 => "\\a"
  | 8 => "\\b"
  | 9 => "\\t"
  | 10 => "\\n"
  | 11 => "\\v"
  | 12 => "\\f"
  | 13 => "\\r"
  | n => if 32 ≤ n && n < 127 then String.singleton (Char.ofNat n) else filled '0' 3 (digits 8 n)

/-- What is shown of some bytes, the first of which is the lowest. -/
def Style.shown (s : Style) (bytes : List UInt8) : String :=
  let n : Nat := bytes.foldr (fun b n => b.toNat + 256 * n) 0
  match s.manner with
  | .characters => character (bytes.headD 0)
  | .names =>
    let n := n % 128
    controlNames.getD n (if n = 127 then "del" else String.singleton (Char.ofNat n))
  | .number 10 true =>
    let bound := Nat.pow 256 s.size / 2
    toString (if n < bound then (n : Int) else (n : Int) - Nat.pow 256 s.size)
  | .number 10 false => toString n
  | .number base _ => filled '0' (digitCount base s.size) (digits base n)

/-- Bytes in groups of a size. The last one is filled up with zeros. -/
def groups (size : Nat) : (bound : Nat) → List UInt8 → List (List UInt8)
  | 0, _ => []
  | bound + 1, bytes =>
    if bytes.isEmpty then []
    else
      let group := bytes.take size
      (group ++ List.replicate (size - group.length) 0) :: groups size bound (bytes.drop size)

/-- What is shown of the bytes of a line. Styles below each other are equally wide, so what is
    left over is shared out. -/
def Style.row (s : Style) (perLine lineWidth : Nat) (bytes : List UInt8) : String :=
  let fields := perLine / s.size
  let spare := lineWidth - s.width * fields
  let columns := (groups s.size (bytes.length + 1) bytes).zipIdx
  let body := String.join (columns.map fun (group, i) =>
    let before := spare * (fields - i) / fields
    let after := spare * (fields - i - 1) / fields
    filled ' ' (before - after + s.width) (s.shown group))
  if !s.trailed then body
  else
    let missing := fields - columns.length
    let blanks := String.ofList (List.replicate (s.width * missing + spare * missing / fields) ' ')
    let seen (b : UInt8) : Char := if 32 ≤ b.toNat && b.toNat < 127 then Char.ofNat b.toNat else '.'
    body ++ blanks ++ "  >" ++ String.ofList (bytes.map seen) ++ "<"

/-- What is asked for. -/
structure Request where
  styles : List Style := []
  /-- The base and the number of digits of places, if they are shown. -/
  place : Option (Nat × Nat) := some (8, 7)
  perLine : Nat := 16
  /-- Are lines shown that are the same as the one before? -/
  all : Bool := false
  deriving Repr, Inhabited

/-- The text of a place. -/
def Request.placeText (r : Request) (n : Nat) : String :=
  match r.place with
  | none => ""
  | some (base, width) => filled '0' width (digits base n)

/-- The lines that show bytes, from a place on. `before` is what the line before showed, and
    whether it was left out. -/
def lineTexts (r : Request) (lineWidth : Nat) : (bound : Nat) → (place : Nat) →
    (before : Option (List UInt8 × Bool)) → List UInt8 → List String
  | 0, _, _, _ => []
  | bound + 1, place, before, bytes =>
    if bytes.isEmpty then [r.placeText place]
    else
      let line := bytes.take r.perLine
      let rest := bytes.drop r.perLine
      let isAgain := !r.all && line.length = r.perLine && (before.map (·.1)) = some line
      if isAgain then
        let mark := if (before.map (·.2)) = some true then [] else ["*"]
        mark ++ lineTexts r lineWidth bound (place + line.length) (some (line, true)) rest
      else
        let blanks := String.ofList (List.replicate (r.placeText 0).length ' ')
        let rows := r.styles.zipIdx.map fun (s, i) =>
          (if i = 0 then r.placeText place else blanks) ++ s.row r.perLine lineWidth line
        rows ++ lineTexts r lineWidth bound (place + line.length) (some (line, false)) rest

/-- The text that shows bytes. -/
def Request.text (r : Request) (skipped : Nat) (bytes : List UInt8) : String :=
  let block := r.styles.foldl (fun n s => Nat.lcm n s.size) 1
  let wide := r.styles.map fun s => (s.width + 1) * (block / s.size)
  let lineWidth := wide.foldl max 0 * (r.perLine / block)
  let ls := lineTexts r lineWidth (bytes.length + 2) skipped none bytes
  -- without places nothing is at the end
  let ls := if r.place.isNone then ls.dropLast else ls
  String.join (ls.map (· ++ "\n"))

/-! ## Reading options -/

/-- The styles that a text says. -/
def styles? : (bound : Nat) → List Char → Option (List Style)
  | 0, _ => none
  | _ + 1, [] => some []
  | bound + 1, c :: rest => do
    let letter? : Option (Manner × Bool) :=
      match c with
      | 'c' => some (.characters, false)
      | 'a' => some (.names, false)
      | 'd' => some (.number 10 true, true)
      | 'u' => some (.number 10 false, true)
      | 'o' => some (.number 8 false, true)
      | 'x' => some (.number 16 false, true)
      | _ => none
    let (manner, sized) ← letter?
    let count := rest.takeWhile Char.isDigit
    let (size, rest) : Nat × List Char :=
      if !sized then (1, rest)
      else if !count.isEmpty then (Numeral.value 10 count, rest.drop count.length)
      else
        match rest with
        | 'C' :: rest => (1, rest)
        | 'S' :: rest => (2, rest)
        | 'I' :: rest => (4, rest)
        | 'L' :: rest => (8, rest)
        | rest => (4, rest)
    let (trailed, rest) : Bool × List Char :=
      match rest with
      | 'z' :: rest => (true, rest)
      | rest => (false, rest)
    if !(([1, 2, 4, 8] : List Nat).contains size) then none
    else
      let later ← styles? bound rest
      some (⟨manner, size, trailed⟩ :: later)

/-- The styles of the letters that are options of their own. -/
def shortStyles : List (Char × Style) := [
  ('a', ⟨.names, 1, false⟩), ('b', ⟨.number 8 false, 1, false⟩), ('c', ⟨.characters, 1, false⟩),
  ('d', ⟨.number 10 false, 2, false⟩), ('o', ⟨.number 8 false, 2, false⟩),
  ('s', ⟨.number 10 true, 2, false⟩), ('x', ⟨.number 16 false, 2, false⟩),
  ('i', ⟨.number 10 true, 4, false⟩), ('l', ⟨.number 10 true, 8, false⟩)]

/-- A number of bytes, perhaps with a unit and in some base. -/
def size? (s : String) : Option Nat := do
  let (n, rest) ← Numeral.natural? s.toList
  match rest with
  | [] => some n
  | ['b'] => some (n * 512)
  | ['k'] | ['K'] => some (n * 1024)
  | ['m'] | ['M'] => some (n * 1024 * 1024)
  | _ => none

/-- The first bytes of all contents one after the other, and the status of reading them. -/
def firstBytes (files : List String) (count : Nat) : Act (ByteArray × Nat) := do
  (if files.isEmpty then ["-"] else files).foldlM (fun ((before : ByteArray), (status : Nat)) file => do
    if count ≤ before.size then return (before, status)
    match ← source? "od" file with
    | none => return (before, 1)
    | some id =>
      let bytes ← readBlock id (count - before.size) true Act.patience .empty
      close id
      return (before ++ bytes, status)) (.empty, 0)

/-- A width that is not said with its option. -/
def withWidth (args : List String) : List String :=
  args.map fun arg => if arg = "-w" || arg = "--width" then "-w32" else arg

end Dump

/-- Shows the bytes of files. -/
def od : Utility := fun args =>
  withOptions "od" ⟨"abcdosxilv", "tANjw", [("format", 't'), ("address-radix", 'A'), ("read-bytes", 'N'),
    ("skip-bytes", 'j'), ("width", 'w'), ("output-duplicates", 'v')], true⟩ 1
    (fun o => do
      let asked := o.flags.filterMap fun (c, value) =>
        if c = 't' then some (value, Dump.styles? (value.length + 1) value.toList)
        else (Dump.shortStyles.lookup c).map fun s => ("", some [s])
      match asked.find? (·.2.isNone) with
      | some (value, _) =>
        let wrong := value.toList.find? fun c => !"acdoux".toList.contains c && !c.isDigit
        Act.complain (match wrong with
          | some c => "od: invalid character '" ++ String.singleton c ++ "' in type string '" ++ value ++ "'"
          | none => "od: invalid type string '" ++ value ++ "'")
        return 1
      | none =>
        let styles := (asked.filterMap (·.2)).flatten
        let styles := if styles.isEmpty then [⟨.number 8 false, 2, false⟩] else styles
        let place : Option (Option (Nat × Nat)) :=
          match o.value? 'A' with
          | none | some "o" => some (some (8, 7))
          | some "d" => some (some (10, 7))
          | some "x" => some (some (16, 6))
          | some "n" => some none
          | some _ => none
        match place with
        | none =>
          Act.complain ("od: invalid output address radix '" ++ (o.value? 'A').getD "" ++
            "'; it must be one character from [doxn]")
          return 1
        | some place =>
          let block := styles.foldl (fun n s => Nat.lcm n s.size) 1
          let perLine := ((o.value? 'w').bind Dump.size?).getD 16
          let perLine := if perLine = 0 || perLine % block ≠ 0 then block else perLine
          let skipped := ((o.value? 'j').bind Dump.size?).getD 0
          let limit? := (o.value? 'N').bind Dump.size?
          let (bytes, status) ←
            match limit? with
            | some n => Dump.firstBytes o.operands (skipped + n)
            | none => (fun (text, status) => (Raw.toBytes text, status)) <$> contents "od" o.operands
          -- without anything that could be opened there is not even a place to show
          if status ≠ 0 && bytes.isEmpty then return status
          let bytes := bytes.toList
          if bytes.length < skipped then
            Act.complain "od: cannot skip past end of combined input"
            return 1
          let bytes := bytes.drop skipped
          let bytes :=
            match limit? with
            | some n => bytes.take n
            | none => bytes
          Act.print ((⟨styles, place, perLine, o.has 'v'⟩ : Dump.Request).text skipped bytes)
          return status)
    (Dump.withWidth args)

end ParseBench.Utility
