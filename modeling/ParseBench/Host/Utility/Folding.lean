/-
  ParseBench.Host.Utility.Folding

  Utilities that look at the columns that characters stand in: breaking long lines,
  and putting blanks in the place of tabs or the other way round.
-/

import ParseBench.Host.Utility.Intake

namespace ParseBench.Utility

/-! ## Breaking lines -/

/-- The column after a character. A tab leads to the next column that eight divides. -/
def columnAfter (inBytes : Bool) (column : Nat) (c : Char) : Nat :=
  if inBytes then column + 1
  else if c = '\t' then column + 8 - column % 8
  else if c = '\x08' then column - 1
  else if c = '\r' then 0
  else column + 1

/-- A line broken so that no part is wider than asked for, if possible behind a blank. `part` is
    what the part that is made holds, back to front. -/
def brokenLine (inBytes atBlanks : Bool) (width : Nat) : (bound : Nat) → (part : List Char) →
    (column : Nat) → List Char → List Char
  | 0, part, _, rest => part.reverse ++ rest
  | _ + 1, part, _, [] => part.reverse
  | bound + 1, part, column, c :: rest =>
    let next := columnAfter inBytes column c
    if next ≤ width || part.isEmpty then
      brokenLine inBytes atBlanks width bound (c :: part) next rest
    else
      -- what follows the last blank goes to the next part
      let word := part.takeWhile fun c => c ≠ ' ' && c ≠ '\t'
      if atBlanks && word.length < part.length then
        (part.drop word.length).reverse ++ '\n' ::
          brokenLine inBytes atBlanks width bound [] 0 (word.reverse ++ c :: rest)
      else part.reverse ++ '\n' :: brokenLine inBytes atBlanks width bound [] 0 (c :: rest)

/-- An argument that is a hyphen and a number, as the value of an option. -/
def asValue (option : String) (args : List String) : List String :=
  args.map fun arg =>
    match arg.toList with
    | '-' :: c :: rest => if c.isDigit then option ++ String.ofList (c :: rest) else arg
    | _ => arg

/-- Breaks the lines that are wider than asked for. -/
def fold : Utility := fun args =>
  withOptions "fold" ⟨"bs", "w", [("bytes", 'b'), ("spaces", 's'), ("width", 'w')], true⟩ 1 (fun o => do
    let asked := (o.value? 'w').getD "80"
    match Numeral.plain? asked with
    | none | some 0 =>
      Act.complain ("fold: invalid number of columns: '" ++ asked ++ "'" ++
        if (Numeral.plain? asked).isSome then ": Numerical result out of range" else "")
      return 1
    | some width =>
      changeLines "fold" false o.operands () fun s line =>
        (s, some (brokenLine (o.has 'b') (o.has 's') width (line.length * (line.length + 2) + 1) [] 0 line)))
    (asValue "-w" args)

/-! ## Tabs -/

/-- The columns that tabs lead to: those of a list, or the multiples of one number. -/
inductive TabStops where
  | each (width : Nat)
  /-- Those of a list, and perhaps the multiples of a number, counted from some column on. -/
  | at (columns : List Nat) (after : Option (Nat × Nat))
  deriving Repr, Inhabited

namespace TabStops

/-- Reads tab stops, or says what is wrong with them. The last one may say how it goes on. -/
def ofText (s : String) : Except String TabStops := do
  let items := ((Text.splitWhere (fun c => c == ',' || c == ' ' || c == '\t') s.toList).filter
    (!·.isEmpty))
  let isSign (c : Char) : Bool := c == '+' || c == '/'
  let (listed, last) : List (List Char) × Option (List Char) :=
    match items.getLast? with
    | some (c :: rest) => if isSign c then (items.dropLast, some (c :: rest)) else (items, none)
    | _ => (items, none)
  let number (digits : List Char) : Except String Nat :=
    match Numeral.plain? (String.ofList digits) with
    | some 0 => .error "tab size cannot be 0"
    | some n => .ok n
    | none => .error ("tab size contains invalid character(s): '" ++ String.ofList digits ++ "'")
  let numbers ← listed.mapM number
  if (numbers.zip (numbers.drop 1)).any fun (a, b) => b ≤ a then throw "tab sizes must be ascending"
  match numbers, last with
  | [], none => return .each 8
  | [n], none => return .each n
  | ns, none => return .at ns none
  | ns, some (sign :: digits) =>
    let n ← number digits
    return .at ns (some (if sign = '+' then ns.getLast?.getD 0 else 0, n))
  | ns, some [] => return .at ns none

/-- The next stop after a column. After the last one there is none. -/
def next? (t : TabStops) (column : Nat) : Option Nat :=
  match t with
  | each width => some (column + width - column % width)
  | .at columns after =>
    match columns.find? (column < ·), after with
    | some stop, _ => some stop
    | none, some (start, width) => some (column + width - (column - start) % width)
    | none, none => none

end TabStops

/-- A line with blanks in the place of its tabs, perhaps only of those at its beginning. -/
def expanded (t : TabStops) (initial : Bool) : (column : Nat) → List Char → List Char
  | _, [] => []
  | column, c :: rest =>
    if c = '\t' then
      let next := (t.next? column).getD (column + 1)
      List.replicate (next - column) ' ' ++ expanded t initial next rest
    else if c = '\x08' then c :: expanded t initial (column - 1) rest
    else if initial && c ≠ ' ' then c :: rest
    else c :: expanded t initial (column + 1) rest

/-- The blanks that have been read and not yet written. -/
structure Blanks where
  held : List Char := []
  /-- Did a blank alone end before a stop? -/
  isLone : Bool := false
  deriving Repr, Inhabited

namespace Blanks

/-- What is written of the blanks. One alone before a stop becomes a tab if others follow. -/
def written (b : Blanks) : List Char :=
  if b.isLone && 1 < b.held.length then '\t' :: b.held.drop 1 else b.held

/-- The blanks after those that lead to a stop have become a tab. -/
def settled (b : Blanks) : Blanks :=
  ⟨if b.isLone then ['\t'] else [], b.isLone⟩

end Blanks

/-- A line with tabs in the place of its blanks as far as that is possible. `after` says that the
    character before was a blank. -/
def unexpanded (t : TabStops) (all : Bool) : (column : Nat) → (after : Bool) → Blanks → List Char →
    List Char
  | _, _, b, [] => b.written
  | column, after, b, c :: rest =>
    if c = ' ' || c = '\t' then
      match t.next? column with
      | none => b.written ++ c :: rest
      | some stop =>
        if c = '\t' then
          let tab : Blanks := if b.held.isEmpty then b else { b with held := '\t' :: b.held.drop 1 }
          tab.settled.written ++ '\t' :: unexpanded t all stop true {} rest
        else if after && column + 1 = stop then
          b.settled.written ++ '\t' :: unexpanded t all stop true {} rest
        else
          unexpanded t all (column + 1) true ⟨b.held ++ [c], b.isLone || column + 1 = stop⟩ rest
    else
      let column := if c = '\x08' then column - 1 else column + 1
      if all then b.written ++ c :: unexpanded t all column false {} rest
      else b.written ++ c :: rest

/-- The tab stops that options ask for, or what is wrong with them. -/
def tabStopsOf (o : Options) : Except String TabStops :=
  match o.value? 't' with
  | none => .ok (.each 8)
  | some s => TabStops.ofText s

/-- Puts blanks in the place of tabs. -/
def expand : Utility := fun args =>
  withOptions "expand" ⟨"i", "t", [("initial", 'i'), ("tabs", 't')], true⟩ 1 (fun o => do
    match tabStopsOf o with
    | .error message =>
      Act.complain ("expand: " ++ message)
      return 1
    | .ok t =>
      changeLines "expand" false o.operands () fun s line => (s, some (expanded t (o.has 'i') 0 line)))
    (asValue "-t" args)

/-- Puts tabs in the place of blanks, at the beginnings of lines or everywhere. -/
def unexpand : Utility := fun args =>
  withOptions "unexpand" ⟨"af", "t", [("all", 'a'), ("first-only", 'f'), ("tabs", 't')], true⟩ 1 (fun o => do
    match tabStopsOf o with
    | .error message =>
      Act.complain ("unexpand: " ++ message)
      return 1
    | .ok t =>
      let all := (o.has 'a' || o.has 't') && !o.has 'f'
      changeLines "unexpand" false o.operands () fun s line => (s, some (unexpanded t all 0 true {} line)))
    (asValue "-t" args)

end ParseBench.Utility
