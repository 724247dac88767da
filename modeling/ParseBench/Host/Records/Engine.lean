/-
  ParseBench.Host.Records.Engine

  What a program that goes through records works with: variables and tables, the
  record and its fields, and the streams that it has open.
-/

import ParseBench.Host.Records.Program
import ParseBench.Host.Utility.Intake
import ParseBench.Host.Utility.Regex

namespace ParseBench.Records

open Utility (Regex Intake)

/-! ## Tables -/

/-- A table. The order of its entries is the one in which they are found again: what was
    looked up last stands before the rest. -/
structure Table where
  entries : List (String × Value) := []
  /-- Were only numbers looked up? -/
  isNumbered : Bool := true
  deriving Repr, Inhabited

namespace Table

/-- The number that says where a text is kept. -/
def place (s : String) : Nat :=
  s.toList.foldl (fun h c => (h ^^^ c.toNat) * 16777619 % 0x100000000) 2166136261

/-- The number of places for some entries. -/
def size (count : Nat) : Nat :=
  if count ≤ 768 then 64
  else if count ≤ 1536 then 128
  else if count ≤ 3072 then 256
  else if count ≤ 6144 then 512
  else 1024

/-- The table in which numbers are kept as texts, too. -/
def withTexts (t : Table) : Table :=
  if !t.isNumbered then t
  else
    -- numbers are gone through by their own places, and what comes later stands before the rest
    let placed := t.entries.map fun e => ((e.1.toInt?.getD 0) % (size t.entries.length : Int), e)
    { entries := ((placed.mergeSort fun a b => a.1 ≤ b.1).map (·.2)).reverse, isNumbered := false }

/-- The entry of a text or a number, and the table after it was looked up. -/
def find (t : Table) (isNumber : Bool) (key : String) : Option Value × Table :=
  let t := if isNumber then t else t.withTexts
  match t.entries.lookup key with
  | none => (none, t)
  | some v =>
    if isNumber then (some v, t)
    else (some v, { t with entries := (key, v) :: t.entries.filter (·.1 ≠ key) })

/-- The table with an entry. -/
def put (t : Table) (isNumber : Bool) (key : String) (v : Value) : Table :=
  let t := (t.find isNumber key).2
  if (t.entries.lookup key).isSome then
    { t with entries := t.entries.map fun e => if e.1 = key then (key, v) else e }
  else { t with entries := (key, v) :: t.entries }

/-- The table without an entry. -/
def erase (t : Table) (isNumber : Bool) (key : String) : Table :=
  let t := if isNumber then t else t.withTexts
  { t with entries := t.entries.filter (·.1 ≠ key) }

/-- The keys in the order in which they are gone through, and the table after that. -/
def keys (t : Table) : List String × Table :=
  let t := t.withTexts
  let places := size t.entries.length
  let placed := t.entries.map fun e => (place e.1 % places, e.1)
  ((placed.mergeSort fun a b => a.1 ≤ b.1).map (·.2), t)

/-- The table of some values, from one on. -/
def ofValues (vs : List Value) : Table where
  entries := (vs.zipIdx.map fun (v, i) => (toString (i + 1), v)).reverse

end Table

/-! ## The engine -/

/-- What a name stands for. -/
inductive Binding where
  | scalar (v : Value)
  | table (number : Nat)
  /-- Nothing yet. If it becomes a table it is this one. -/
  | undecided (number : Nat)
  deriving Repr, Inhabited

/-- A stream that is written. What is written is kept for a while. -/
structure Outflow where
  stream : Nat
  /-- The parts that are kept, the last one first. -/
  kept : List String := []
  /-- The process that reads it. -/
  reader : Option Nat := none
  deriving Inhabited

/-- A stream that is read. -/
structure Inflow where
  intake : Intake
  /-- The process that writes it. -/
  writer : Option Nat := none
  deriving Inhabited

/-- What a program works with. -/
structure Engine where
  process : Process
  program : Program
  globals : List (String × Binding) := []
  /-- The variables of the function that is called. -/
  locals : List (String × Binding) := []
  tables : List (Nat × Table) := []
  numbered : Nat := 0
  /-- The record, and its fields. -/
  record : Value := .unset
  fields : Array Value := #[]
  /-- The rules that are between two records. -/
  running : List Nat := []
  /-- What goes to the standard output and is kept, the last part first. -/
  output : List String := []
  outflows : List (String × Outflow) := []
  inflows : List (String × Inflow) := []
  /-- The operand that is read, and the number of the one after it. -/
  reading : Option String := none
  nextOperand : Nat := 1
  /-- Has a file been read? -/
  hasRead : Bool := false
  expressions : List (String × Regex) := []
  seed : Float := 0
  random : Nat := 0
  status : Nat := 0
  deriving Inhabited

namespace Engine

/-- What a name stands for, if anything. -/
def binding? (e : Engine) (name : String) : Option Binding :=
  (e.locals.lookup name).or (e.globals.lookup name)

/-- A list with an entry put in place of another one. -/
def rebound (name : String) (b : Binding) (l : List (String × Binding)) : List (String × Binding) :=
  if l.any (·.1 == name) then l.map fun e => if e.1 == name then (name, b) else e
  else (name, b) :: l

/-- The engine with a name bound. -/
def bind (e : Engine) (name : String) (b : Binding) : Engine :=
  if e.locals.any (·.1 == name) then { e with locals := rebound name b e.locals }
  else { e with globals := rebound name b e.globals }

/-- The value of a global variable. -/
def global (e : Engine) (name : String) : Value :=
  match e.globals.lookup name with
  | some (.scalar v) => v
  | _ => .unset

/-- The engine with a global variable set. -/
def setGlobal (e : Engine) (name : String) (v : Value) : Engine :=
  { e with globals := rebound name (.scalar v) e.globals }

/-- The format in which numbers become texts. -/
def numberFormat (e : Engine) : String :=
  match e.global "CONVFMT" with
  | .text s => s
  | v => v.toText "%.6g"

/-- The text of a value. -/
def textOf (e : Engine) (v : Value) : String :=
  v.toText e.numberFormat

/-- The text of a global variable. -/
def globalText (e : Engine) (name : String) : String :=
  e.textOf (e.global name)

/-- The number of the table that a name stands for, which is made if there is none. -/
def tableNumber (e : Engine) (name : String) : Nat × Engine :=
  match e.binding? name with
  | some (.table n) => (n, e)
  | some (.undecided n) => (n, e.bind name (.table n))
  | _ =>
    let n := e.numbered
    (n, ({ e with numbered := n + 1 }.bind name (.table n)))

/-- The table of a number. -/
def tableOf (e : Engine) (n : Nat) : Table :=
  (e.tables.lookup n).getD {}

/-- The engine with a table put under a number. -/
def setTable (e : Engine) (n : Nat) (t : Table) : Engine :=
  { e with tables := (n, t) :: e.tables.filter (·.1 ≠ n) }

/-- The key that a value is as a subscript, and whether it is a whole number. -/
def keyOf (e : Engine) (v : Value) : Bool × String :=
  match v with
  | .number x => ((wholePart? x).any fun n => Float.ofInt n == x, e.textOf v)
  | v => (false, e.textOf v)

/-! ## Expressions to match -/

/-- An expression as it is spelled elsewhere. Letters after a backslash stand for signs that
    cannot be seen, and in brackets a backslash has the same meaning. -/
def spelled (inBrackets : Bool) : List Char → List Char
  | '\\' :: c :: rest =>
    let plain : Option Char :=
      match c with
      | 'n' => some '\n'
      | 't' => some '\t'
      | 'r' => some '\r'
      | 'f' => some '\x0c'
      | 'v' => some '\x0b'
      | 'a' => some '\x07'
      | _ => none
    match plain with
    | some d => d :: spelled inBrackets rest
    | none =>
      if inBrackets then c :: spelled inBrackets rest
      else if "^$.[]|()*+?\x7b\x7d\\".toList.contains c then '\\' :: c :: spelled false rest
      else c :: spelled false rest
  | ['\\'] => ['\\', '\\']
  | '[' :: '^' :: ']' :: rest =>
    if inBrackets then '[' :: '^' :: ']' :: spelled false rest else '[' :: '^' :: ']' :: spelled true rest
  | '[' :: ']' :: rest =>
    if inBrackets then '[' :: ']' :: spelled false rest else '[' :: ']' :: spelled true rest
  | '[' :: ':' :: rest => '[' :: ':' :: classRest inBrackets rest
  | '[' :: rest => '[' :: spelled true rest
  | ']' :: rest => ']' :: spelled false rest
  | c :: rest => c :: spelled inBrackets rest
  | [] => []
where
  /-- The rest of a class of characters, which ends in a colon and a bracket. -/
  classRest (inBrackets : Bool) : List Char → List Char
    | ':' :: ']' :: rest => ':' :: ']' :: spelled inBrackets rest
    | c :: rest => c :: classRest inBrackets rest
    | [] => []

/-- The expression of a source, if it is one, and the engine that knows it. -/
def expression? (e : Engine) (source : String) : Option (Regex × Engine) :=
  match e.expressions.lookup source with
  | some r => some (r, e)
  | none =>
    match Regex.ofText { extended := true } (String.ofList (spelled false source.toList)) with
    | .ok r => some (r, { e with expressions := (source, r) :: e.expressions })
    | .error _ => none

/-! ## Fields -/

/-- What divides the fields of a text. -/
inductive Divider where
  | blanks
  | char (c : Char)
  /-- Every character is a field. -/
  | characters
  | regex (r : Regex)
  deriving Repr, Inhabited

/-- The fields between the matches of an expression, at most `bound` of them. `field` holds the
    field so far, back to front. -/
def betweenMatches (r : Regex) : (bound : Nat) → (before : List Char) → List Char → List (List Char)
  | 0, _, s => [s]
  | bound + 1, before, s =>
    match r.find? false before s with
    | some (start, stop) =>
      if stop.passed = start.passed then
        -- a match of nothing divides nothing
        match start.after with
        | [] => [s]
        | c :: rest =>
          let passed := s.take (s.length - start.after.length) ++ [c]
          match betweenMatches r bound (c :: start.before) rest with
          | first :: more => (passed ++ first) :: more
          | [] => [passed]
      else
        s.take (s.length - start.after.length) :: betweenMatches r bound stop.before stop.after
    | none => [s]

/-- The fields of a text. -/
def Divider.fields (d : Divider) (s : String) : List String :=
  if s.isEmpty then []
  else
    match d with
    | .blanks =>
      ((Text.splitWhere (fun c => c == ' ' || c == '\t' || c == '\n') s.toList).filter (!·.isEmpty)).map
        String.ofList
    | .char c => (Text.splitWhere (· == c) s.toList).map String.ofList
    | .characters => s.toList.map String.singleton
    | .regex r => (betweenMatches r (s.length + 1) [] s.toList).map String.ofList

/-- The divider that a text is. -/
def dividerOf? (e : Engine) (s : String) : Option (Divider × Engine) :=
  match s.toList with
  | [' '] => some (.blanks, e)
  | [] => some (.characters, e)
  | [c] => some (.char c, e)
  | _ => (e.expression? s).map fun (r, e) => (.regex r, e)

/-- The divider of the fields of records. Where empty lines divide records, the ends of lines
    divide fields as well. -/
def recordDivider? (e : Engine) : Option (Divider × Engine) :=
  let fs := e.globalText "FS"
  if (e.globalText "RS").isEmpty && fs ≠ " " && !fs.isEmpty then
    let source := if fs.length = 1 then "[" ++ fs ++ "]" else "(" ++ fs ++ ")"
    let source := if fs = "^" || fs = "\\" then "\\" ++ fs else source
    (e.expression? (source ++ "|\n")).map fun (r, e) => (.regex r, e)
  else e.dividerOf? fs

/-- The engine with another record. -/
def setRecord? (e : Engine) (s : String) : Option Engine := do
  let (d, e) ← e.recordDivider?
  let fields := (d.fields s).map Value.ofInput
  return { e with record := .ofInput s, fields := fields.toArray }.setGlobal "NF" (.ofNat fields.length)

/-- The engine with a record made of its fields. -/
def rejoined (e : Engine) : Engine :=
  let ofs := e.globalText "OFS"
  let texts := e.fields.toList.map e.textOf
  { e with record := .ofInput (Text.join ofs texts) }

/-- The engine with a number of fields. -/
def setFieldCount (e : Engine) (n : Nat) : Engine :=
  let fields := (e.fields.extract 0 n) ++ Array.replicate (n - e.fields.size) (Value.text "")
  ({ e with fields }.setGlobal "NF" (.ofNat n)).rejoined

/-- The engine with a field set, which is not the record. -/
def setField (e : Engine) (n : Nat) (v : Value) : Engine :=
  let fields := e.fields ++ Array.replicate (n - e.fields.size) (Value.text "")
  ({ e with fields := fields.set! (n - 1) v }.setGlobal "NF" (.ofNat fields.size)).rejoined

/-- The value of a field. -/
def field (e : Engine) (n : Nat) : Value :=
  if n = 0 then e.record else e.fields.getD (n - 1) .unset

/-! ## Replacing -/

/-- A replacement: a sign stands for what was matched, unless a backslash is before it. -/
def replacement (matched : List Char) : List Char → List Char
  | '\\' :: '\\' :: '&' :: rest => '\\' :: matched ++ replacement matched rest
  | '\\' :: '&' :: rest => '&' :: replacement matched rest
  | '&' :: rest => matched ++ replacement matched rest
  | c :: rest => c :: replacement matched rest
  | [] => []

/-- A text with matches replaced, and how many. A match of nothing does not follow another match
    at once. -/
def replaced (r : Regex) (text : List Char) (all : Bool) : (bound : Nat) → (after : Bool) →
    (before : List Char) → List Char → List Char × Nat
  | 0, _, _, s => (s, 0)
  | bound + 1, after, before, s =>
    match r.find? false before s with
    | none => (s, 0)
    | some (start, stop) =>
      let passed := s.take (s.length - start.after.length)
      let matched := start.after.take (stop.passed - start.passed)
      if matched.isEmpty && passed.isEmpty && after then
        match s with
        | [] => ([], 0)
        | c :: rest =>
          let (out, n) := replaced r text all bound false (c :: before) rest
          (c :: out, n)
      else
        let new := replacement matched text
        if !all then (passed ++ new ++ stop.after, 1)
        else if matched.isEmpty then
          match start.after with
          | [] => (passed ++ new, 1)
          | c :: rest =>
            let (out, n) := replaced r text all bound false (c :: start.before) rest
            (passed ++ new ++ c :: out, n + 1)
        else
          let (out, n) := replaced r text all bound true stop.before stop.after
          (passed ++ new ++ out, n + 1)

end Engine

end ParseBench.Records
