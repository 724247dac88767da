/-
  ParseBench.Host.Utility.Merging

  Utilities that go through two sorted files at the same time.
-/

import ParseBench.Host.Utility.Basic

namespace ParseBench.Utility

/-! ## Lines of both -/

/-- One of two files whose lines are gone through in order. -/
structure Side where
  number : Nat
  /-- The lines that are done, the last one first. -/
  past : List (List Char) := []
  ahead : List (List Char)
  /-- Has it been told that the lines are not in order? -/
  isTold : Bool := false
  deriving Repr, Inhabited

/-- Goes on to the next line. A line before one that belongs before it is told once, if order
    counts; at the end the last two lines are looked at again. -/
def Side.next (s : Side) (counts : Bool) : Side × Bool :=
  match s.ahead with
  | [] => (s, false)
  | line :: ahead =>
    let isFault :=
      match ahead, s.past with
      | next :: _, _ => next < line
      | [], before :: _ => line < before
      | [], [] => false
    let isNew := counts && isFault && !s.isTold
    ({ s with past := line :: s.past, ahead, isTold := s.isTold || isNew }, isNew)

/-- What happens while the lines of two files are put together. -/
inductive MergeEvent where
  /-- A line of the first file alone, of the second one alone, or of both. -/
  | line (column : Nat) (text : List Char)
  /-- A file is not in order. -/
  | fault (file : Nat)
  deriving Repr, Inhabited

/-- Puts the lines of two files together. Order counts from the first line on that has no
    partner, or always. -/
def merged (always : Bool) : (bound : Nat) → (unpaired : Bool) → Side → Side → List MergeEvent
  | 0, _, _, _ => []
  | bound + 1, unpaired, left, right =>
    let column :=
      match left.ahead, right.ahead with
      | [], [] => 0
      | [], _ :: _ => 2
      | _ :: _, [] => 1
      | a :: _, b :: _ => if a < b then 1 else if b < a then 2 else 3
    if column = 0 then []
    else
      let unpaired := unpaired || column ≠ 3
      let text := ((if column = 2 then right else left).ahead).headD []
      let counts := always || unpaired
      let (left, isLeft) := if column = 2 then (left, false) else left.next counts
      let (right, isRight) := if column = 1 then (right, false) else right.next counts
      .line column text :: (if isLeft then [.fault 1] else []) ++ (if isRight then [.fault 2] else []) ++
        merged always bound unpaired left right

/-- Writes the lines of two sorted files in three columns. -/
def comm : Utility :=
  withOptions "comm" ⟨"123z", "O", [("output-delimiter", 'O'), ("total", 'T'), ("check-order", 'C'),
    ("nocheck-order", 'N'), ("zero-terminated", 'z')], true⟩ 1 fun o => do
    match o.operands with
    | [] =>
      misuse "comm" "missing operand"
      return 1
    | [only] =>
      misuse "comm" ("missing operand after '" ++ only ++ "'")
      return 1
    | left :: right :: more =>
      if let extra :: _ := more then
        misuse "comm" ("extra operand '" ++ extra ++ "'")
        return 1
      match ← contentOf? "comm" left with
      | none => return 1
      | some a =>
        match ← contentOf? "comm" right with
        | none => return 1
        | some b =>
          let mark := if o.has 'z' then '\x00' else '\n'
          let a := pieces mark a
          let b := pieces mark b
          let divider := (o.value? 'O').getD "\t"
          let isShown (column : Nat) : Bool := !o.has (Nat.digitChar column)
          let events := merged (o.has 'C') (a.length + b.length + 1) false ⟨1, [], a, false⟩ ⟨2, [], b, false⟩
          let events := if o.has 'N' then events.filter fun | .fault _ => false | _ => true else events
          let isFault : MergeEvent → Bool
            | .fault _ => true
            | _ => false
          let done := if o.has 'C' then events.takeWhile (!isFault ·) else events
          for e in events.take (done.length + 1) do
            match e with
            | .line column line =>
              if isShown column then
                let before := ((List.range column).filter fun k => 1 ≤ k && isShown k).length
                Act.print (String.join (List.replicate before divider) ++ String.ofList line ++
                  String.singleton mark)
            | .fault file => Act.complain ("comm: file " ++ toString file ++ " is not in sorted order")
          if done.length < events.length then return 1
          if o.has 'T' then
            let count (column : Nat) : String := toString (events.countP fun
              | .line c _ => c == column
              | .fault _ => false)
            Act.print (Text.join divider [count 1, count 2, count 3, "total"] ++ String.singleton mark)
          if !events.any isFault then return 0
          Act.complain "comm: input is not in sorted order"
          return 1

/-! ## Fields of both -/

/-- A line in fields. -/
structure Joined where
  key : String
  fields : List String
  /-- The place of the line in its file, from one on. -/
  number : Nat
  text : List Char
  deriving Repr, Inhabited

/-- What divides the fields of a line. -/
inductive Divider where
  | blanks
  | char (c : Char)
  /-- Nothing does: a line is a field. -/
  | none
  deriving DecidableEq, Repr, Inhabited

/-- The fields of a line. -/
def Divider.fields (d : Divider) (line : List Char) : List String :=
  match d with
  | .blanks =>
    ((Text.splitWhere (fun c => c == ' ' || c == '\t') line).filter (!·.isEmpty)).map String.ofList
  | .char c => (Text.splitWhere (· == c) line).map String.ofList
  | .none => [String.ofList line]

/-- The text between the fields that are written. -/
def Divider.text : Divider → String
  | .blanks => " "
  | .char c => String.singleton c
  | .none => "\n"

/-- How two files are joined. -/
structure Join where
  divider : Divider := .blanks
  /-- The fields that lines are compared by. -/
  first : Nat := 1
  second : Nat := 1
  /-- The files of which lines are written that have no partner. -/
  alone : List Nat := []
  /-- Are lines written that have one? -/
  pairs : Bool := true
  /-- The fields that are written, each with the number of its file or zero for the common one. -/
  format : Option (List (Nat × Nat)) := none
  /-- The number of fields that is written of the lines of each file, if it is always the same. -/
  counts : Option (Nat × Nat) := none
  /-- What is written for a field that is not there. -/
  absent : String := ""
  anyCase : Bool := false
  /-- Does order count always, or only after a line without a partner? -/
  strict : Bool := false
  /-- Does it never count? -/
  lenient : Bool := false
  deriving Repr, Inhabited

namespace Join

/-- The lines of a text with their keys. -/
def read (j : Join) (field : Nat) (mark : Char) (text : String) : List Joined :=
  (pieces mark text).zipIdx.map fun (l, i) =>
    let fields := j.divider.fields l
    let key := fields.getD (field - 1) ""
    ⟨if j.anyCase then key.map Char.toLower else key, fields, i + 1, l⟩

/-- The line that is written for a line of each file, one of which may be missing. -/
def written (j : Join) (left right : Option Joined) : String :=
  let fieldOf (l : Option Joined) (n : Nat) : String :=
    match l.bind fun l => l.fields[n - 1]? with
    | some s => if s.isEmpty then j.absent else s
    | none => j.absent
  let key :=
    match left with
    | some _ => fieldOf left j.first
    | none => fieldOf right j.second
  let others (l : Option Joined) (field : Nat) (fixed : Option Nat) : List String :=
    let count := fixed.getD ((l.map fun l => l.fields.length).getD 0)
    ((List.range count).filter fun i => i + 1 ≠ field).map fun i => fieldOf l (i + 1)
  let fields :=
    match j.format with
    | some wanted => wanted.map fun (file, n) =>
      if file = 0 then key else fieldOf (if file = 1 then left else right) n
    | none =>
      key :: (others left j.first (j.counts.map (·.1)) ++ others right j.second (j.counts.map (·.2)))
  Text.join j.divider.text fields

/-- What happens while two files are joined. -/
inductive JoinEvent where
  | line (text : String)
  /-- A line of a file, which belongs before the line that came before it. -/
  | fault (file : Nat) (line : Joined)
  deriving Repr, Inhabited

/-- What is seen of the order of lines of one file. -/
def faults (j : Join) (counts : Bool) (file : Nat) (ls : List Joined) : List JoinEvent :=
  if (counts || j.strict) && !j.lenient then
    (ls.zip (ls.drop 1)).filterMap fun (a, b) => if b.key < a.key then some (.fault file b) else none
  else []

/-- Joins two files. `unpaired` says whether there was a line without a partner. -/
def events (j : Join) : (bound : Nat) → (unpaired : Bool) → List Joined → List Joined → List JoinEvent
  | 0, _, _, _ => []
  | _ + 1, unpaired, [], right =>
    (if j.alone.contains 2 then right.map fun r => .line (j.written none (some r)) else []) ++
      j.faults unpaired 2 right
  | _ + 1, unpaired, left, [] =>
    (if j.alone.contains 1 then left.map fun l => .line (j.written (some l) none) else []) ++
      j.faults unpaired 1 left
  | bound + 1, unpaired, a :: left, b :: right =>
    if a.key < b.key then
      (if j.alone.contains 1 then [.line (j.written (some a) none)] else []) ++
        j.faults unpaired 1 (a :: left.take 1) ++ events j bound true left (b :: right)
    else if b.key < a.key then
      (if j.alone.contains 2 then [.line (j.written none (some b))] else []) ++
        j.faults unpaired 2 (b :: right.take 1) ++ events j bound true (a :: left) right
    else
      let ls := (a :: left).takeWhile (·.key == a.key)
      let rs := (b :: right).takeWhile (·.key == a.key)
      let restLeft := (a :: left).drop ls.length
      let restRight := (b :: right).drop rs.length
      let pairs := ls.flatMap fun l => rs.map fun r => .line (j.written (some l) (some r))
      j.faults unpaired 1 (a :: restLeft.take 1) ++ j.faults unpaired 2 (b :: restRight.take 1) ++
        (if j.pairs then pairs else []) ++ events j bound unpaired restLeft restRight

end Join

/-- The fields that a text asks for. -/
def joinFormat? (s : String) : Option (List (Nat × Nat)) :=
  let items := ((Text.splitWhere (fun c => c == ',' || c == ' ' || c == '\t') s.toList).filter
    (!·.isEmpty)).map String.ofList
  items.mapM fun item =>
    match Text.splitOn '.' item with
    | ["0"] => some (0, 0)
    | ["1", n] => (positive? n).map fun n => (1, n)
    | ["2", n] => (positive? n).map fun n => (2, n)
    | _ => none
where
  /-- A number from one on. -/
  positive? (s : String) : Option Nat := (Numeral.plain? s).filter (· ≠ 0)

/-- How options ask for files to be joined, or what is wrong with them. -/
def joinOf (o : Options) : Except String Join := do
  let values (c : Char) : List String := (o.flags.filter (·.1 == c)).map (·.2)
  let divider ←
    match (o.value? 't').map String.toList with
    | none => pure Divider.blanks
    | some [] => pure Divider.none
    | some [c] => pure (Divider.char c)
    | some ['\\', '0'] => pure (Divider.char '\x00')
    | some text => throw ("multi-character tab '" ++ String.ofList text ++ "'")
  let wrong (s : String) : String := "invalid field number: '" ++ s ++ "'"
  let field (c : Char) : Except String Nat :=
    match o.value? c, o.value? 'j' with
    | some s, _ | none, some s =>
      match joinFormat?.positive? s with
      | some n => .ok n
      | none => .error (wrong s)
    | none, none => .ok 1
  let alone ← (values 'a' ++ values 'v').mapM fun s =>
    match s with
    | "1" => Except.ok 1
    | "2" => .ok 2
    | s => .error (wrong s)
  let formats ← ((values 'o').filter (· ≠ "auto")).mapM fun s =>
    match joinFormat? s with
    | some fields => Except.ok fields
    | none => .error ("invalid field specifier: '" ++ s ++ "'")
  return {
    divider
    first := ← field '1'
    second := ← field '2'
    alone
    pairs := !o.has 'v'
    format := if formats.isEmpty then none else some formats.flatten
    absent := (o.value? 'e').getD ""
    anyCase := o.has 'i'
    strict := o.has 'C'
    lenient := o.has 'N' }

/-- Joins the lines of two sorted files that have a field in common. -/
def join : Utility :=
  withOptions "join" ⟨"iz", "t12javoe", [("ignore-case", 'i'), ("nocheck-order", 'N'), ("check-order", 'C'),
    ("header", 'H'), ("zero-terminated", 'z')], true⟩ 1 fun o => do
    let refuse (message : String) : Act Nat := do
      Act.complain ("join: " ++ message)
      return 1
    match joinOf o, o.operands with
    | .error message, _ => refuse message
    | .ok _, [] =>
      misuse "join" "missing operand"
      return 1
    | .ok _, [only] =>
      misuse "join" ("missing operand after '" ++ only ++ "'")
      return 1
    | .ok _, _ :: _ :: extra :: _ =>
      misuse "join" ("extra operand '" ++ extra ++ "'")
      return 1
    | .ok j, [left, right] =>
      match ← contentOf? "join" left with
      | none => return 1
      | some a =>
        match ← contentOf? "join" right with
        | none => return 1
        | some b =>
          let mark := if o.has 'z' then '\x00' else '\n'
          let a := j.read j.first mark a
          let b := j.read j.second mark b
          let count (ls : List Joined) : Nat := (ls.head?.map fun l => l.fields.length).getD 0
          let isAuto := (o.flags.filter (·.1 == 'o')).any (·.2 == "auto")
          let j := if isAuto then { j with counts := some (count a, count b) } else j
          let (header, a, b) : List Join.JoinEvent × List Joined × List Joined :=
            if o.has 'H' && !(a.isEmpty && b.isEmpty) then
              ([.line (j.written a.head? b.head?)], a.drop 1, b.drop 1)
            else ([], a, b)
          let events := header ++ j.events (a.length + b.length + 1) false a b
          let isFault : Join.JoinEvent → Bool
            | .fault _ _ => true
            | _ => false
          let done := if j.strict then events.takeWhile (!isFault ·) else events
          -- of each file one line is told that is out of order
          let mut told : List Nat := []
          for e in events.take (done.length + 1) do
            match e with
            | .line text => Act.print (text ++ String.singleton mark)
            | .fault file line =>
              if !told.contains file then
                told := file :: told
                Act.complain ("join: " ++ (if file = 1 then left else right) ++ ":" ++ toString line.number ++
                  ": is not sorted: " ++ String.ofList line.text)
          if !events.any isFault then return 0
          if !j.strict then Act.complain "join: input is not in sorted order"
          return 1

/-! ## Orders -/

/-- Items and the pairs of them that say which one comes first. -/
structure PairOrder where
  /-- Each item with the number of those that it has to wait for, in the order of their texts. -/
  waits : List (String × Nat)
  /-- The pairs, the last one first. -/
  pairs : List (String × String)
  deriving Repr, Inhabited

namespace PairOrder

/-- The order that pairs ask for. An item that is paired with itself is only named. -/
def ofPairs (all : List (String × String)) : PairOrder :=
  let pairs := all.filter fun e => e.1 ≠ e.2
  let items := Ordered.ofList (all.flatMap fun e => [e.1, e.2])
  ⟨items.map fun item => (item, pairs.countP (·.2 == item)), pairs.reverse⟩

/-- One of the items that an item waits for is done. -/
def freed (o : PairOrder) (item : String) : PairOrder :=
  { o with waits := o.waits.map fun e => if e.1 = item then (e.1, e.2 - 1) else e }

/-- Does the item wait for others? -/
def isHeld (o : PairOrder) (item : String) : Bool :=
  (o.waits.lookup item).any (· ≠ 0)

/-- Does the items of a queue, and those that wait for nothing else when they are done. -/
def drained : (bound : Nat) → (queue : List String) → PairOrder → List String × PairOrder
  | 0, _, o => ([], o)
  | _ + 1, [], o => ([], o)
  | bound + 1, item :: queue, o =>
    let followers := (o.pairs.filter (·.1 == item)).map (·.2)
    let o := { o with
      waits := o.waits.filter (·.1 ≠ item)
      pairs := o.pairs.filter (·.1 ≠ item) }
    let (queue, o) := followers.foldl (fun ((queue : List String), (o : PairOrder)) next =>
      let o := o.freed next
      (if o.isHeld next then queue else queue ++ [next], o)) (queue, o)
    let (done, o) := drained bound queue o
    (item :: done, o)

/-- Goes through items and follows the pairs backwards. `chain` holds the items so far, each of
    which comes before the one after it. Yields the chain, or the pair that closes a loop with the
    items of the loop. -/
def walk (o : PairOrder) : List String → (chain : List String) →
    List String ⊕ (List String × (String × String))
  | [], chain => .inl chain
  | item :: items, chain =>
    match chain with
    | [] => walk o items [item]
    | last :: _ =>
      if o.pairs.contains (item, last) then
        if chain.dropLast.contains item then
          .inr (chain.takeWhile (· ≠ item) ++ [item], (item, last))
        else walk o items (item :: chain)
      else walk o items chain

/-- The items of a loop, and the pair that is given up for it. -/
def loop? (o : PairOrder) : (bound : Nat) → (chain : List String) →
    Option (List String × (String × String))
  | 0, _ => none
  | bound + 1, chain =>
    match o.walk ((o.waits.filter (·.2 ≠ 0)).map (·.1)) chain with
    | .inl chain => loop? o bound chain
    | .inr found => some found

/-- The items in order, and between them the loops that have to be broken. -/
def resolved : (bound : Nat) → PairOrder → List (String ⊕ List String)
  | 0, _ => []
  | bound + 1, o =>
    let free := (o.waits.filter (·.2 = 0)).map (·.1)
    let (done, o) := drained (o.waits.length + 1) free o
    let shown := done.map Sum.inl
    if o.waits.isEmpty then shown
    else
      match o.loop? (o.waits.length + 2) [] with
      | none => shown
      | some (items, pair) =>
        shown ++ .inr items ::
          resolved bound (({ o with pairs := o.pairs.erase pair } : PairOrder).freed pair.2)

end PairOrder

/-- Writes items in an order that pairs of them ask for. -/
def tsort : Utility := fun args => do
  if let extra :: _ := args.drop 1 then
    misuse "tsort" ("extra operand '" ++ extra ++ "'")
    return 1
  match ← contentOf? "tsort" (args.headD "-") with
  | none => return 1
  | some text =>
    let words := (((Text.splitWhere Numeral.isBlank text.toList).filter (!·.isEmpty)).map String.ofList)
    let rec paired : List String → List (String × String)
      | a :: b :: rest => (a, b) :: paired rest
      | _ => []
    let name := args.headD "-"
    if words.length % 2 = 1 then
      Act.complain ("tsort: " ++ name ++ ": input contains an odd number of tokens")
      return 1
    let found := PairOrder.resolved (words.length + 1) (PairOrder.ofPairs (paired words))
    for part in found do
      match part with
      | .inl item => Act.print (item ++ "\n")
      | .inr items =>
        Act.complain ("tsort: " ++ name ++ ": input contains a loop:")
        for item in items do
          Act.complain ("tsort: " ++ item)
    return if found.any Sum.isRight then 1 else 0

end ParseBench.Utility
