/-
  ParseBench.Host.Utility.Text

  Utilities that copy, cut, order and count the lines of texts.
-/

import ParseBench.Host.Numeral
import ParseBench.Host.Shell.Pattern
import ParseBench.Host.Utility.Intake
import ParseBench.Host.Utility.Printing

namespace ParseBench.Utility

/-! ## Copying -/

/-- A text with its lines numbered. Empty lines may be left out of that. -/
def numbered (skipEmpty : Bool) (first : Nat) (ls : List (List Char)) : List (List Char) × Nat :=
  ls.foldl (fun (done, n) l =>
    if skipEmpty && l.isEmpty then (done ++ [l], n)
    else
      let digits := toString n
      let label := String.ofList (List.replicate (6 - digits.length) ' ') ++ digits ++ "\t"
      (done ++ [label.toList ++ l], n + 1)) ([], first)

/-- Only the first of neighbouring empty lines. -/
def squeezed : List (List Char) → List (List Char)
  | [] :: [] :: rest => squeezed ([] :: rest)
  | l :: rest => l :: squeezed rest
  | [] => []

/-- Is what is read also where the output goes, before its end? Then there would be no end. -/
def readsItsOutput (p : Process) (id : Nat) : Bool :=
  match p.machine.stream id, (p.streams.lookup 1).map p.machine.stream with
  | .file l place _, some (.file k next mode) =>
    let size := ((p.machine.whole? id).getD .empty).size
    l = k && place < (if mode = .append then size else next)
  | _, _ => false

/-- What `cat` does to a text with its options. -/
def shownLines (o : Options) (text : String) : String :=
  let ls := if o.has 's' then squeezed (lines text) else lines text
  let ls := if o.has 'E' || o.has 'A' || o.has 'e' then ls.map (· ++ ['$']) else ls
  let ls := if o.has 'b' then (numbered true 1 ls).1 else if o.has 'n' then (numbered false 1 ls).1 else ls
  let out := unlines ls
  if isCutOff text then String.ofList (out.toList.dropLast) else out

/-- Writes what it reads. -/
def cat : Utility :=
  withOptions "cat" ⟨"nbusEAetvT", "", [("number", 'n'), ("squeeze-blank", 's'), ("show-ends", 'E')], true⟩ 1
    fun o => do
      if ((← get).streams.lookup 1).isNone then
        Act.complain "cat: standard output: Bad file descriptor"
        return 1
      else if o.flags.all (·.1 == 'u') then
        forEach (if o.operands.isEmpty then ["-"] else o.operands) fun file => do
          match ← source? "cat" file with
          | none => return 1
          | some id =>
            if readsItsOutput (← get) id then
              Act.complain ("cat: " ++ file ++ ": input file is output file")
              close id
              return 1
            forParts.parts (fun _ => Act.printBytes) id Act.patience
            close id
            return 0
      else
        let (text, status) ← contents "cat" o.operands
        Act.print (shownLines o text)
        return status

/-- Writes what it reads to the output and to files. -/
def tee : Utility :=
  withOptions "tee" ⟨"ai", "", [("append", 'a')], true⟩ 1 fun o => do
    let mode := if o.has 'a' then OpenMode.append else .replace
    let (ids, status) ← o.operands.foldlM (fun ((ids : List (String × Nat)), status) file => do
      match ← Act.openPath file mode with
      | .ok id =>
        modify (·.hold id)
        return (ids ++ [(file, id)], status)
      | .error r =>
        Act.complain ("tee: " ++ file ++ ": " ++ r.reason)
        return (ids, 1)) ([], 0)
    let read ← forParts "tee" [] fun _ bytes => do
      Act.printBytes bytes
      ids.forM fun (_, id) => do
        let _ ← Act.writeStream id Act.patience bytes
    let p ← get
    let full := ids.filter fun (_, id) => p.machine.stream id matches .full
    for (file, _) in full do
      Act.complain ("tee: " ++ file ++ ": " ++ WriteFault.full.reason)
    return if full.isEmpty then max status read else 1

/-- Writes a line without end. -/
def yes : Utility := fun args => do
  let line := Text.join " " (if args.isEmpty then ["y"] else args) ++ "\n"
  -- it is written as often as a page holds it
  let page := String.join (List.replicate (max 1 (Outgoing.limit / line.length)) line)
  let rec repeated : (bound : Nat) → Act Nat
    | 0 => return 0
    | bound + 1 => do
      Act.print page
      if (← get).outputFault.isSome then return 1 else repeated bound
  repeated Act.patience

/-- The lines of a text with their ends. -/
def fullLines (text : String) : List (List Char) :=
  match (lines text).reverse with
  | [] => []
  | last :: before =>
    let whole (l : List Char) : List Char := l ++ ['\n']
    ((if isCutOff text then last else whole last) :: before.map whole).reverse

/-- Writes the lines of each text backwards. A last line without its end runs into the one
    that comes after it then. -/
def tac : Utility :=
  withOptions "tac" ⟨"", "", [], true⟩ 1 fun o =>
    forContents "tac" o.operands fun _ text => do
      Act.print (String.ofList (fullLines text).reverse.flatten)

/-- Writes each line backwards. -/
def rev : Utility := fun args =>
  changeLines "rev" false args () fun _ l => ((), some l.reverse)

/-- Writes lines with their numbers. -/
def nl : Utility :=
  withOptions "nl" ⟨"", "bwsv", [], true⟩ 1 fun o => do
    let (text, status) ← contents "nl" o.operands
    let ls := lines text
    let every := o.value? 'b' = some "a"
    let (out, _) := numbered (!every) 1 ls
    Act.print (unlines (out.map fun l => if l.isEmpty then "       ".toList else l))
    return status

/-! ## Beginnings and ends -/

/-- The arguments with a number after a hyphen made an option. -/
def withCountOption : List String → List String
  | [] => []
  | arg :: rest =>
    match arg.toList with
    | '-' :: digits =>
      if !digits.isEmpty && digits.all Char.isDigit then "-n" :: String.ofList digits :: rest
      else arg :: rest
    | _ => arg :: rest

/-- A count with a sign before it. -/
def count? (s : String) : Option (Char × Nat) :=
  match s.toList with
  | '+' :: digits => (Numeral.plain? (String.ofList digits)).map ('+', ·)
  | '-' :: digits => (Numeral.plain? (String.ofList digits)).map ('-', ·)
  | _ => (Numeral.plain? s).map (' ', ·)

/-- The beginning of a text: a number of lines or characters, or all but the last ones. -/
def beginning (inChars : Bool) (sign : Char) (n : Nat) (text : String) : String :=
  let units := if inChars then text.toList.map ([·]) else fullLines text
  String.ofList (units.take (if sign = '-' then units.length - n else n)).flatten

/-- The end of a text: a number of lines or characters, or all from one of them on. -/
def ending (inChars : Bool) (sign : Char) (n : Nat) (text : String) : String :=
  let units := if inChars then text.toList.map ([·]) else fullLines text
  String.ofList (units.drop (if sign = '+' then n - 1 else units.length - n)).flatten

/-- A part of a text that is asked for: its unit, its sign and its count. -/
structure PartRequest where
  inChars : Bool
  sign : Char
  count : Nat
  deriving DecidableEq, Repr, Inhabited

/-- What options ask for: ten lines if they do not say. Else the wrong count. -/
def PartRequest.ofOptions (o : Options) : Except String PartRequest :=
  let asked := o.flags.reverse.find? fun f => f.1 == 'n' || f.1 == 'c'
  let size := (asked.map Prod.snd).getD "10"
  let inChars := asked.any (·.1 == 'c')
  match count? size with
  | some (sign, n) => .ok ⟨inChars, sign, n⟩
  | none =>
    .error ("invalid number of " ++ (if inChars then "bytes" else "lines") ++ ": '" ++ size ++ "'")

/-- Writes a part of each file, under its name if there are several. -/
def writeParts (name : String) (one : PartRequest → Nat → Act Unit) : Utility := fun args =>
  withOptions name ⟨"qvfz", "nc", [("lines", 'n'), ("bytes", 'c'), ("quiet", 'q'), ("silent", 'q'),
    ("verbose", 'v')], true⟩ 1
    (fun o => do
      match PartRequest.ofOptions o with
      | .error message =>
        Act.complain (name ++ ": " ++ message)
        return 1
      | .ok request =>
        let files := if o.operands.isEmpty then ["-"] else o.operands
        let titled := (files.length > 1 || o.has 'v') && !o.has 'q'
        let (_, status) ← files.foldlM (fun (isFirst, status) file => do
          let title : Act Unit := do
            if titled then
              let title := if file = "-" then "standard input" else file
              Act.print ((if isFirst then "" else "\n") ++ "==> " ++ title ++ " <==\n")
          -- a directory can be opened, but not read
          if (← get).isDirectory file then
            title
            Act.complain (readFault name file "Is a directory")
            return (false, 1)
          match ← source? name file with
          | none => return (isFirst, 1)
          | some id =>
            title
            one request id
            close id
            return (false, status)) (true, 0)
        return status)
    (withCountOption args)

/-- Writes a number of lines, as they come. -/
def headLines : (count : Nat) → Intake → Act Unit
  | 0, i => i.giveBack
  | count + 1, i => do
    match ← i.line? Act.patience with
    | (some line, i) =>
      Act.print (String.ofList line)
      headLines count i
    | (none, _) => return ()

/-- Writes a number of bytes, as they come. -/
def headBytes (id : Nat) : (bound count : Nat) → Act Unit
  | 0, _ | _, 0 => return ()
  | bound + 1, count => do
    match ← Act.readStream? id fun rest => min count rest.size with
    | some bytes =>
      if bytes.isEmpty then return ()
      Act.printBytes bytes
      headBytes id bound (count - bytes.size)
    | none => return ()

/-- Writes the beginnings of files. What is not written of the input is left for others, if
    the input knows its place. -/
def head : Utility :=
  writeParts "head" fun request id => do
    if request.sign = '-' then
      let text := (← Act.textOf? id).getD ""
      let out := beginning request.inChars '-' request.count text
      Act.print out
      Act.giveBack id (text.length - out.length)
    else if request.inChars then headBytes id Act.patience request.count
    else headLines request.count { stream := id }

/-- Writes the ends of files. -/
def tail : Utility := fun args =>
  -- a number after a plus sign is the same as an option
  let args :=
    match args with
    | arg :: rest =>
      match arg.toList with
      | '+' :: digits => if !digits.isEmpty && digits.all Char.isDigit then "-n" :: arg :: rest else args
      | _ => args
    | [] => []
  writeParts "tail" (fun request id => do
    -- nothing is read where nothing is asked for
    if request.sign ≠ '+' && request.count = 0 then return ()
    let text := (← Act.textOf? id).getD ""
    Act.print (ending request.inChars request.sign request.count text)) args

/-! ## Counting -/

/-- What is counted of a text. -/
structure Counts where
  lines : Nat := 0
  words : Nat := 0
  chars : Nat := 0
  /-- The length of the longest line. -/
  longest : Nat := 0
  deriving DecidableEq, Repr, Inhabited

namespace Counts

/-- Can the character be seen? -/
def isSeen (c : Char) : Bool :=
  32 < c.toNat && c.toNat < 127

/-- The width of a line in which tabs lead to the next of their places. -/
def width (line : List Char) : Nat :=
  line.foldl (fun n c =>
    if c = '\t' then (n / 8 + 1) * 8 else if isSeen c || c = ' ' then n + 1 else n) 0

/-- Counts a text. What cannot be seen makes no words. -/
def ofText (text : String) : Counts :=
  let cs := text.toList
  let words := (Text.splitWhere Numeral.isBlank cs).filter fun w => w.any isSeen
  let lines := Text.splitWhere (fun c => c == '\n' || c == '\r' || c == '\x0c') cs
  ⟨cs.count '\n', words.length, cs.length, lines.foldl (fun n l => max n (width l)) 0⟩

/-- The counts of two texts together. -/
def add (a b : Counts) : Counts :=
  ⟨a.lines + b.lines, a.words + b.words, a.chars + b.chars, max a.longest b.longest⟩

/-- The counts that are asked for. -/
def chosen (o : Options) (c : Counts) : List Nat :=
  let all := o.flags.isEmpty
  (if all || o.has 'l' then [c.lines] else []) ++ (if all || o.has 'w' then [c.words] else []) ++
    (if o.has 'm' then [c.chars] else []) ++ (if all || o.has 'c' then [c.chars] else []) ++
    (if o.has 'L' then [c.longest] else [])

end Counts

/-- The size of what is to be counted, if it is a file; nothing else has a size. -/
def sizeOf? (p : Process) (file : String) : Option Nat :=
  let id? :=
    if file = "-" then (p.streams.lookup 0).map fun id => (id, p.machine)
    else (p.openFile file .read).toOption
  id?.bind fun (id, m) => (m.whole? id).map ByteArray.size

/-- The width of counts: that of the size of all files together, as far as they have one. A
    single count is not aligned. -/
def countWidth (p : Process) (columns : Nat) (files : List String) : Nat :=
  if columns = 1 && files.length = 1 then 1
  else
    let there := files.filter fun file => file = "-" || (p.node? file).isSome
    let sizes := there.map (sizeOf? p)
    let total := sizes.foldl (fun n size => n + size.getD 0) 0
    max (toString total).length (if sizes.any Option.isNone then 7 else 1)

/-- Counts lines, words and characters. -/
def wc : Utility :=
  withOptions "wc" ⟨"lwcmL", "", [("lines", 'l'), ("words", 'w'), ("bytes", 'c'), ("chars", 'm'),
    ("max-line-length", 'L')], true⟩ 1 fun o => do
    let files := if o.operands.isEmpty then ["-"] else o.operands
    let width := countWidth (← get) (({} : Counts).chosen o).length files
    let write (c : Counts) (name : String) : Act Unit :=
      Act.print (Text.join " " ((c.chosen o).map fun n =>
        String.ofList (List.replicate (width - (toString n).length) ' ') ++ toString n) ++
        (if name.isEmpty then "" else " " ++ name) ++ "\n")
    let (total, status) ← files.foldlM (fun ((total : Counts), status) file => do
      let name := if o.operands.isEmpty then "" else file
      if (← get).isDirectory file then
        Act.complain (readFault "wc" file "Is a directory")
        write {} name
        return (total, 1)
      match ← contentOf? "wc" file with
      | none => return (total, 1)
      | some text =>
        let c := Counts.ofText text
        write c name
        return (total.add c, status)) ({}, 0)
    if files.length > 1 then write total "total"
    return status

/-! ## Ordering -/

/-- A number at the beginning of a line, as a fraction with a common scale. -/
def leadingNumber (l : List Char) : Int × List Char :=
  let l := l.dropWhile fun c => c == ' ' || c == '\t'
  let (negative, l) : Bool × List Char :=
    match l with
    | '-' :: rest => (true, rest)
    | l => (false, l)
  let whole := l.takeWhile Char.isDigit
  let places :=
    match l.drop whole.length with
    | '.' :: rest => rest.takeWhile Char.isDigit
    | _ => []
  let n := Numeral.value 10 whole
  (if negative then -n else n, (if negative then ['-'] else []) ++ places)

/-- Does the number at the beginning of one line come before that of another? -/
def numberBefore (a b : List Char) : Bool :=
  let (n, p) := leadingNumber a
  let (m, q) := leadingNumber b
  let scale := max p.length q.length
  let scaled (n : Int) (places : List Char) : Int :=
    let negative := places.head? == some '-'
    let digits := places.filter Char.isDigit
    let part : Int := Numeral.value 10 (digits ++ List.replicate (scale - digits.length) '0')
    n * Nat.pow 10 scale + if negative then -part else part
  scaled n p < scaled m q

/-- A key by which lines are ordered: the first and the last field, and letters that say how. -/
structure SortKey where
  first : Nat
  firstChar : Nat
  last : Option (Nat × Nat)
  letters : List Char
  deriving Repr, Inhabited

namespace SortKey

/-- Reads a place: a field and a character in it. -/
def place (s : List Char) : Nat × Nat × List Char :=
  let field := s.takeWhile Char.isDigit
  match s.drop field.length with
  | '.' :: rest =>
    let char := rest.takeWhile Char.isDigit
    (Numeral.value 10 field, Numeral.value 10 char, rest.drop char.length)
  | rest => (Numeral.value 10 field, 0, rest)

/-- Reads a key. -/
def ofText (s : String) : SortKey :=
  let (first, firstChar, rest) := place s.toList
  let letters := rest.takeWhile Char.isAlpha
  match rest.drop letters.length with
  | ',' :: rest =>
    let (last, lastChar, more) := place rest
    ⟨first, firstChar, some (last, lastChar), letters ++ more⟩
  | _ => ⟨first, firstChar, none, letters⟩

/-- The fields of a line. Without a separator they begin at blanks, which belong to them. -/
def fieldsOf (separator : Option Char) (l : List Char) : List (List Char) :=
  match separator with
  | some c =>
    match Text.splitWhere (· == c) l with
    | [] => []
    | f :: rest => f :: rest.map (c :: ·)
  | none =>
    (l.foldl (fun (done, wasBlank) c =>
      let isBlank := c == ' ' || c == '\t'
      match done, isBlank && !wasBlank with
      | current :: rest, false => ((current ++ [c]) :: rest, isBlank)
      | done, _ => ([c] :: done, isBlank)) (([] : List (List Char)), true)).1.reverse

/-- The part of a line that a key takes. -/
def part (k : SortKey) (separator : Option Char) (l : List Char) : List Char :=
  let fields := fieldsOf separator l
  let skips (i : Nat) : Nat := if separator.isSome && i > 0 then 1 else 0
  let startOf (i : Nat) : Nat := (fields.take i).flatten.length + skips i
  let start := startOf (k.first - 1) + (k.firstChar - 1)
  match k.last with
  | none => l.drop start
  | some (last, char) =>
    let stop := if char = 0 then (fields.take last).flatten.length else startOf (last - 1) + char
    (l.take stop).drop start

end SortKey

/-- Orders lines. -/
def sort : Utility :=
  withOptions "sort" ⟨"nrufbcsdig", "kto", [("numeric-sort", 'n'), ("reverse", 'r'), ("unique", 'u'),
    ("key", 'k'), ("field-separator", 't'), ("output", 'o'), ("ignore-case", 'f')], true⟩ 2 fun o => do
    let (text, status) ← contents "sort" o.operands
    if status ≠ 0 then return 2
    let separator := (o.value? 't').bind fun s => s.toList.head?
    let keys := (o.flags.filter (·.1 == 'k')).map fun f => SortKey.ofText f.2
    let keys := if keys.isEmpty then [⟨1, 0, none, []⟩] else keys
    let common := o.flags.map (·.1)
    -- the smaller of two lines by one key, if they differ there
    let compareBy (k : SortKey) (a b : List Char) : Option Bool :=
      let letters := if k.letters.isEmpty then common else k.letters
      let plain (l : List Char) : List Char :=
        let l := if letters.contains 'b' then l.dropWhile fun c => c == ' ' || c == '\t' else l
        if letters.contains 'f' then l.map Char.toUpper else l
      let a := plain (k.part separator a)
      let b := plain (k.part separator b)
      let before (a b : List Char) : Bool :=
        if letters.contains 'n' || letters.contains 'g' then numberBefore a b else a < b
      if before a b then some (!letters.contains 'r')
      else if before b a then some (letters.contains 'r')
      else none
    let byKeys (a b : List Char) : Option Bool := keys.findSome? fun k => compareBy k a b
    let atMost (a b : List Char) : Bool :=
      match byKeys a b with
      | some before => before
      | none => if o.has 's' || o.has 'u' then true else if o.has 'r' then !(a < b) else !(b < a)
    let ls := lines text
    if o.has 'c' then
      return if (ls.zip (ls.drop 1)).all fun (a, b) => atMost a b then 0 else 1
    let sorted := ls.mergeSort atMost
    let sorted :=
      if o.has 'u' then
        (sorted.foldl (fun (done : List (List Char)) l =>
          match done with
          | last :: _ => if (byKeys last l).isNone then done else l :: done
          | [] => [l]) []).reverse
      else sorted
    match o.value? 'o' with
    | none =>
      Act.print (unlines sorted)
      return 0
    | some file =>
      match ← Act.openPath file .replace with
      | .ok id =>
        if ← Act.writeStream id Act.patience (Raw.toBytes (unlines sorted)) then return 0
        else
          Act.complain ("sort: fflush failed: " ++ file ++ ": " ++ WriteFault.full.reason)
          Act.complain "sort: write error"
          return 2
      | .error r =>
        Act.complain ("sort: open failed: " ++ file ++ ": " ++ r.reason)
        return 2

/-- Neighbouring lines that are the same, with their numbers. -/
def runs (same : List Char → List Char → Bool) (ls : List (List Char)) : List (List Char × Nat) :=
  (ls.foldl (fun (done : List (List Char × Nat)) l =>
    match done with
    | (last, n) :: rest => if same last l then (last, n + 1) :: rest else (l, 1) :: done
    | [] => [(l, 1)]) []).reverse

/-- Writes only one of neighbouring lines that are the same. -/
def uniq : Utility :=
  withOptions "uniq" ⟨"cdui", "", [("count", 'c'), ("repeated", 'd'), ("unique", 'u')], true⟩ 1 fun o => do
    match ← contentOf? "uniq" (o.operands.headD "-") with
    | none => return 1
    | some text =>
      let same (a b : List Char) : Bool :=
        if o.has 'i' then a.map Char.toLower == b.map Char.toLower else a == b
      let chosen := (runs same (lines text)).filter fun (_, n) =>
        (!o.has 'd' || n > 1) && (!o.has 'u' || n = 1)
      Act.print (unlines (chosen.map fun (l, n) =>
        if o.has 'c' then
          let digits := toString n
          (String.ofList (List.replicate (7 - digits.length) ' ') ++ digits ++ " ").toList ++ l
        else l))
      return 0

/-! ## Columns -/

/-- Ranges of numbers. One without end goes on for ever. -/
def ranges? (s : String) : Option (List (Nat × Option Nat)) :=
  (Text.splitOn ',' s).mapM fun part =>
    match Text.splitOn '-' part with
    | [n] => (Numeral.plain? n).map fun n => (n, some n)
    | [a, b] => do
      let first ← if a.isEmpty then some 1 else Numeral.plain? a
      let last ← if b.isEmpty then some none else (Numeral.plain? b).map some
      if a.isEmpty && b.isEmpty then none else some (first, last)
    | _ => none

/-- Is the number in one of the ranges? -/
def isInRanges (ranges : List (Nat × Option Nat)) (n : Nat) : Bool :=
  ranges.any fun (first, last) => first ≤ n && last.all (n ≤ ·)

/-- The items whose numbers are in ranges. -/
def inRanges {α : Type} (ranges : List (Nat × Option Nat)) (items : List α) : List α :=
  (items.zipIdx.filter fun (_, i) => isInRanges ranges (i + 1)).map Prod.fst

/-- Cuts parts out of lines. -/
def cut : Utility :=
  withOptions "cut" ⟨"sn", "dfcbO", [("delimiter", 'd'), ("fields", 'f'), ("characters", 'c'),
    ("bytes", 'b'), ("only-delimited", 's'), ("complement", 'C'), ("output-delimiter", 'O')], true⟩ 1
    fun o => do
    let separator := ((o.value? 'd').bind fun s => s.toList.head?).getD '\t'
    let joint := ((o.value? 'O').map String.toList).getD [separator]
    let chosen {α : Type} (ranges : List (Nat × Option Nat)) (items : List α) : List α :=
      if o.has 'C' then
        (items.zipIdx.filter fun (_, i) => !isInRanges ranges (i + 1)).map Prod.fst
      else inRanges ranges items
    let cutInto (change : List Char → Option (List Char)) : Act Nat :=
      changeLines "cut" true o.operands () fun _ l => ((), change l)
    let chars := (o.value? 'c').orElse fun _ => o.value? 'b'
    match (o.value? 'f').bind ranges?, chars.bind ranges? with
    | some fields, _ =>
      cutInto fun l =>
        if l.contains separator then
          some (List.intercalate joint (chosen fields (Text.splitWhere (· == separator) l)))
        else if o.has 's' then none
        else some l
    | none, some places => cutInto fun l => some (chosen places l)
    | none, none =>
      Act.complain "cut: you must specify a list of bytes, characters, or fields"
      return 1

/-- Puts the lines of texts side by side, or those of each text on one line. -/
def paste : Utility :=
  withOptions "paste" ⟨"s", "d", [("serial", 's'), ("delimiters", 'd')], true⟩ 1 fun o => do
    let files := if o.operands.isEmpty then ["-"] else o.operands
    let separators := (unescape ((o.value? 'd').getD "\t").toList).1
    let between (i : Nat) : List Char := ((separators[i % separators.length]?).map ([·])).getD []
    let glue (parts : List (List Char)) : List Char :=
      let count := parts.length
      (parts.mapIdx fun i l => if i + 1 < count then l ++ between i else l).flatten
    let texts ← files.mapM (contentOf? "paste")
    if texts.any Option.isNone then return 1
    let columns := texts.map fun t => lines (t.getD "")
    if o.has 's' then Act.print (unlines (columns.map glue))
    else if files.all (· = "-") && files.length > 1 then
      let ls := columns.headD []
      let rows := (List.range ((ls.length + files.length - 1) / files.length)).map fun i =>
        glue ((List.range files.length).map fun k => (ls[i * files.length + k]?).getD [])
      Act.print (unlines rows)
    else
      let height := columns.foldl (fun n c => max n c.length) 0
      Act.print (unlines ((List.range height).map fun i => glue (columns.map fun c => c.getD i [])))
    return 0

/-! ## Characters -/

/-- The characters of a class between brackets and colons. -/
def classChars (name : String) : List Char :=
  ((List.range 256).map Char.ofNat).filter fun c => (Shell.Members.named name).contain c

/-- The characters that a set of characters lists, at most `bound` of its parts. -/
def setChars : (bound : Nat) → List Char → List Char
  | 0, _ => []
  | _ + 1, [] => []
  | bound + 1, '[' :: ':' :: rest =>
    let name := rest.takeWhile (· ≠ ':')
    match rest.drop name.length with
    | ':' :: ']' :: later => classChars (String.ofList name) ++ setChars bound later
    | _ => '[' :: setChars bound (':' :: rest)
  | bound + 1, c :: rest =>
    let (c, rest) := if c = '\\' then escape rest else (c, rest)
    match rest with
    | '-' :: last :: later =>
      let (last, later) := if last = '\\' then escape later else (last, later)
      ((List.range (last.toNat + 1 - c.toNat)).map fun i => Char.ofNat (c.toNat + i)) ++
        setChars bound later
    | rest => c :: setChars bound rest

/-- The characters of a set. -/
def charsOf (s : String) : List Char :=
  setChars (s.length + 1) s.toList

/-- Leaves out neighbours that are the same and belong to a set. `last` came before. -/
def squeeze (set : List Char) : (last : Option Char) → List Char → List Char
  | _, [] => []
  | last, c :: rest =>
    if last = some c && set.contains c then squeeze set last rest
    else c :: squeeze set (some c) rest

/-- Squeezes the parts of the input as they come, after they have been changed. -/
def squeezeParts (change : List Char → List Char) (set : List Char) (id : Nat) :
    (bound : Nat) → (last : Option Char) → Act Unit
  | 0, _ => return ()
  | bound + 1, last => do
    match ← Act.readStream? id ByteArray.size with
    | some bytes =>
      if bytes.isEmpty then return ()
      let cs := change (Raw.ofBytes bytes).toList
      Act.print (String.ofList (squeeze set last cs))
      squeezeParts change set id bound (cs.getLast?.orElse fun _ => last)
    | none => return ()

/-- Replaces, removes or squeezes characters. -/
def tr : Utility :=
  withOptions "tr" ⟨"dscCt", "", [("delete", 'd'), ("squeeze-repeats", 's'), ("complement", 'c')], false⟩ 1
    fun o => do
      let complemented := o.has 'c' || o.has 'C'
      let read (s : String) : List Char :=
        if complemented then
          let listed := charsOf s
          ((List.range 256).map Char.ofNat).filter (!listed.contains ·)
        else charsOf s
      match o.operands with
      | [] =>
        Act.complain "tr: missing operand"
        return 1
      | first :: more =>
        let old := read first
        let new := (more.head?.map charsOf).getD []
        if more.isEmpty && !o.has 'd' && !o.has 's' then
          Act.complain ("tr: missing operand after '" ++ first ++ "'")
          return 1
        let last := new.getLast?.getD ' '
        let replacement (c : Char) : Char :=
          match old.reverse.findIdx? (· == c) with
          | some i => (new[old.length - 1 - i]?).getD last
          | none => c
        -- what becomes of each character is known once for all
        let table := (List.range 256).toArray.map fun n => replacement (Char.ofNat n)
        let isOld := (List.range 256).toArray.map fun n => old.contains (Char.ofNat n)
        let change (cs : List Char) : List Char :=
          if o.has 'd' then cs.filter fun c => !(isOld[c.toNat]?.getD false)
          else if new.isEmpty then cs
          else cs.map fun c => (table[c.toNat]?).getD c
        let squeezed := if o.has 's' then if more.isEmpty then old else new else []
        match ← source? "tr" "-" with
        | none => return 1
        | some id =>
          squeezeParts change squeezed id Act.patience none
          close id
          return 0

end ParseBench.Utility
