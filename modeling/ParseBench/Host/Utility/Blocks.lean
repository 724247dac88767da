/-
  ParseBench.Host.Utility.Blocks

  Utilities that copy in blocks, and that cut contents into files of some size.
-/

import ParseBench.Host.Utility.Intake

namespace ParseBench.Utility

/-! ## Sizes -/

/-- The units that sizes can have. -/
def blockUnits : List (String × Nat) := [
  ("", 1), ("c", 1), ("w", 2), ("b", 512), ("kB", 1000), ("K", 1024), ("k", 1024), ("KiB", 1024),
  ("MB", 1000000), ("M", 1024 * 1024), ("m", 1024 * 1024), ("MiB", 1024 * 1024), ("G", 1024 * 1024 * 1024),
  ("GB", 1000000000)]

/-- The size that a text says, which may be a product. -/
def blockSize? (s : String) : Option Nat := do
  let factors ← (Text.splitOn 'x' s).mapM fun part =>
    let digits := part.toList.takeWhile Char.isDigit
    if digits.isEmpty then none
    else (blockUnits.lookup (String.ofList (part.toList.drop digits.length))).map
      fun unit => Numeral.value 10 digits * unit
  some (factors.foldl (· * ·) 1)

/-! ## Copying in blocks -/

/-- What has been copied. -/
structure BlockCounts where
  whole : Nat := 0
  part : Nat := 0
  bytes : Nat := 0
  deriving Repr, Inhabited

/-- The operands of a copy by their names. -/
abbrev BlockOperands := List (String × String)

namespace BlockOperands

/-- The words of an operand that is a list. -/
def listOf (o : BlockOperands) (name : String) : List String :=
  (o.filter (·.1 == name)).flatMap fun e => Text.splitOn ',' e.2

/-- The operand of a name, the last one counting. -/
def value? (o : BlockOperands) (name : String) : Option String :=
  (o.filter (·.1 == name)).getLast?.map (·.2)

end BlockOperands

/-- The names of the operands. -/
def blockOperandNames : List String :=
  ["if", "of", "bs", "ibs", "obs", "cbs", "count", "skip", "seek", "iseek", "oseek", "conv", "status",
    "iflag", "oflag"]

/-- The words that a list of an operand can have. -/
def blockWords (name : String) : List String :=
  match name with
  | "conv" => ["ascii", "ebcdic", "ibm", "block", "unblock", "lcase", "ucase", "sparse", "swab", "sync",
    "excl", "nocreat", "notrunc", "noerror", "fdatasync", "fsync"]
  | _ => ["append", "direct", "directory", "dsync", "sync", "fullblock", "nonblock", "noatime", "nocache",
    "noctty", "nofollow", "count_bytes", "skip_bytes", "seek_bytes"]

/-- A line filled with blanks up to a width, or cut off there. -/
def blockLine (width : Nat) (line : List Char) : List Char :=
  line.take width ++ List.replicate (width - line.length) ' '

/-- A text whose lines are all equally wide and without ends, or such a text in lines again. -/
def reblocked (conv : List String) (width : Nat) (text : String) : String :=
  if width = 0 then text
  else if conv.contains "block" then String.ofList ((lines text).flatMap (blockLine width))
  else if conv.contains "unblock" then
    let rec parts : Nat → List Char → List (List Char)
      | 0, _ => []
      | bound + 1, s => if s.isEmpty then [] else s.take width :: parts bound (s.drop width)
    unlines ((parts (text.length + 1) text.toList).map fun l =>
      (l.reverse.dropWhile (· == ' ')).reverse)
  else text

/-- A block after it has been changed. -/
def converted (conv : List String) (size : Nat) (bytes : ByteArray) : ByteArray :=
  let map (f : Char → Char) (b : ByteArray) : ByteArray :=
    ⟨b.data.map fun c => if c < 128 then UInt8.ofNat (f (Char.ofNat c.toNat)).toNat else c⟩
  let bytes := if conv.contains "sync" then bytes ++ ⟨Array.replicate (size - bytes.size) 0⟩ else bytes
  let rec swapped : List UInt8 → List UInt8
    | a :: b :: rest => b :: a :: swapped rest
    | rest => rest
  let bytes := if conv.contains "swab" then ⟨(swapped bytes.toList).toArray⟩ else bytes
  let bytes := if conv.contains "ucase" then map Char.toUpper bytes else bytes
  if conv.contains "lcase" then map Char.toLower bytes else bytes

/-- Reads a block, or as much as there is of it. A block that has to be full is read on. -/
def readBlock (id size : Nat) (isFull : Bool) : (bound : Nat) → (before : ByteArray) → Act ByteArray
  | 0, before => return before
  | bound + 1, before => do
    match ← Act.readStream? id fun rest => min (size - before.size) rest.size with
    | none => return before
    | some bytes =>
      let block := before ++ bytes
      if bytes.isEmpty || !isFull || size ≤ block.size then return block
      else readBlock id size isFull bound block

/-- Copies blocks, at most so many or so many bytes of them. Yields what was read. -/
def copyBlocks (source target size : Nat) (isFull inBytes : Bool) (conv : List String) :
    (bound : Nat) → (left : Option Nat) → BlockCounts → Act BlockCounts
  | 0, _, counts => return counts
  | bound + 1, left, counts => do
    if left = some 0 then return counts
    let wanted := if inBytes then min size (left.getD size) else size
    let block ← readBlock source wanted isFull Act.patience .empty
    if block.isEmpty then return counts
    let out := converted conv size block
    let _ ← Act.writeStream target Act.patience out
    let counts : BlockCounts :=
      { whole := counts.whole + (if block.size = size then 1 else 0)
        part := counts.part + (if block.size = size then 0 else 1)
        bytes := counts.bytes + out.size }
    copyBlocks source target size isFull inBytes conv bound
      (left.map (· - if inBytes then block.size else 1)) counts

/-- Tells what was copied, in blocks of some size if they were put together anew. The time that
    it took is not known to anybody. -/
def tellBlocks (status : String) (outSize : Option Nat) (counts : BlockCounts) : Act Unit := do
  let records (whole part : Nat) : String := toString whole ++ "+" ++ toString part
  if status ≠ "none" then
    Act.complain (records counts.whole counts.part ++ " records in")
    Act.complain ((match outSize with
      | none => records counts.whole counts.part
      | some size => records (counts.bytes / size) (if counts.bytes % size = 0 then 0 else 1)) ++
      " records out")
    if status ≠ "noxfer" then
      Act.complain (toString counts.bytes ++ (if counts.bytes = 1 then " byte" else " bytes") ++
        " copied, 0.001 s, " ++ toString counts.bytes ++ " kB/s")

/-- Copies blocks. -/
def dd : Utility := fun args => do
  let operands : BlockOperands := args.map fun arg =>
    (String.ofList (arg.toList.takeWhile (· ≠ '=')), String.ofList ((arg.toList.dropWhile (· ≠ '=')).drop 1))
  let isOperand (arg : String) : Bool :=
    arg.toList.contains '=' && blockOperandNames.contains (String.ofList (arg.toList.takeWhile (· ≠ '=')))
  match args.find? (!isOperand ·) with
  | some arg =>
    misuse "dd" ("unrecognized operand '" ++ arg ++ "'")
    return 1
  | none =>
    let sizes := ["bs", "ibs", "obs", "cbs", "count", "skip", "seek", "iseek", "oseek"].filterMap fun name =>
      (operands.value? name).map fun s =>
        let inBytes := s.endsWith "B" && !(blockUnits.any fun u => u.1.length = 2 && s.endsWith u.1)
        let digits := if inBytes then String.ofList s.toList.dropLast else s
        (name, s, blockSize? digits, inBytes)
    let isWrong (e : String × String × Option Nat × Bool) : Bool :=
      e.2.2.1.isNone || (["bs", "ibs", "obs", "cbs"].contains e.1 && e.2.2.1 == some 0)
    let lists := [("conv", "invalid conversion"), ("iflag", "invalid input flag"),
      ("oflag", "invalid output flag")]
    let wrongWord? := lists.findSome? fun (name, message) =>
      ((operands.listOf name).find? fun w => !(blockWords name).contains w).map fun w =>
        message ++ ": '" ++ w ++ "'"
    let status := (operands.value? "status").getD ""
    let wrongWord? := wrongWord?.or (if ["", "none", "noxfer", "progress"].contains status then none
      else some ("invalid status level: '" ++ status ++ "'"))
    match wrongWord?, sizes.find? isWrong with
    | some message, _ =>
      misuse "dd" message
      return 1
    | none, some (_, s, _, _) =>
      Act.complain ("dd: invalid number: '" ++ s ++ "'")
      return 1
    | none, none =>
      let size? (name : String) : Option Nat := (sizes.lookup name).bind (·.2.1)
      let conv := operands.listOf "conv"
      let size := max 1 ((size? "bs").getD ((size? "ibs").getD 512))
      let outSize := max 1 ((size? "bs").getD ((size? "obs").getD 512))
      let isFull := (operands.listOf "iflag").contains "fullblock"
      let inBytes := (sizes.lookup "count").any (·.2.2) || (operands.listOf "iflag").contains "count_bytes"
      let p ← get
      let source ←
        match operands.value? "if" with
        | some path => Act.openPath path .read
        | none => pure (match p.streams.lookup 0 with | some id => .ok id | none => .error .missing)
      match source with
      | .error r =>
        Act.complain ("dd: failed to open '" ++ (operands.value? "if").getD "standard input" ++ "': " ++ r.reason)
        return 1
      | .ok source =>
        modify (·.hold source)
        let seek := ((size? "seek").orElse fun _ => size? "oseek").getD 0
        let isKept := conv.contains "notrunc" || seek ≠ 0
        let isAppending := (operands.listOf "oflag").contains "append"
        let mode := if isAppending then OpenMode.append else if isKept then .update else .replace
        let target ←
          match operands.value? "of" with
          | some path =>
            let isThere := ((← get).node? path).isSome
            if conv.contains "excl" && isThere then pure (.error .present)
            else if conv.contains "nocreat" && !isThere then pure (.error .missing)
            else Act.openPath path mode
          | none => pure (match p.streams.lookup 1 with | some id => .ok id | none => .error .missing)
        match target with
        | .error r =>
          modify (·.release source)
          Act.complain ("dd: failed to open '" ++ (operands.value? "of").getD "standard output" ++ "': " ++ r.reason)
          return 1
        | .ok target =>
          modify (·.hold target)
          if seek ≠ 0 then
            Act.advance target (seek * outSize)
            -- what comes after the place is gone
            if !conv.contains "notrunc" then
              let m := (← get).machine
              match m.stream target with
              | .file number offset _ =>
                if let some f := m.fileOf? number then
                  let filled := f.content ++ ⟨Array.replicate (offset - f.content.size) 0⟩
                  modify fun p =>
                    { p with machine := p.machine.update { f with content := filled.extract 0 offset } }
              | _ => pure ()
          let skip := ((size? "skip").orElse fun _ => size? "iseek").getD 0
          let skipUnit := if (operands.listOf "iflag").contains "skip_bytes" ||
            (sizes.lookup "skip").any (·.2.2) then 1 else size
          let isReadable := ((← get).machine.rest? source 0).isSome
          if skip ≠ 0 then
            let _ ← readBlock source (skip * skipUnit) true Act.patience .empty
          let width := (size? "cbs").getD 0
          let counts ←
            if width ≠ 0 && (conv.contains "block" || conv.contains "unblock") then
              let bytes ← readBlock source 0x10000000000 true Act.patience .empty
              let out := Raw.toBytes (reblocked conv width (Raw.ofBytes bytes))
              let _ ← Act.writeStream target Act.patience (converted (conv.filter (· ≠ "sync")) size out)
              pure { whole := bytes.size / size, part := if bytes.size % size = 0 then 0 else 1, bytes := out.size }
            else copyBlocks source target size isFull inBytes conv Act.patience (size? "count") {}
          modify (·.release source)
          modify (·.release target)
          if !isReadable then
            Act.complain ("dd: error reading '" ++ (operands.value? "if").getD "standard input" ++
              "': Is a directory")
          tellBlocks status (if (size? "bs").isSome then none else some outSize) counts
          return if isReadable then 0 else 1

/-! ## Cutting into files -/

/-- The name of the part of a number, in so many letters or digits. -/
def partName (alphabet : List Char) (width n : Nat) : String :=
  String.ofList ((List.range width).map fun i =>
    alphabet.getD (n / Nat.pow alphabet.length (width - 1 - i) % alphabet.length) 'z')

/-- The parts of a text that have at most so many lines. -/
def lineParts (count : Nat) (ls : List (List Char)) : (bound : Nat) → List (List Char)
  | 0 => []
  | bound + 1 =>
    if ls.isEmpty then [] else (ls.take count).flatten :: lineParts count (ls.drop count) bound

/-- The parts of a text that have at most so many characters. -/
def byteParts (count : Nat) (s : List Char) : (bound : Nat) → List (List Char)
  | 0 => []
  | bound + 1 => if s.isEmpty then [] else s.take count :: byteParts count (s.drop count) bound

/-- The parts of whole lines that have at most so many characters, as far as lines are not
    longer than that. -/
def fittingParts (count : Nat) (ls : List (List Char)) : List (List Char) :=
  let (last, done) := ls.foldl (fun ((part : List Char), (done : List (List Char))) l =>
    if part.length + l.length ≤ count then (part ++ l, done)
    else
      let pieces := byteParts count l (l.length + 1)
      let done := if part.isEmpty then done else part :: done
      (pieces.getLast?.getD [], pieces.dropLast.reverse ++ done)) ([], [])
  (if last.isEmpty then done else last :: done).reverse

/-- The lines of a text with their ends. -/
def wholeLines (text : String) : List (List Char) :=
  let ls := (lines text).map (· ++ ['\n'])
  if isCutOff text then ls.dropLast ++ (ls.getLast?.map List.dropLast).toList else ls

/-- How a text is cut into so many parts: into equal ones, into equal ones of whole lines, or
    line by line in turn. -/
inductive Shares where
  | equal
  | lines
  | inTurn
  deriving DecidableEq, Repr, Inhabited

/-- The parts of a text in so many files. -/
def equalParts (count : Nat) (shares : Shares) (text : String) : List (List Char) :=
  let s := text.toList
  let size := s.length / count
  if shares = .inTurn then
    let ls := (wholeLines text).zipIdx
    (List.range count).map fun i => (ls.filter (·.2 % count == i)).flatMap (·.1)
  else if shares = .equal then
    let extra := s.length % count
    let starts := (List.range (count + 1)).map fun i => i * size + min i extra
    (starts.zip (starts.drop 1)).map fun (a, b) => (s.drop a).take (b - a)
  else
    -- a line belongs to the part that its beginning lies in
    let size := max size 1
    let placed := (wholeLines text).foldl (fun ((place : Nat), (ls : List (Nat × List Char))) l =>
      (place + l.length, (min (place / size) (count - 1), l) :: ls)) (0, [])
    (List.range count).map fun i =>
      ((placed.2.reverse.filter (·.1 == i)).map (·.2)).flatten

/-- Cuts a content into files. -/
def split : Utility := fun args =>
  let args := asOption args
  withOptions "split" ⟨"dxeu", "lbCnaA", [("lines", 'l'), ("bytes", 'b'), ("line-bytes", 'C'),
    ("number", 'n'), ("suffix-length", 'a'), ("additional-suffix", 'A'), ("numeric-suffixes", 'd'),
    ("hex-suffixes", 'x'), ("elide-empty-files", 'e'), ("verbose", 'v')], true⟩ 1 (fun o => do
    let file := o.operands.headD "-"
    let lead := o.operands.getD 1 "x"
    match o.operands[2]? with
    | some extra =>
      misuse "split" ("extra operand '" ++ extra ++ "'")
      return 1
    | none =>
      let asked (c : Char) : Option (String × Option Nat) := (o.value? c).map fun s => (s, blockSize? s)
      let wrong (what s : String) : Act Nat := do
        Act.complain ("split: invalid number of " ++ what ++ ": '" ++ s ++ "'")
        return 1
      let parts : Except (Act Nat) (String → List (List Char)) :=
        match asked 'b', asked 'C', (o.value? 'n'), asked 'l' with
        | some (s, n), _, _, _ =>
          match n with
          | some (n + 1) => .ok fun text => byteParts (n + 1) text.toList (text.length + 1)
          | _ => .error (wrong "bytes" s)
        | _, some (s, n), _, _ =>
          match n with
          | some (n + 1) => .ok fun text => fittingParts (n + 1) (wholeLines text)
          | _ => .error (wrong "lines" s)
        | _, _, some s, _ =>
          let (shares, digits) : Shares × String :=
            match Text.dropLead? "l/" s, Text.dropLead? "r/" s with
            | some digits, _ => (.lines, digits)
            | _, some digits => (.inTurn, digits)
            | none, none => (.equal, s)
          match (Text.splitOn '/' digits).map Numeral.plain? with
          | [some (n + 1)] => .ok (equalParts (n + 1) shares)
          | [some (k + 1), some (n + 1)] =>
            if k ≤ n then .ok (equalParts (n + 1) shares) else .error (wrong "chunk" (toString (k + 1)))
          | _ => .error (wrong "chunks" digits)
        | _, _, _, some (s, n) =>
          match n with
          | some (n + 1) => .ok fun text =>
            let ls := wholeLines text
            lineParts (n + 1) ls (ls.length + 1)
          | _ => .error (wrong "lines" s)
        | _, _, _, _ => .ok fun text =>
          let ls := wholeLines text
          lineParts 1000 ls (ls.length + 1)
      -- one part of several can be asked for alone
      let chosen? : Option Nat :=
        (o.value? 'n').bind fun s =>
          match (Text.splitOn '/' s).filterMap Numeral.plain? with
          | [k, _] => some (k - 1)
          | _ => none
      let manners := (['l', 'b', 'C', 'n'].filter fun c => o.has c).length
      if 1 < manners then
        misuse "split" "cannot split in more than one way"
        return 1
      match parts with
      | .error act => act
      | .ok parts =>
        match ← Act.readFile (if file = "-" then "/dev/stdin" else file) with
        | .error r =>
          Act.complain (if r = .directory then "split: " ++ file ++ ": read error: Is a directory"
            else "split: cannot open '" ++ file ++ "' for reading: " ++ r.reason)
          return 1
        | .ok text =>
          let alphabet : List Char :=
            if o.has 'd' then "0123456789".toList
            else if o.has 'x' then "0123456789abcdef".toList
            else "abcdefghijklmnopqrstuvwxyz".toList
          let found := parts text
          let found := if o.has 'e' then found.filter (!·.isEmpty) else found
          if let some k := chosen? then
            Act.printBytes (Raw.toBytes (String.ofList (found.getD k [])))
            return 0
          let first := ((o.value? 'd').bind Numeral.plain?).getD 0
          let width := ((o.value? 'a').bind Numeral.plain?).getD 2
          let tail := (o.value? 'A').getD ""
          if Nat.pow alphabet.length width < found.length then
            Act.complain "split: output file suffixes exhausted"
          forEach (found.zipIdx.take (Nat.pow alphabet.length width)) fun (part, i) => do
            let path := lead ++ partName alphabet width (first + i) ++ tail
            if o.has 'v' then Act.print ("creating file '" ++ path ++ "'\n")
            match ← Act.openPath path .replace with
            | .ok id =>
              let _ ← Act.writeStream id Act.patience (Raw.toBytes (String.ofList part))
              return 0
            | .error r =>
              Act.complain ("split: " ++ path ++ ": " ++ r.reason)
              return 1) args
where
  /-- A hyphen and a number ask for so many lines. -/
  asOption (args : List String) : List String :=
    args.map fun arg =>
      match arg.toList with
      | '-' :: c :: rest => if c.isDigit then "-l" ++ String.ofList (c :: rest) else arg
      | _ => arg

end ParseBench.Utility
