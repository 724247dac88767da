/-
  ParseBench.Host.Utility.Details

  Telling what is known of a file, in a format that says what is wanted.
-/

import ParseBench.Host.Utility.Listing
import ParseBench.Host.Utility.Printing

namespace ParseBench.Utility

namespace Listed

/-- What kind of file it is, in words. -/
def kindWords (i : Listed) : String :=
  match i.node with
  | .directory => "directory"
  | .file f => if f.content.isEmpty then "regular empty file" else "regular file"
  | .link _ => "symbolic link"
  | .pipe => "fifo"
  | .device => "character special file"
  | .program => "regular file"

/-- The rights as a number. -/
def rightsNumber (i : Listed) : Nat :=
  (i.rights.toList.drop 1).foldl (fun n c => 2 * n + if c = '-' then 0 else 1) 0

/-- The number of the kind, which stands before the rights. -/
def kindNumber (i : Listed) : Nat :=
  match i.node with
  | .directory => 4
  | .file _ | .program => 8
  | .link _ => 10
  | .pipe => 1
  | .device => 2

/-- The name in quotes, and where it leads. -/
def quoted (i : Listed) : String :=
  let inQuotes (s : String) : String := "'" ++ s ++ "'"
  match i.node with
  | .link target => inQuotes i.name ++ " -> " ++ inQuotes target
  | _ => inQuotes i.name

/-- The number that tells the file from others. -/
def number (t : FileTree) (i : Listed) : Nat :=
  match i.node, t.get? i.location with
  | .file f, _ => f.number + 1
  | _, some (.pipe n) => n + 1
  | _, _ => 1000000 + (t.entries.takeWhile (·.1 ≠ i.location)).length

/-- A moment that nobody has noted. -/
def noMoment : String := "1970-01-01 00:00:00.000000000 +0000"

/-- What a letter of a format stands for. -/
def detail? (t : FileTree) (i : Listed) (c : Char) : Option String :=
  match c with
  | 'n' => some i.name
  | 'N' => some i.quoted
  | 's' => some (toString i.size)
  | 'F' => some i.kindWords
  | 'a' => some (String.ofList (Nat.toDigits 8 i.rightsNumber))
  | 'A' => some i.rights
  | 'f' => some (String.ofList (Nat.toDigits 16 (i.kindNumber * 4096 + i.rightsNumber)))
  | 'h' => some (toString (i.nameCount t))
  | 'i' => some (toString (i.number t))
  | 'U' | 'G' => some "root"
  | 'u' | 'g' | 'W' | 'X' | 'Y' | 'Z' | 't' | 'T' => some "0"
  | 'w' => some "-"
  | 'x' | 'y' | 'z' => some noMoment
  | 'b' => some (toString (2 * i.units))
  | 'B' => some "512"
  | 'o' => some "4096"
  | 'm' => some "/"
  | 'd' => some "1"
  | 'D' => some "1"
  | 'C' => some "?"
  | _ => none

/-- A format filled in for a file, at most `bound` parts of it. Escapes are replaced if `escapes`
    says so. -/
def filledIn (t : FileTree) (i : Listed) (escapes : Bool) : (bound : Nat) → List Char → String
  | 0, _ => ""
  | _ + 1, [] => ""
  | bound + 1, '%' :: '%' :: rest => "%" ++ filledIn t i escapes bound rest
  | bound + 1, '%' :: rest =>
    let signs := rest.takeWhile fun c => "#-+ 0'".toList.contains c
    let rest := rest.drop signs.length
    let width := rest.takeWhile Char.isDigit
    let rest := rest.drop width.length
    let (precision, rest) : Option Nat × List Char :=
      match rest with
      | '.' :: later =>
        let digits := later.takeWhile Char.isDigit
        (some (Numeral.value 10 digits), later.drop digits.length)
      | rest => (none, rest)
    let layout : Layout := ⟨signs, Numeral.value 10 width, precision⟩
    match rest with
    | [] => "%"
    | c :: rest =>
      let shown :=
        match i.detail? t c with
        | none => "?"
        | some s =>
          if s.all Char.isDigit then layout.number "" (layout.extended s) precision.isSome
          else layout.text s
      shown ++ filledIn t i escapes bound rest
  | bound + 1, '\\' :: rest =>
    if escapes then
      let (c, later) := escape rest
      String.singleton c ++ filledIn t i escapes bound later
    else "\\" ++ filledIn t i escapes bound rest
  | bound + 1, c :: rest => String.singleton c ++ filledIn t i escapes bound rest

end Listed

/-- What is told of a file after its name when nothing is asked for. -/
def usualDetails : String :=
  "\n  Size: %-10s\tBlocks: %-10b IO Block: %-6o %F\nDevice: 0,1\tInode: %-11i Links: %h\n" ++
    "Access: (%04a/%A)  Uid: (    0/    root)   Gid: (    0/    root)\nAccess: %x\nModify: %y\n" ++
    "Change: %z\n Birth: %w\n"

/-- What is told of a file in few words. -/
def terseDetails : String :=
  "%n %s %b %f %u %g 1 %i %h %t %T %X %Y %Z %W %o\n"

/-- Tells what is known of files. -/
def stat : Utility :=
  withOptions "stat" ⟨"Lft", "cE", [("dereference", 'L'), ("format", 'c'), ("printf", 'E'), ("terse", 't'),
    ("file-system", 'f')], true⟩ 1 fun o => do
    if o.operands.isEmpty then
      misuse "stat" "missing operand"
      return 1
    let wanted := o.flags.reverse.find? fun e => e.1 == 'c' || e.1 == 'E'
    let (format, escapes) : String × Bool :=
      match wanted with
      | some (letter, format) => (format, letter = 'E')
      | none => (if o.has 't' then terseDetails else usualDetails, false)
    forEach o.operands fun path => do
      let p ← get
      let found := if o.has 'L' then p.node path else p.nameNode path
      let location := if o.has 'L' then p.locate path else p.locateName path
      -- a hyphen stands for what the input comes from
      let found := if path = "-" && (p.streams.lookup 0).isSome then p.node "/dev/stdin" else found
      match found with
      | .error r =>
        Act.complain ("stat: cannot statx '" ++ path ++ "': " ++ r.reason)
        return 1
      | .ok node =>
        let i : Listed := ⟨path, node, location.toOption.getD []⟩
        if wanted.isNone && !o.has 't' then
          let arrow := match node with
            | .link target => " -> " ++ target
            | _ => ""
          Act.print ("  File: " ++ path ++ arrow)
        Act.print (i.filledIn p.machine.files escapes (format.length + 1) format.toList)
        if (wanted.map (·.1)) = some 'c' then Act.print "\n"
        return 0

end ParseBench.Utility
