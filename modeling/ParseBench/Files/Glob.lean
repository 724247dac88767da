/-
  ParseBench.Files.Glob

  File name patterns. `?` is one byte and `*` any bytes, `[ab]`, `[a-c]` and
  `[!a]` are one byte out of a class, braces hold alternatives between commas, a
  backslash takes the next character as it is, and a part that is `**` alone
  stands for any number of directories.
-/

import ParseBench.Files.Name
import ParseBench.Text.Pattern

namespace ParseBench

namespace Glob

/-! ## Parts of a pattern -/

/-- The parts of a file name pattern. -/
inductive Part where
  | literal (c : Char)
  | anyByte
  | anyText
  /-- `**` and the slash after it, at the beginning. -/
  | leadingDirs
  /-- A slash and `**`, at the end. -/
  | trailingDirs
  /-- `**` between two slashes. -/
  | innerDirs
  | group (negated : Bool) (ranges : List (Char × Char))
  | alternatives (branches : List (List Part))
  deriving Repr, Inhabited

/-! ## Reading -/

/-- The branches of the alternatives that are open, the innermost first: the finished
    ones, and the parts of the current one, both back to front. -/
structure Open where
  finished : List (List Part)
  current : List Part
  deriving Inhabited

/-- The state of reading: the innermost branch, the branches around it, and the last
    character that was read. -/
structure Reading where
  inner : Open
  outer : List Open
  last : Option Char
  deriving Inhabited

namespace Reading

/-- Nothing has been read. -/
def start : Reading := ⟨⟨[], []⟩, [], none⟩

/-- A part is added to the current branch. -/
def push (r : Reading) (p : Part) : Reading :=
  { r with inner := { r.inner with current := p :: r.inner.current } }

/-- The last part of the current branch is replaced. -/
def replaceLast (r : Reading) (p : Part) : Reading :=
  { r with inner := { r.inner with current := p :: r.inner.current.drop 1 } }

/-- Alternatives are opened. -/
def openBranches (r : Reading) : Reading :=
  { r with inner := ⟨[], []⟩, outer := r.inner :: r.outer }

/-- The branches of the innermost alternatives, in order. -/
def branches (o : Open) : List (List Part) :=
  ((o.current.reverse) :: o.finished).reverse

/-- Alternatives are closed. -/
def closeBranches? (r : Reading) : Option Reading :=
  match r.outer with
  | [] => none
  | o :: outer => some (({ r with inner := o, outer } : Reading).push (.alternatives (branches r.inner)))

/-- A comma: the next branch of the innermost alternatives, or a comma outside of them. -/
def comma (r : Reading) : Reading :=
  if r.outer.isEmpty then r.push (.literal ',')
  else { r with inner := ⟨r.inner.current.reverse :: r.inner.finished, []⟩ }

/-- May two stars that are not at the beginning stand for directories? What was read last is
    a slash, or inside of alternatives a comma or brace that a backslash took as it is. -/
def afterBoundary (r : Reading) : Bool :=
  r.last == some '/' || (!r.outer.isEmpty && (r.last == some ',' || r.last == some '\x7b'))

/-- Two stars with what follows them. They stand for directories where they are a part of
    their own, and for two times any text elsewhere. Yields what is still to be read. -/
def twoStars (r : Reading) (rest : List Char) : Reading × List Char :=
  let asText := (r.push .anyText).push .anyText
  let closes : Bool :=
    match rest with
    | ',' :: _ => !r.outer.isEmpty
    | '\x7d' :: _ => !r.outer.isEmpty
    | [] => true
    | _ => false
  if r.inner.current.isEmpty then
    -- at the beginning of a pattern or of a branch
    match rest with
    | [] => (r.push .leadingDirs, [])
    | '/' :: rest => (r.push .leadingDirs, rest)
    | _ => (asText, rest)
  else if !r.afterBoundary then (asText, rest)
  else if closes then
    -- the slash before the stars becomes a part of them
    match r.inner.current.head? with
    | some .leadingDirs => (r, rest)
    | some .trailingDirs => (r, rest)
    | _ => (r.replaceLast .trailingDirs, rest)
  else
    match rest with
    | '/' :: rest =>
      match r.inner.current.head? with
      | some .leadingDirs => (r, rest)
      | some .trailingDirs => (r, rest)
      | _ => (r.replaceLast .innerDirs, rest)
    | _ => (asText, rest)

end Reading

/-- The ranges of a class with the upper end of the last one replaced, if it is not below
    the lower end. The ranges are back to front. -/
def extendLast? (c : Char) : List (Char × Char) → Option (List (Char × Char))
  | [] => none
  | (low, _) :: rest => if c < low then none else some ((low, c) :: rest)

/-- The ranges of a class up to its closing bracket, and what follows it. `first` says
    that no character has been read, `inRange` that a dash was the last one. A bracket that
    comes first, and a dash that comes first or last, stand for themselves. -/
def classBody? : Bool → Bool → List (Char × Char) → List Char →
    Option (List (Char × Char) × List Char)
  | _, _, _, [] => none
  | first, inRange, ranges, c :: rest =>
    if c = ']' then
      -- a class is never empty
      if first then classBody? false inRange ((']', ']') :: ranges) rest
      else some ((if inRange then ('-', '-') :: ranges else ranges).reverse, rest)
    else if c = '-' then
      if first then classBody? false inRange (('-', '-') :: ranges) rest
      else if inRange then do
        let ranges ← extendLast? '-' ranges
        classBody? false false ranges rest
      else classBody? false true ranges rest
    else if inRange then do
      let ranges ← extendLast? c ranges
      classBody? false false ranges rest
    else classBody? false false ((c, c) :: ranges) rest

/-- A class after its opening bracket, and what follows it. -/
def class? : List Char → Option (Part × List Char)
  | '!' :: rest => (classBody? true false [] rest).map fun r => (.group true r.1, r.2)
  | '^' :: rest => (classBody? true false [] rest).map fun r => (.group true r.1, r.2)
  | rest => (classBody? true false [] rest).map fun r => (.group false r.1, r.2)

/-- Reads at most `bound` parts of a pattern. -/
def read? : Nat → Reading → List Char → Option Reading
  | 0, r, _ => some r
  | _ + 1, r, [] => some r
  | bound + 1, r, c :: rest =>
    if c = '?' then read? bound { r.push .anyByte with last := some c } rest
    else if c = '*' then
      match rest with
      | '*' :: rest =>
        let (r, later) := r.twoStars rest
        -- a slash after the stars may have been taken with them
        let last := if later.length < rest.length then '/' else '*'
        read? bound { r with last := some last } later
      | rest => read? bound { r.push .anyText with last := some c } rest
    else if c = '[' then do
      let (part, rest) ← class? rest
      read? bound { r.push part with last := some ']' } rest
    else if c = '\x7b' then read? bound { r.openBranches with last := some c } rest
    else if c = '\x7d' then do
      let r ← r.closeBranches?
      read? bound { r with last := some c } rest
    else if c = ',' then read? bound { r.comma with last := some c } rest
    else if c = '\\' then
      match rest with
      | [] => none
      | escaped :: rest => read? bound { r.push (.literal escaped) with last := some escaped } rest
    else read? bound { r.push (.literal c) with last := some c } rest

/-- The parts of a pattern. Alternatives have to be closed. -/
def parts? (pattern : String) : Option (List Part) := do
  let r ← read? (pattern.length + 1) .start pattern.toList
  if r.outer.isEmpty then some r.inner.current.reverse else none

/-! ## Meaning -/

/-- The bytes of a character. -/
def utf8 (c : Char) : List UInt8 :=
  (String.singleton c).toUTF8.toList

/-- The byte ranges of a range of characters: of longer characters all bytes but the
    inner ends of the range stand for themselves. -/
def byteRanges (r : Char × Char) : List (UInt8 × UInt8) :=
  let single (b : UInt8) := (b, b)
  if r.1 = r.2 then (utf8 r.1).map single
  else
    match (utf8 r.1).reverse, utf8 r.2 with
    | low :: front, high :: back => front.reverse.map single ++ (low, high) :: back.map single
    | _, _ => []

/-- The byte of a slash. -/
def slash : Text.Pattern := .literal 47

/-- Any text and a slash after it. -/
def throughSlash : Text.Pattern := .thenMatch .anyText slash

mutual

/-- The meaning of a part. Branches of alternatives that say nothing are passed over, and if
    all do the alternatives say nothing. -/
def Part.pattern : Part → Text.Pattern
  | .literal c => .inOrder ((utf8 c).map .literal)
  | .anyByte => .anyByte
  | .anyText => .anyText
  | .leadingDirs => .oneOf [.empty, slash, throughSlash]
  | .trailingDirs => .thenMatch slash .anyText
  | .innerDirs => .thenMatch slash (.oneOf [.empty, throughSlash])
  | .group negated ranges => .byte negated (ranges.flatMap byteRanges)
  | .alternatives branches =>
    match Part.branchPatterns branches with
    | [] => .empty
    | patterns => .oneOf patterns

/-- The meaning of parts in order. -/
def Part.sequencePattern : List Part → Text.Pattern
  | [] => .empty
  | p :: rest => .thenMatch p.pattern (Part.sequencePattern rest)

/-- The meanings of the branches that say something. -/
def Part.branchPatterns : List (List Part) → List Text.Pattern
  | [] => []
  | branch :: rest =>
    match Part.sequencePattern branch with
    | .empty => Part.branchPatterns rest
    | p => p :: Part.branchPatterns rest

end

/-- The meaning of a pattern. Two stars alone are any text. -/
def pattern? (pattern : String) : Option Text.Pattern :=
  (parts? pattern).map fun parts =>
    match parts with
    | [.leadingDirs] => .anyText
    | parts => Part.sequencePattern parts

/-- Does the name match the meaning of a pattern? -/
def isMatch (p : Text.Pattern) (name : FileName) : Bool :=
  p.isMatch name.bytes

/-- Reads a pattern. -/
def reader : PatternReader := fun pattern =>
  (pattern? pattern).map isMatch

end Glob

end ParseBench
