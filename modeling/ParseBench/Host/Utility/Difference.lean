/-
  ParseBench.Host.Utility.Difference

  Telling how files and directories differ.
-/

import ParseBench.Host.Shell.Pattern
import ParseBench.Host.Utility.Blocks
import ParseBench.Host.Utility.Names
import ParseBench.Text.Edits

namespace ParseBench.Utility

namespace Difference

/-- A line with its end, and what counts of it when it is compared. -/
structure Line where
  text : List Char
  key : List Char
  deriving Inhabited

instance : BEq Line where
  beq a b := a.key == b.key

/-- A text with each run of blanks as one, and without those at its end. -/
def squeezedBlanks : List Char → List Char
  | [] => []
  | c :: rest =>
    if c = ' ' || c = '\t' then
      match squeezedBlanks rest with
      | ' ' :: more => ' ' :: more
      | [] => []
      | more => ' ' :: more
    else c :: squeezedBlanks rest

/-- A line with blanks in the place of tabs. -/
def untabbed (column : Nat) : List Char → List Char
  | [] => []
  | '\t' :: rest =>
    let width := 8 - column % 8
    List.replicate width ' ' ++ untabbed (column + width) rest
  | c :: rest => c :: untabbed (column + 1) rest

/-- The line of a text. -/
def Line.ofText (o : Options) (text : List Char) : Line :=
  let isBlank (c : Char) : Bool := c == ' ' || c == '\t'
  let bare := if text.getLast? = some '\n' then text.dropLast else text
  let bare := if o.has 'R' && bare.getLast? = some '\r' then bare.dropLast else bare
  let bare := if o.has 'E' then untabbed 0 bare else bare
  let key :=
    if o.has 'w' then bare.filter (!isBlank ·)
    else if o.has 'b' then squeezedBlanks bare
    else if o.has 'Z' then Text.trimRightWhere isBlank bare
    else if o.has 'E' || o.has 'R' then bare
    else text
  ⟨if o.has 't' then untabbed 0 text else text, if o.has 'i' then key.map Char.toLower else key⟩

/-- A line with a lead. A line without its end is marked. -/
def Line.shown (lead : String) (l : Line) : String :=
  let s := lead ++ String.ofList l.text
  if l.text.getLast? = some '\n' then s else s ++ "\n\\ No newline at end of file\n"

/-- A range of places that begins after the first one. -/
def range (start stop : Nat) : String :=
  if start = stop then toString start
  else if start + 1 = stop then toString stop
  else toString (start + 1) ++ "," ++ toString stop

/-- The usual text of changes. -/
def plainText (xs ys : Array Line) (changes : List Edits.Change) : String :=
  String.join (changes.map fun c =>
    let gone := xs.extract c.xStart c.xStop
    let come := ys.extract c.yStart c.yStop
    let letter := if gone.isEmpty then "a" else if come.isEmpty then "d" else "c"
    range c.xStart c.xStop ++ letter ++ range c.yStart c.yStop ++ "\n" ++
      String.join (gone.toList.map (Line.shown "< ")) ++
      (if gone.isEmpty || come.isEmpty then "" else "---\n") ++
      String.join (come.toList.map (Line.shown "> ")))

/-- Changes in groups with so few lines between them that they are shown together. -/
def grouped (between : Nat) : List Edits.Change → List (List Edits.Change)
  | [] => []
  | c :: rest =>
    match grouped between rest with
    | (d :: group) :: groups =>
      if d.xStart - c.xStop ≤ between then (c :: d :: group) :: groups else [c] :: (d :: group) :: groups
    | groups => [c] :: groups

/-- A place and a count of lines. -/
def hunkRange (start stop : Nat) : String :=
  let count := stop - start
  if count = 1 then toString (start + 1)
  else toString (if count = 0 then start else start + 1) ++ "," ++ toString count

/-- The text of changes with the lines around them. -/
def hunkText (context : Nat) (xs ys : Array Line) (changes : List Edits.Change) : String :=
  String.join ((grouped (2 * context) changes).map fun group =>
    let first := group.headD default
    let last := group.getLast?.getD default
    let before := min context first.xStart
    let after := min context (xs.size - last.xStop)
    let head := "@@ -" ++ hunkRange (first.xStart - before) (last.xStop + after) ++ " +" ++
      hunkRange (first.yStart - before) (last.yStop + after) ++ " @@\n"
    let same (start stop : Nat) : String :=
      String.join ((xs.extract start stop).toList.map (Line.shown " "))
    let body := group.foldl (fun ((out : String), (place : Nat)) c =>
      let gone := String.join ((xs.extract c.xStart c.xStop).toList.map (Line.shown "-"))
      let come := String.join ((ys.extract c.yStart c.yStop).toList.map (Line.shown "+"))
      (out ++ same place c.xStart ++ gone ++ come, c.xStop)) ("", first.xStart - before)
    head ++ body.1 ++ same last.xStop (last.xStop + after))

/-- A place and another one for lines that are shown with a header. -/
def sectionRange (start stop : Nat) : String :=
  if start + 1 < stop then toString (start + 1) ++ "," ++ toString stop
  else toString stop

/-- The text of changes with the lines around them, those of each file together. -/
def sectionText (context : Nat) (xs ys : Array Line) (changes : List Edits.Change) : String :=
  String.join ((grouped (2 * context) changes).map fun group =>
    let first := group.headD default
    let last := group.getLast?.getD default
    let before := min context first.xStart
    let after := min context (xs.size - last.xStop)
    let part (lines : Array Line) (one : Char) (start stop : Nat)
        (places : Edits.Change → Nat × Nat) : String :=
      let body := group.foldl (fun ((out : String), (place : Nat)) c =>
        let (changeStart, changeStop) := places c
        let isBoth := c.xStart < c.xStop && c.yStart < c.yStop
        let lead := String.ofList [if isBoth then '!' else one, ' ']
        (out ++ String.join ((lines.extract place changeStart).toList.map (Line.shown "  ")) ++
          String.join ((lines.extract changeStart changeStop).toList.map (Line.shown lead)),
          changeStop)) ("", start)
      -- a file in which nothing changes is not shown
      if group.all fun c => (places c).1 = (places c).2 then ""
      else body.1 ++ String.join ((lines.extract body.2 stop).toList.map (Line.shown "  "))
    let xStart := first.xStart - before
    let xStop := last.xStop + after
    let yStart := first.yStart - before
    let yStop := last.yStop + after
    "***************\n*** " ++ sectionRange xStart xStop ++ " ****\n" ++
      part xs '-' xStart xStop (fun c => (c.xStart, c.xStop)) ++
      "--- " ++ sectionRange yStart yStop ++ " ----\n" ++
      part ys '+' yStart yStop (fun c => (c.yStart, c.yStop)))

/-- The commands of an editor that make the changes, from the end on. -/
def commandText (ys : Array Line) (changes : List Edits.Change) : String :=
  String.join (changes.reverse.map fun c =>
    let come := ys.extract c.yStart c.yStop
    let letter := if c.xStart = c.xStop then "a" else if come.isEmpty then "d" else "c"
    range c.xStart c.xStop ++ letter ++ "\n" ++
      (if come.isEmpty then ""
      else String.join (come.toList.map (Line.shown "")) ++ ".\n"))

/-- The changes with counts of lines. -/
def countedText (ys : Array Line) (changes : List Edits.Change) : String :=
  String.join (changes.map fun c =>
    let gone := c.xStop - c.xStart
    let come := ys.extract c.yStart c.yStop
    (if gone = 0 then "" else "d" ++ toString (c.xStart + 1) ++ " " ++ toString gone ++ "\n") ++
      (if come.isEmpty then ""
      else "a" ++ toString c.xStop ++ " " ++ toString come.size ++ "\n" ++
        String.join (come.toList.map fun l => String.ofList l.text)))

/-- In which way changes are told. -/
inductive Style where
  | plain
  | hunks (context : Nat)
  | sections (context : Nat)
  | commands
  | counted
  deriving DecidableEq, Repr, Inhabited

/-- The way that options ask for. -/
def Style.ofOptions (o : Options) : Style :=
  let digits := (o.flags.map (·.1)).filter Char.isDigit
  let asked (c wide : Char) : Option Nat :=
    ((o.value? wide).or ((o.value? c).filter (· ≠ ""))).bind Numeral.plain?
  let context (n? : Option Nat) : Nat :=
    n?.getD (if digits.isEmpty then 3 else Numeral.value 10 digits)
  if o.has 'u' || o.has 'U' then .hunks (context (asked 'u' 'U'))
  else if o.has 'c' || o.has 'C' then .sections (context (asked 'c' 'C'))
  else if o.has 'e' then .commands
  else if o.has 'n' then .counted
  else .plain

/-- How files are compared. -/
structure Request where
  options : Options
  style : Style
  /-- What is said before the differences of files in directories. -/
  call : String
  deriving Inhabited

/-- Does a change count? Empty lines may not. -/
def counts (o : Options) (xs ys : Array Line) (c : Edits.Change) : Bool :=
  !o.has 'B' || (xs.extract c.xStart c.xStop ++ ys.extract c.yStart c.yStop).any fun l => l.text ≠ ['\n']

/-- Tells how two contents differ, and yields whether they do. -/
def tellContents (r : Request) (inside : Bool) (left right : String) (a b : String) : Act Nat := do
  let o := r.options
  let same : Act Nat := do
    if o.has 's' then Act.print ("Files " ++ left ++ " and " ++ right ++ " are identical\n")
    return 0
  if a = b then same
  else
    let title : Act Unit := do
      if inside && !o.has 'q' then Act.print (r.call ++ " " ++ left ++ " " ++ right ++ "\n")
    if !o.has 'a' && (a.toList.contains '\x00' || b.toList.contains '\x00') then
      let lead := if o.has 'q' then "Files " else "Binary files "
      Act.print (lead ++ left ++ " and " ++ right ++ " differ\n")
      return 1
    let xs := ((wholeLines a).map (Line.ofText o)).toArray
    let ys := ((wholeLines b).map (Line.ofText o)).toArray
    let changes := (Edits.ofSequences xs ys).changes.filter (counts o xs ys)
    if changes.isEmpty then same
    else if o.has 'q' then
      Act.print ("Files " ++ left ++ " and " ++ right ++ " differ\n")
      return 1
    else
      title
      let labels := (o.flags.filter (·.1 == 'L')).map (·.2)
      let header (i : Nat) (path : String) : String :=
        (labels[i]?).getD (path ++ "\t1970-01-01 00:00:00.000000000 +0000")
      let headers (first second : String) : String :=
        first ++ header 0 left ++ "\n" ++ second ++ header 1 right ++ "\n"
      Act.print (match r.style with
        | .plain => plainText xs ys changes
        | .commands => commandText ys changes
        | .counted => countedText ys changes
        | .hunks context => headers "--- " "+++ " ++ hunkText context xs ys changes
        | .sections context => headers "*** " "--- " ++ sectionText context xs ys changes)
      return 1

/-- The content of a file, or nothing for one that is missing and may be. -/
def contentIn (r : Request) (path : String) : Act (Except Refusal String) := do
  match ← Act.readFile (if path = "-" then "/dev/stdin" else path) with
  | .error .missing => return if r.options.has 'N' then .ok "" else .error .missing
  | result => return result

/-- What is at a path, in words. -/
def nodeWords : Process.Node → String
  | .directory => "directory"
  | .file f => if f.content.isEmpty then "regular empty file" else "regular file"
  | .link _ => "symbolic link"
  | .pipe => "fifo"
  | .device => "character special file"
  | .program => "regular file"

/-- Compares what is at two paths. Directories are gone through at most `bound` levels deep. -/
def compare (r : Request) : (bound : Nat) → (inside : Bool) → String → String → Act Nat
  | 0, _, _, _ => return 2
  | bound + 1, inside, left, right => do
    let p ← get
    let o := r.options
    match p.node? left, p.node? right with
    | some .directory, some .directory =>
      if inside && !o.has 'r' then
        Act.print ("Common subdirectories: " ++ left ++ " and " ++ right ++ "\n")
        return 0
      let isLeftOut (name : String) : Bool :=
        (o.flags.filter (·.1 == 'x')).any fun e =>
          (Shell.Pattern.ofPlain e.2).matchesText name
      let a := (p.names left).filter (!isLeftOut ·)
      let b := (p.names right).filter (!isLeftOut ·)
      forEach (Ordered.ofList (a ++ b)) fun name => do
        let only (dir : String) : Act Nat := do
          Act.print ("Only in " ++ Process.withoutSlashes dir ++ ": " ++ name ++ "\n")
          return 1
        if !b.contains name && !o.has 'N' then only left
        else if !a.contains name && !o.has 'N' then only right
        else compare r bound true (inDirectory left name) (inDirectory right name)
    | some .directory, some node =>
      if inside then
        Act.print ("File " ++ left ++ " is a directory while file " ++ right ++ " is a " ++ nodeWords node ++ "\n")
        return 1
      else compare r bound false (inDirectory left (lastName right)) right
    | some node, some .directory =>
      if inside then
        Act.print ("File " ++ left ++ " is a " ++ nodeWords node ++ " while file " ++ right ++ " is a directory\n")
        return 1
      else compare r bound false left (inDirectory right (lastName left))
    | _, _ =>
      let a ← contentIn r left
      let b ← contentIn r right
      let complain (path : String) (reason : Refusal) : Act Unit :=
        Act.complain ("diff: " ++ path ++ ": " ++ reason.reason)
      match a, b with
      | .ok a, .ok b => tellContents r inside left right a b
      | a, b =>
        if let .error reason := a then complain left reason
        if let .error reason := b then complain right reason
        return 2

end Difference

/-- Tells how files and directories differ. -/
def diff : Utility := fun args =>
  withOptions "diff" ⟨"ucenqsriwbBNaZEdtT0123456789", "ULCx", [("context", 'c'), ("ed", 'e'), ("rcs", 'n'),
    ("exclude", 'x'), ("expand-tabs", 't'), ("ignore-tab-expansion", 'E'), ("normal", 'p'),
    ("strip-trailing-cr", 'R'), ("unified", 'u'), ("brief", 'q'), ("report-identical-files", 's'),
    ("recursive", 'r'), ("ignore-case", 'i'), ("ignore-all-space", 'w'), ("ignore-space-change", 'b'),
    ("ignore-blank-lines", 'B'), ("new-file", 'N'), ("text", 'a'), ("label", 'L'), ("minimal", 'd'),
    ("ignore-trailing-space", 'Z')], true⟩ 2 (fun o => do
    match o.operands with
    | [] =>
      misuse "diff" "missing operand after 'diff'"
      return 2
    | [only] =>
      misuse "diff" ("missing operand after '" ++ only ++ "'")
      return 2
    | [left, right] =>
      let call := Text.join " " ("diff" :: args.filter fun a => !o.operands.contains a)
      let levels := (← get).machine.files.entries.length + 2
      Difference.compare ⟨o, .ofOptions o, call⟩ levels false left right
    | _ :: _ :: extra :: _ =>
      misuse "diff" ("extra operand '" ++ extra ++ "'")
      return 2) args

end ParseBench.Utility
