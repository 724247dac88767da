/-
  ParseBench.Host.Utility.Search

  Looking for lines that match. The lines are gone through as they come, and what
  comes after the last one that is asked for is left for others.
-/

import ParseBench.Host.Utility.Intake
import ParseBench.Host.Utility.Regex

namespace ParseBench.Utility

namespace Search

/-- What is told of a file. -/
inductive Report where
  | lines
  /-- Each match on a line of its own. -/
  | matches
  | count
  | nothing
  /-- The name of the file if lines were found, or if none were. -/
  | fileName (found : Bool)
  deriving DecidableEq, Repr, Inhabited

/-- What is looked for, and how it is told. -/
structure Request where
  regex : Regex
  anyCase : Bool := false
  /-- Are the lines that do not match asked for? -/
  inverted : Bool := false
  report : Report := .lines
  /-- Is the name of the file told, and the number of the line, and its place? -/
  named : Bool := false
  numbered : Bool := false
  placed : Bool := false
  /-- The number of lines before and after a line that are shown with it. -/
  before : Nat := 0
  after : Nat := 0
  /-- Are gaps between lines marked? -/
  marksGaps : Bool := false
  /-- The greatest number of lines that are looked for. -/
  most : Option Nat := none
  /-- Is everything taken for text? -/
  asText : Bool := false
  /-- Is nothing said of files that cannot be read? -/
  silent : Bool := false
  /-- What the input is called. -/
  inputName : String := "(standard input)"
  lineEnd : Char := '\n'
  deriving Repr, Inhabited

/-- A line with its number and its place in the file. -/
structure Line where
  text : List Char
  number : Nat
  place : Nat
  deriving Repr, Inhabited

/-- The state of going through a file. -/
structure Looking where
  /-- The number of lines and of characters that were read. -/
  number : Nat := 0
  place : Nat := 0
  found : Nat := 0
  /-- The lines that were read last and not shown, last first. -/
  recent : List Line := []
  /-- The number of lines that are still shown with the one before them. -/
  due : Nat := 0
  /-- The number of the line that was shown last. -/
  shown : Option Nat := none
  /-- Was something shown before all that? -/
  gapDue : Bool := false
  /-- The number of characters that were read after the last line that was looked for. -/
  beyond : Nat := 0
  /-- Is the search over? -/
  isOver : Bool := false
  out : Outgoing := {}
  deriving Inhabited

namespace Request

/-- Does a line count? -/
def finds (r : Request) (line : List Char) : Bool :=
  r.regex.isIn r.anyCase line != r.inverted

/-- All matches in a line that are not empty, with their places. -/
def matchesIn (r : Request) : (bound : Nat) → List Char → List Char → List (List Char × Nat)
  | 0, _, _ => []
  | bound + 1, before, rest =>
    match r.regex.find? r.anyCase before rest with
    | none => []
    | some (start, stop) =>
      let taken := start.after.take (start.after.length - stop.after.length)
      if taken.isEmpty then
        match stop.after with
        | c :: rest => matchesIn r bound (c :: stop.before) rest
        | [] => []
      else (taken, start.before.length) :: matchesIn r bound stop.before stop.after

/-- What is written before a line. -/
def label (r : Request) (shown : String) (mark : Char) (number place : Nat) : List Char :=
  (if r.named then shown.toList ++ [mark] else []) ++
    (if r.numbered then (toString number).toList ++ [mark] else []) ++
    (if r.placed then (toString place).toList ++ [mark] else [])

/-- Writes a line. -/
def write (r : Request) (shown : String) (mark : Char) (line : Line) (l : Looking) : Act Looking := do
  let isGap := r.marksGaps && ((l.shown.map (decide <| · + 1 < line.number)).getD l.gapDue)
  let out ← if isGap then l.out.add "--\n".toList else pure l.out
  let out ← out.add (r.label shown mark line.number line.place ++ line.text ++ [r.lineEnd])
  return { l with out, shown := some line.number }

/-- Writes each match in a line. -/
def writeMatches (r : Request) (shown : String) (line : Line) (l : Looking) : Act Looking := do
  if r.inverted then return l
  let out ← (r.matchesIn (line.text.length + 2) [] line.text).foldlM (fun out (text, place) =>
    Outgoing.add out (r.label shown ':' line.number (line.place + place) ++ text ++ [r.lineEnd])) l.out
  return { l with out }

/-- Takes a line that counts. -/
def take (r : Request) (shown : String) (line : Line) (l : Looking) : Act Looking := do
  let l := { l with found := l.found + 1, beyond := 0 }
  let isLast := r.most = some l.found
  match r.report with
  | .count => return { l with isOver := isLast }
  | .nothing | .fileName _ => return { l with isOver := true }
  | .matches =>
    let l ← r.writeMatches shown line l
    return { l with isOver := isLast }
  | .lines =>
    let l ← l.recent.reverse.foldlM (fun l line => r.write shown '-' line l) l
    let l ← r.write shown ':' line l
    return { l with recent := [], due := r.after, isOver := isLast && r.after = 0 }

/-- Takes a line that does not count. -/
def pass (r : Request) (shown : String) (line : Line) (l : Looking) : Act Looking := do
  if r.report ≠ .lines then return l
  else if 0 < l.due then
    let l ← r.write shown '-' line l
    return { l with due := l.due - 1 }
  else return { l with recent := (line :: l.recent).take r.before }

/-- Takes the next line of a file. -/
def step (r : Request) (shown : String) (l : Looking) (line : List Char) : Act (Looking × Bool) := do
  let text := if line.getLast? = some r.lineEnd then line.dropLast else line
  let this : Line := ⟨text, l.number + 1, l.place⟩
  let l := { l with number := l.number + 1, place := l.place + line.length, beyond := l.beyond + line.length }
  -- the last line that was looked for may have lines that are shown with it
  let isSatisfied := r.most.any (· ≤ l.found)
  let l ← if !isSatisfied && r.finds text then r.take shown this l else r.pass shown this l
  let isSatisfied := r.most.any (· ≤ l.found)
  return (l, !l.isOver && !(isSatisfied && l.due = 0))

/-- Goes through the lines of a file. -/
def through (r : Request) (shown : String) : (bound : Nat) → Looking → Intake → Act (Looking × Intake)
  | 0, l, i => return (l, i)
  | bound + 1, l, i => do
    match ← Intake.lineUpTo? r.lineEnd Act.patience i with
    | (none, i) => return (l, i)
    | (some line, i) =>
      let (l, goesOn) ← r.step shown l line
      if goesOn then through r shown bound l i else return (l, i)

/-- Does the request tell of nothing but whether there is something? -/
def isShort (r : Request) : Bool :=
  match r.report with
  | .nothing | .fileName _ => true
  | _ => false

/-- Is a file looked through to its first line that counts, whatever is asked for? The name of a
    file is told then instead of lines that are not text. -/
def forUnreadable (r : Request) : Request :=
  match r.report with
  | .lines | .matches => { r with report := .nothing }
  | _ => r

/-- Looks through what a stream holds, after others unless it is the first. Yields the number of
    lines that were found. -/
def lookThrough (r : Request) (isFirst : Bool) (shown : String) (id : Nat) : Act Nat := do
  if r.most = some 0 then return 0
  let i ← Intake.more { stream := id }
  let isUnreadable := !r.asText && r.lineEnd = '\n' && i.rest.contains '\x00' &&
    (r.report = .lines || r.report = .matches)
  let asked := if isUnreadable then r.forUnreadable else r
  -- there is a gap also between the lines of two files
  let start : Looking := { gapDue := !isFirst }
  let (l, i) ← asked.through shown Act.patience start i
  let _ ← l.out.flush
  if isUnreadable && 0 < l.found then
    Act.complain ("grep: " ++ shown ++ ": binary file matches")
  -- what was not looked through is left for others only if it was not asked for
  if r.most.any (· ≤ l.found) && !asked.isShort then
    Act.giveBack i.stream (i.rest.length + l.beyond)
  else
    let p ← get
    match p.machine.stream id with
    | .input _ | .file .. =>
      let _ ← Act.drain id Act.patience .empty
    | _ => pure ()
  match r.report with
  | .count => Act.print (String.ofList (r.label shown ':' 0 0) ++ toString l.found ++ "\n")
  | .fileName found => if (0 < l.found) = found then Act.print (shown ++ "\n")
  | _ => pure ()
  return l.found

end Request

/-- The option letters of a search, which also say its form. -/
def options : OptionTable where
  plain := "EFGPivyclLnqsxwohHraRbzUTZ"
  valued := "efmABCNX"
  long := [("extended-regexp", 'E'), ("fixed-strings", 'F'), ("basic-regexp", 'G'), ("ignore-case", 'i'),
    ("invert-match", 'v'), ("count", 'c'), ("files-with-matches", 'l'), ("files-without-match", 'L'),
    ("line-number", 'n'), ("quiet", 'q'), ("silent", 'q'), ("no-messages", 's'), ("line-regexp", 'x'),
    ("word-regexp", 'w'), ("only-matching", 'o'), ("no-filename", 'h'), ("with-filename", 'H'),
    ("regexp", 'e'), ("file", 'f'), ("max-count", 'm'), ("after-context", 'A'), ("before-context", 'B'),
    ("context", 'C'), ("recursive", 'r'), ("text", 'a'), ("byte-offset", 'b'), ("null-data", 'z'),
    ("label", 'N'), ("line-buffered", 'U'), ("color", 'X'), ("colour", 'X')]

/-- The expression that a search with options is for. -/
def regexOf (o : Options) (extended literal : Bool) (patterns : List String) :
    Except Regex.Fault Regex := do
  let all ← (patterns.flatMap (Text.splitOn '\n')).mapM fun s =>
    if literal then return Regex.ofLiteral s.toList else Regex.ofText { extended } s
  -- without any pattern there is nothing that matches
  let r := match all with
    | [] => Regex.set false []
    | r :: rest => rest.foldl Regex.either r
  if o.has 'x' then return .sequence .lineStart (.sequence r .lineEnd)
  else if o.has 'w' then return .sequence .freshWord (.sequence r .wordOver)
  else return r

/-- The numbers that options have, or what is wrong with one of them. -/
def sizes (o : Options) : Except String (Option Nat × Nat × Nat) := do
  let most ←
    match o.value? 'm' with
    | none => pure none
    | some s =>
      match Numeral.decimal? s with
      | some n => pure (if n < 0 then none else some n.toNat)
      | none => throw "invalid max count"
  let context (c : Char) : Except String (Option Nat) :=
    match o.value? c with
    | none => return none
    | some s =>
      match Numeral.plain? s with
      | some n => return some n
      | none => throw (s ++ ": invalid context length argument")
  let both ← context 'C'
  let before ← context 'B'
  let after ← context 'A'
  return (most, (before.or both).getD 0, (after.or both).getD 0)

/-- The report that options ask for. -/
def reportOf (o : Options) : Report :=
  if o.has 'q' then .nothing
  else if o.has 'l' then .fileName true
  else if o.has 'L' then .fileName false
  else if o.has 'c' then .count
  else if o.has 'o' then .matches
  else .lines

/-- Looks through a file. Says whether lines were found, and whether the file could not be
    read. -/
def inFile (r : Request) (isFirst : Bool) (file : String) : Act (Nat × Bool) := do
  let p ← get
  let shown := if file = "-" then r.inputName else file
  let refused (reason : String) : Act (Nat × Bool) := do
    if !r.silent then Act.complain ("grep: " ++ shown ++ ": " ++ reason)
    return (0, true)
  let opened : Except String Nat ←
    if file = "-" then
      pure (match p.streams.lookup 0 with
        | some id => .ok id
        | none => .error "Bad file descriptor")
    else
      match ← Act.openPath file .read with
      | .ok id => pure (.ok id)
      | .error fault => pure (.error fault.reason)
  match opened with
  | .error reason => refused reason
  | .ok id =>
    if ((← get).machine.rest? id 0).isNone then refused "Is a directory"
    else
      modify (·.hold id)
      let found ← r.lookThrough isFirst shown id
      close id
      return (found, false)

/-- The files below a path, in order. -/
def filesBelow (p : Process) (path : String) : List String :=
  match p.locate path with
  | .error _ => [path]
  | .ok l =>
    if !p.isDirectory path then [path]
    else
      let below := (p.machine.files.below l).filterMap fun (k, e) =>
        match e with
        | .file _ => if k.isEmpty then none else some k
        | _ => none
      below.map fun names =>
        let rest := Text.join "/" (names.map FileName.toRaw)
        if path.endsWith "/" then path ++ rest else path ++ "/" ++ rest

/-- Looks through files one after the other, and not further if all that is asked for is whether
    there is something. -/
def inFiles (r : Request) : (isFirst : Bool) → List String → Act (Bool × Bool)
  | _, [] => return (false, false)
  | isFirst, file :: rest => do
    let (found, failed) ← inFile r isFirst file
    if 0 < found && r.report = .nothing then return (true, failed)
    let (foundLater, failedLater) ← inFiles r (isFirst && found = 0) rest
    return (0 < found || foundLater, failed || failedLater)

end Search

open Search in
/-- Writes the lines that match, or what is asked for of them. -/
def search (extended literal : Bool) : Utility := fun args =>
  -- a number is the size of the context
  let args := args.flatMap fun arg =>
    match arg.toList with
    | '-' :: digits =>
      if !digits.isEmpty && digits.all Char.isDigit then ["-C", String.ofList digits] else [arg]
    | _ => [arg]
  withOptions "grep" Search.options 2 (fun o => do
    let given := o.flags.filter fun f => f.1 == 'e' || f.1 == 'f'
    if given.isEmpty && o.operands.isEmpty then
      Act.complain "Usage: grep [OPTION]... PATTERNS [FILE]...\nTry 'grep --help' for more information."
      return 2
    let (patterns, files) : List (Char × String) × List String :=
      if given.isEmpty then ((o.operands.take 1).map ('e', ·), o.operands.drop 1)
      else (given, o.operands)
    let mut texts : List String := []
    for (c, s) in patterns do
      if c = 'e' then texts := texts ++ [s]
      else
        match ← contentOf? "grep" s with
        | some text => texts := texts ++ (lines text).map String.ofList
        | none => return 2
    match regexOf o (extended || o.has 'E' || o.has 'P') (literal || o.has 'F') texts, sizes o with
    | .error fault, _ =>
      Act.complain ("grep: " ++ fault.message)
      return 2
    | _, .error message =>
      Act.complain ("grep: " ++ message)
      return 2
    | .ok regex, .ok (most, before, after) =>
      let p ← get
      let isDeep := o.has 'r' || o.has 'R'
      let bare := isDeep && files.isEmpty
      let all :=
        if bare then (filesBelow p ".").map fun f => String.ofList (f.toList.drop 2)
        else if isDeep then files.flatMap (filesBelow p)
        else if files.isEmpty then ["-"] else files
      let r : Request := {
        regex, most, before, after
        anyCase := o.has 'i' || o.has 'y'
        inverted := o.has 'v'
        report := reportOf o
        named := (files.length > 1 || o.has 'H' || (isDeep && (bare || files.any p.isDirectory))) && !o.has 'h'
        numbered := o.has 'n'
        placed := o.has 'b'
        marksGaps := ['A', 'B', 'C'].any o.has
        asText := o.has 'a'
        silent := o.has 's'
        inputName := (o.value? 'N').getD "(standard input)"
        lineEnd := if o.has 'z' then '\x00' else '\n' }
      let (found, failed) ← inFiles r true all
      return if found && (r.report = .nothing || !failed) then 0 else if failed then 2 else 1) args

end ParseBench.Utility
