/-
  ParseBench.Host.Utility.EditScript

  Scripts that say how lines are edited: commands, each with the lines that it is
  for. A script is kept as a list of steps. Blocks and labels are places in it.
-/

import ParseBench.Host.Utility.Regex

namespace ParseBench.Utility

/-- What a line is looked through for. -/
structure Sought where
  regex : Regex
  anyCase : Bool := false
  deriving Repr, Inhabited

/-- Lines that can be meant. -/
inductive Address where
  | line (n : Nat)
  /-- A line and every so manieth line after it. -/
  | every (first step : Nat)
  | last
  /-- The lines that match. Nothing stands for what was looked for last. -/
  | matching (s : Option Sought)
  deriving Repr, Inhabited

/-- Where a range of lines ends. -/
inductive RangeEnd where
  | at (a : Address)
  /-- After a number of further lines. -/
  | further (count : Nat)
  /-- At a line whose number is a multiple. -/
  | multiple (n : Nat)
  deriving Repr, Inhabited

/-- How letters are written from some place on. -/
inductive Casing where
  | asIs
  | upper
  | lower
  /-- Only the next letter. -/
  | nextUpper
  | nextLower
  deriving DecidableEq, Repr, Inhabited

/-- A piece of what takes the place of a match. -/
inductive Replacement where
  | text (c : Char)
  /-- What a group matched, or the whole for zero. -/
  | group (n : Nat)
  | casing (c : Casing)
  deriving Repr, Inhabited

/-- A replacement of matches. -/
structure Substitution where
  /-- Nothing stands for what was looked for last. -/
  sought : Option Sought
  replacement : List Replacement
  /-- The first match that is replaced, counted from one. -/
  first : Nat := 1
  /-- Are all matches after that replaced, too? -/
  all : Bool := false
  prints : Bool := false
  /-- The file that gets the line. -/
  file : Option String := none
  deriving Repr, Inhabited

/-- What a command does. -/
inductive Deed where
  | opening
  | closing
  | substitute (s : Substitution)
  | exchange (pairs : List (Char × Char))
  | print
  | printFirst
  | list (width : Option Nat)
  | number
  | fileName
  | delete
  | deleteFirst
  | empty
  | next
  | join
  | keep
  | keepMore
  | recall
  | recallMore
  | swap
  | before (text : List Char)
  | after (text : List Char)
  | instead (text : List Char)
  | insertFile (path : String)
  | insertLine (path : String)
  | write (path : String)
  | writeFirst (path : String)
  | jump (label : String)
  | jumpIfReplaced (label : String)
  | jumpUnlessReplaced (label : String)
  | quit (status : Nat)
  | quitSilently (status : Nat)
  | nothing
  deriving Repr, Inhabited

/-- A command with the lines that it is for. -/
structure Step where
  first : Option Address := none
  second : Option RangeEnd := none
  negated : Bool := false
  deed : Deed
  deriving Repr, Inhabited

/-- A script. -/
structure EditScript where
  steps : Array Step := #[]
  /-- The places that labels stand for. -/
  labels : List (String × Nat) := []
  /-- The places of blocks with the places after them. -/
  blocks : List (Nat × Nat) := []
  deriving Repr, Inhabited

namespace EditScript

/-! ## Reading -/

/-- Why a script is refused: what is wrong, and what had not been read then. Without a place
    it is the whole script that is wrong. -/
structure Fault where
  message : String
  rest : Option (List Char)
  deriving Repr, Inhabited

/-- Reading a script. -/
abbrev Reading := StateT (List Char) (Except Fault)

/-- Refuses the script. -/
def refuse {α : Type} (message : String) : Reading α := do
  throw ⟨message, some (← get)⟩

/-- The next character, if there is one. -/
def peek : Reading (Option Char) :=
  return (← get).head?

/-- Takes the next character. -/
def advance : Reading Unit :=
  modify (·.drop 1)

/-- Takes the characters that are as wanted. -/
def takeWhile (wanted : Char → Bool) : Reading (List Char) :=
  modifyGet fun s => (s.takeWhile wanted, s.dropWhile wanted)

/-- Does the character divide words? -/
def isBlank (c : Char) : Bool :=
  c == ' ' || c == '\t'

/-- Does the character divide commands? -/
def isGap (c : Char) : Bool :=
  isBlank c || c == '\n' || c == ';' || c == '\r'

/-- Takes blanks. -/
def skipBlanks : Reading Unit := do
  let _ ← takeWhile isBlank

/-- A number, if one follows. -/
def number? : Reading (Option Nat) := do
  let digits ← takeWhile Char.isDigit
  return if digits.isEmpty then none else some (Numeral.value 10 digits)

/-- The text up to a mark in which a backslash can protect the mark. A line break has to be
    protected, too. In a set of an expression the mark is a character like others. -/
def delimited? (mark : Char) (inRegex : Bool) : (inSet : Bool) → List Char →
    Option (List Char × List Char)
  | _, [] => none
  | inSet, '\\' :: c :: rest =>
    let add (s : List Char) (r : List Char × List Char) : List Char × List Char := (s ++ r.1, r.2)
    let taken :=
      if inSet then ['\\', c]
      else if c = mark then if !inRegex && c = '&' then ['\\', c] else [c]
      else if inRegex && c = 'n' then ['\n']
      else if c = '\n' && inRegex then [c]
      else ['\\', c]
    if inSet && c = ']' then (delimited? mark inRegex false rest).map (add taken)
    else (delimited? mark inRegex inSet rest).map (add taken)
  | inSet, c :: rest =>
    let add (r : List Char × List Char) : List Char × List Char := (c :: r.1, r.2)
    if c = mark && !inSet then some ([], rest)
    else if inSet then
      (delimited? mark inRegex (c ≠ ']') rest).map add
    else if c = '\n' && inRegex then none
    else if c = '[' && inRegex then
      -- the first character of a set does not close it
      match rest with
      | '^' :: ']' :: rest =>
        (delimited? mark inRegex true rest).map fun r => (c :: '^' :: ']' :: r.1, r.2)
      | ']' :: rest => (delimited? mark inRegex true rest).map fun r => (c :: ']' :: r.1, r.2)
      | rest =>
        if rest.contains ']' then (delimited? mark inRegex true rest).map add
        else (delimited? mark inRegex false rest).map add
    else (delimited? mark inRegex false rest).map add

/-- Takes a text up to a mark. -/
def delimited (mark : Char) (inRegex : Bool) (missing : String) : Reading (List Char) := do
  match delimited? mark inRegex false (← get) with
  | some (text, rest) =>
    set rest
    return text
  | none =>
    set ([] : List Char)
    refuse missing

/-- The character that letters after a backslash spell, whatever they are in, and what follows
    them. -/
def spelled? : List Char → Option (Char × List Char)
  | 'a' :: rest => some ('\x07', rest)
  | 'f' :: rest => some ('\x0c', rest)
  | 'r' :: rest => some ('\r', rest)
  | 't' :: rest => some ('\t', rest)
  | 'v' :: rest => some ('\x0b', rest)
  | 'c' :: c :: rest =>
    let n := c.toUpper.toNat
    some (Char.ofNat (if n < 64 then n + 64 else n - 64), rest)
  | 'x' :: rest => coded? 16 2 rest
  | 'o' :: rest => coded? 8 3 rest
  | 'd' :: rest => coded? 10 3 rest
  | _ => none
where
  /-- A character by its number. -/
  coded? (base size : Nat) (s : List Char) : Option (Char × List Char) :=
    let digits := (s.take size).takeWhile fun c => (Numeral.digit? base c).isSome
    if digits.isEmpty then none
    else some (Char.ofNat (Numeral.value base digits % 256), s.drop digits.length)

/-- The text of an expression with the characters that are spelled put in. What would be a
    sign is protected. At most `bound` characters are read. -/
def regexText : (bound : Nat) → (inSet : Bool) → List Char → List Char
  | 0, _, s => s
  | _, _, [] => []
  | bound + 1, inSet, '\\' :: rest =>
    match spelled? rest with
    | some (c, later) =>
      let isSign := "$*.[\\]^".toList.contains c && !inSet && rest.head?.any "xod".toList.contains
      (if isSign then ['\\', c] else [c]) ++ regexText bound inSet later
    | none =>
      match rest with
      | c :: later => '\\' :: c :: regexText bound inSet later
      | [] => ['\\']
  | bound + 1, false, '[' :: '^' :: ']' :: rest => '[' :: '^' :: ']' :: regexText bound true rest
  | bound + 1, false, '[' :: ']' :: rest => '[' :: ']' :: regexText bound true rest
  | bound + 1, inSet, c :: rest =>
    c :: regexText bound (if inSet then c ≠ ']' else c = '[') rest

/-- The expression of a text. An empty one stands for what was looked for last. -/
def sought? (extended anyCase byLine : Bool) (text : List Char) : Reading (Option Sought) := do
  if text.isEmpty then return none
  match Regex.ofText ⟨extended, true⟩ (String.ofList (regexText text.length false text)) with
  | .ok regex => return some { regex := if byLine then regex.byLine else regex, anyCase }
  | .error fault => refuse fault.message

/-- Takes an address that is an expression, after its first mark. -/
def regexAddress (extended : Bool) (mark : Char) : Reading Address := do
  let text ← delimited mark true "unterminated address regex"
  let flags ← takeWhile fun c => c == 'I' || c == 'M'
  return .matching (← sought? extended (flags.contains 'I') (flags.contains 'M') text)

/-- Takes an address, if one follows. -/
def address? (extended : Bool) : Reading (Option Address) := do
  match ← peek with
  | some '$' =>
    advance
    return some .last
  | some '/' =>
    advance
    return some (← regexAddress extended '/')
  | some '\\' =>
    advance
    match ← peek with
    | some mark =>
      advance
      return some (← regexAddress extended mark)
    | none => refuse "unexpected \x60,'"
  | some c =>
    if !c.isDigit then return none
    let first := (← number?).getD 0
    skipBlanks
    if (← peek) = some '~' then
      advance
      return some (.every first ((← number?).getD 0))
    else return some (.line first)
  | none => return none

/-- Takes the end of a range. -/
def rangeEnd (extended : Bool) : Reading RangeEnd := do
  match ← peek with
  | some '+' =>
    advance
    match ← number? with
    | some n => return .further n
    | none => refuse "expected number"
  | some '~' =>
    advance
    match ← number? with
    | some n => return .multiple n
    | none => refuse "expected number"
  | _ =>
    match ← address? extended with
    | some a => return .at a
    | none =>
      advance
      refuse "unexpected \x60,'"

/-- Takes the end of a command. -/
def endCommand : Reading Unit := do
  skipBlanks
  match ← peek with
  | none | some '#' | some '\x7d' => return ()
  | some c =>
    advance
    if c ≠ '\n' && c ≠ ';' && c ≠ '\r' then refuse "extra characters after command"

/-- Takes a label. -/
def label : Reading String := do
  skipBlanks
  let name ← takeWhile fun c => !isGap c && c ≠ '\x7d'
  endCommand
  return String.ofList name

/-- Takes the name of a file, which goes on to the end of the line. -/
def fileName : Reading String := do
  skipBlanks
  let name ← takeWhile (· ≠ '\n')
  if name.isEmpty then refuse "missing filename in r/R/w/W commands"
  return String.ofList name

/-- The lines of an added text up to a line break that is not protected, and what follows. -/
def addedLines : (bound : Nat) → List Char → List Char × List Char
  | 0, s => ([], s)
  | _, [] => (['\n'], [])
  | bound + 1, '\\' :: rest =>
    let (c, rest) :=
      match spelled? rest, rest with
      | some r, _ => r
      | none, 'n' :: rest => ('\n', rest)
      | none, c :: rest => (c, rest)
      | none, [] => ('\n', [])
    let (later, rest) := addedLines bound rest
    (c :: later, rest)
  | bound + 1, c :: rest =>
    if c = '\n' then (['\n'], rest)
    else
      let (later, rest) := addedLines bound rest
      (c :: later, rest)

/-- Takes the text of a command that adds lines. -/
def addedText : Reading (List Char) := do
  skipBlanks
  match ← get with
  | [] => refuse "expected \\ after \x60a', \x60c' or \x60i'"
  | ['\\'] | ['\\', '\n'] =>
    set ([] : List Char)
    return []
  | s =>
    -- a backslash before the text keeps the blanks after it
    let s :=
      match s with
      | '\\' :: rest =>
        match rest.dropWhile isBlank with
        | '\n' :: later => later
        | _ => rest
      | s => s
    let (text, rest) := addedLines (s.length + 1) s
    set rest
    return text

/-- The pieces of a replacement, of which at most `bound` are read. -/
def replacements : (bound : Nat) → List Char → List Replacement
  | 0, _ => []
  | _, [] => []
  | bound + 1, '&' :: rest => .group 0 :: replacements bound rest
  | bound + 1, '\\' :: rest =>
    match spelled? rest, rest with
    | some (c, rest), _ => .text c :: replacements bound rest
    | none, c :: rest =>
      let piece : Replacement :=
        match c with
        | 'n' => .text '\n'
        | 'U' => .casing .upper
        | 'L' => .casing .lower
        | 'u' => .casing .nextUpper
        | 'l' => .casing .nextLower
        | 'E' => .casing .asIs
        | c => if c.isDigit then .group (c.toNat - '0'.toNat) else .text c
      piece :: replacements bound rest
    | none, [] => [.text '\\']
  | bound + 1, c :: rest => .text c :: replacements bound rest

/-- Takes the flags of a substitution, at most `bound` of them. Yields whether upper and lower
    case are the same, and whether lines within the text count. -/
def flags : (bound : Nat) → Substitution → (anyCase byLine counted : Bool) →
    Reading (Substitution × Bool × Bool)
  | 0, s, anyCase, byLine, _ => return (s, anyCase, byLine)
  | bound + 1, s, anyCase, byLine, counted => do
    match ← peek with
    | some 'g' =>
      advance
      if s.all then refuse "multiple \x60g' options to \x60s' command"
      flags bound { s with all := true } anyCase byLine counted
    | some 'p' =>
      advance
      if s.prints then refuse "multiple \x60p' options to \x60s' command"
      flags bound { s with prints := true } anyCase byLine counted
    | some 'i' | some 'I' =>
      advance
      flags bound s true byLine counted
    | some 'm' | some 'M' =>
      advance
      flags bound s anyCase true counted
    | some 'w' =>
      advance
      return ({ s with file := some (← fileName) }, anyCase, byLine)
    | none | some '#' | some '\x7d' => return (s, anyCase, byLine)
    | some c =>
      if c.isDigit then
        let n := (← number?).getD 0
        if counted then refuse "multiple number options to \x60s' command"
        if n = 0 then refuse "number option to \x60s' command may not be zero"
        flags bound { s with first := n } anyCase byLine true
      else
        advance
        if isBlank c || c == '\r' then flags bound s anyCase byLine counted
        else if c = '\n' || c = ';' then return (s, anyCase, byLine)
        else refuse "unknown option to \x60s'"

/-- Takes a substitution. -/
def substitution (extended : Bool) : Reading Deed := do
  let missing := "unterminated \x60s' command"
  match ← peek with
  | none | some '\n' | some '\\' => refuse missing
  | some mark =>
    advance
    let old ← delimited mark true missing
    let new ← delimited mark false missing
    let replacement := replacements (new.length + 1) new
    let (s, anyCase, byLine) ←
      flags ((← get).length + 1) { sought := none, replacement } false false false
    let sought ← sought? extended anyCase byLine old
    let groups := ((sought.map fun t => t.regex.groupCount).getD 9)
    for piece in replacement do
      match piece with
      | .group n =>
        if groups < n then
          refuse ("invalid reference \\" ++ toString n ++ " on \x60s' command's RHS")
      | _ => pure ()
    return .substitute { s with sought }

/-- The characters of a text with backslashes taken as spelling. At most `bound` are read. -/
def unspelled : (bound : Nat) → List Char → List Char
  | 0, s => s
  | _, [] => []
  | bound + 1, '\\' :: rest =>
    match spelled? rest, rest with
    | some (c, rest), _ => c :: unspelled bound rest
    | none, 'n' :: rest => '\n' :: unspelled bound rest
    | none, c :: rest => c :: unspelled bound rest
    | none, [] => ['\\']
  | bound + 1, c :: rest => c :: unspelled bound rest

/-- Takes what says which characters become which. -/
def exchanges : Reading Deed := do
  let missing := "unterminated \x60y' command"
  match ← peek with
  | none | some '\n' | some '\\' => refuse missing
  | some mark =>
    advance
    let old ← delimited mark false missing
    let new ← delimited mark false missing
    let (old, new) := (unspelled old.length old, unspelled new.length new)
    if old.length ≠ new.length then refuse "strings for \x60y' command are different lengths"
    endCommand
    return .exchange (old.zip new)

/-- The commands that have nothing after their letter. -/
def plainDeeds : List (Char × Deed) := [
  ('=', .number), ('d', .delete), ('D', .deleteFirst), ('F', .fileName), ('g', .recall),
  ('G', .recallMore), ('h', .keep), ('H', .keepMore), ('n', .next), ('N', .join), ('p', .print),
  ('P', .printFirst), ('x', .swap), ('z', .empty)]

/-- Takes what a command does. -/
def deed (extended : Bool) (c : Char) : Reading Deed := do
  match plainDeeds.lookup c with
  | some d =>
    endCommand
    return d
  | none =>
    match c with
    | 's' => substitution extended
    | 'y' => exchanges
    | 'a' => return .after (← addedText)
    | 'i' => return .before (← addedText)
    | 'c' => return .instead (← addedText)
    | 'r' => return .insertFile (← fileName)
    | 'R' => return .insertLine (← fileName)
    | 'w' => return .write (← fileName)
    | 'W' => return .writeFirst (← fileName)
    | 'b' => return .jump (← label)
    | 't' => return .jumpIfReplaced (← label)
    | 'T' => return .jumpUnlessReplaced (← label)
    | 'v' =>
      let _ ← label
      return .nothing
    | 'l' | 'q' | 'Q' =>
      skipBlanks
      let n ← number?
      endCommand
      return if c = 'l' then .list n else if c = 'q' then .quit (n.getD 0) else .quitSilently (n.getD 0)
    | c => refuse ("unknown command: \x60" ++ String.singleton c ++ "'")

/-- Takes the signs that a command is for all other lines. -/
def negation : Reading Bool := do
  if (← peek) ≠ some '!' then return false
  advance
  let _ ← takeWhile isBlank
  if (← peek) = some '!' then
    advance
    refuse "multiple \x60!'s"
  return true

/-- Does an address mean no line at all? -/
def isZero : Option Address → Bool
  | some (.line 0) => true
  | _ => false

/-- Takes at most `bound` commands, with the places of the blocks that are open. -/
def commands (extended : Bool) : (bound : Nat) → EditScript → (opened : List Nat) → Reading EditScript
  | 0, s, _ => return s
  | bound + 1, s, opened => do
    let _ ← takeWhile isGap
    if (← get).isEmpty then
      if opened.isEmpty then return s else throw ⟨"unmatched \x60\x7b'", none⟩
    let first ← address? extended
    if first.isSome then skipBlanks
    let second : Option RangeEnd ←
      if first.isSome && (← peek) = some ',' then do
        advance
        skipBlanks
        let e ← rangeEnd extended
        skipBlanks
        pure (some e)
      else pure none
    let isOfMatch : Bool :=
      match second with
      | some (.at (.matching _)) => true
      | _ => false
    if isZero first && !isOfMatch then
      advance
      refuse "invalid usage of line address 0"
    let negated ← negation
    let place := s.steps.size
    let add (d : Deed) : EditScript :=
      { s with steps := s.steps.push { first, second, negated, deed := d } }
    match ← peek with
    | none => refuse "missing command"
    | some '#' =>
      if first.isSome then
        advance
        refuse "comments don't accept any addresses"
      let _ ← takeWhile (· ≠ '\n')
      commands extended bound s opened
    | some ':' =>
      advance
      if first.isSome then refuse ": doesn't want any addresses"
      skipBlanks
      let name ← takeWhile fun c => !isGap c
      if name.isEmpty then refuse "\":\" lacks a label"
      commands extended bound { s with labels := s.labels ++ [(String.ofList name, place)] } opened
    | some '\x7b' =>
      advance
      commands extended bound (add .opening) (place :: opened)
    | some '\x7d' =>
      advance
      match opened with
      | [] => refuse "unexpected \x60\x7d'"
      | o :: opened =>
        if first.isSome then refuse "\x7d doesn't want any addresses"
        endCommand
        let s := add .closing
        commands extended bound { s with blocks := (o, place + 1) :: s.blocks } opened
    | some c =>
      advance
      if second.isSome && (c = 'q' || c = 'Q') then refuse "command only uses one address"
      let d ← deed extended c
      commands extended bound (add d) opened

/-- The labels that are jumped to. -/
def targets (s : EditScript) : List String :=
  s.steps.toList.filterMap fun step =>
    match step.deed with
    | .jump l | .jumpIfReplaced l | .jumpUnlessReplaced l => if l.isEmpty then none else some l
    | _ => none

/-- The files that are written to. -/
def writtenFiles (s : EditScript) : List String :=
  s.steps.toList.filterMap fun step =>
    match step.deed with
    | .write f | .writeFirst f => some f
    | .substitute t => t.file
    | _ => none

/-- The script that a text is. -/
def ofText (extended : Bool) (text : String) : Except Fault EditScript :=
  ((commands extended (2 * text.length + 2) {} []).run text.toList).map Prod.fst

/-- The place after a block. -/
def afterBlock (s : EditScript) (place : Nat) : Nat :=
  (s.blocks.lookup place).getD s.steps.size

/-- The place that a label stands for. Without a name it is the end. -/
def target (s : EditScript) (label : String) : Nat :=
  (s.labels.lookup label).getD s.steps.size

end EditScript

end ParseBench.Utility
