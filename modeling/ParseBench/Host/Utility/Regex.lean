/-
  ParseBench.Host.Utility.Regex

  Regular expressions in their two common forms, with groups that can be referred
  to. Of the places where an expression matches, the first one counts, and there
  the longest match.
-/

import ParseBench.Host.Numeral
import ParseBench.Host.Shell.Pattern

namespace ParseBench.Utility

open Shell (Letter Members PatternPart)

/-- A regular expression. -/
inductive Regex where
  | empty
  | any
  | literal (c : Char)
  | set (negated : Bool) (members : List Members)
  | sequence (first second : Regex)
  | either (left right : Regex)
  | repeated (r : Regex) (least : Nat) (most : Option Nat)
  | group (number : Nat) (r : Regex)
  /-- What a group matched. -/
  | again (number : Nat)
  | lineStart
  | lineEnd
  /-- The beginning of any line of the text. -/
  | anyLineStart
  /-- The end of any line of the text. -/
  | anyLineEnd
  /-- The beginning or the end of a word, or either. -/
  | wordEdge (starts ends : Bool)
  /-- No letter of a word comes just before. -/
  | freshWord
  /-- No letter of a word comes next. -/
  | wordOver
  deriving DecidableEq, Repr, Inhabited

namespace Regex

/-! ## Matching -/

/-- A place in a text: what stands before it, back to front, what follows it, what groups have
    matched, and how many characters have been passed. -/
structure Place where
  before : List Char := []
  after : List Char
  groups : List (Nat × List Char) := []
  passed : Nat := 0
  deriving Repr, Inhabited

/-- Is the character part of a word? -/
def isWordChar (c : Char) : Bool :=
  c.isAlphanum || c == '_'

namespace Place

/-- Are two places of one text the same, with the same groups? -/
def isSame (p q : Place) : Bool :=
  p.passed == q.passed && p.groups == q.groups

/-- Places without those that came before. -/
def distinct (ps : List Place) : List Place :=
  (ps.foldl (fun (kept : List Place) p => if kept.any p.isSame then kept else p :: kept) []).reverse

/-- The place after a character. -/
def next (p : Place) (c : Char) (after : List Char) : Place :=
  { p with before := c :: p.before, after, passed := p.passed + 1 }

/-- The place after the next character, if that is as wanted. -/
def step (p : Place) (wanted : Char → Bool) : List Place :=
  match p.after with
  | c :: rest => if wanted c then [p.next c rest] else []
  | [] => []

/-- The places after at most `most` characters that are as wanted, the last one first. -/
def run (wanted : Char → Bool) : (most : Nat) → Place → List Place → List Place
  | 0, p, found => p :: found
  | most + 1, p, found =>
    match p.step wanted with
    | q :: _ => run wanted most q (p :: found)
    | [] => p :: found

/-- The place after a text, if that comes next. -/
def skip (p : Place) : List Char → List Place
  | [] => [p]
  | c :: rest =>
    match p.after with
    | d :: after => if c = d then skip (p.next d after) rest else []
    | [] => []

/-- Does a word begin or end here? -/
def isEdge (p : Place) (starts ends : Bool) : Bool :=
  let left := (p.before.head?.map isWordChar).getD false
  let right := (p.after.head?.map isWordChar).getD false
  (starts && !left && right) || (ends && left && !right)

end Place

/-- What a repetition has tried: the places at which its rounds were counted so far, and the
    places at which it can end, the last one first. -/
structure Trials where
  tried : List (Nat × Place) := []
  found : List Place := []
  deriving Inhabited

namespace Trials

/-- Goes on with at most `left` rounds from a place, the longest way first. Where a place alone
    says how it goes on, no place is tried twice, and else none with the same number of rounds. -/
def goOn (counted : Bool) (round : Place → List Place) : (left : Nat) → Trials → Place → Trials
  | 0, t, p => { t with found := p :: t.found }
  | left + 1, t, p =>
    let count := if counted then left else 0
    if t.tried.any fun q => q.1 == count && q.2.isSame p then t
    else
      let t := { t with tried := (count, p) :: t.tried }
      -- a round that takes nothing is not repeated
      let further := (round p).filter fun q => p.passed < q.passed
      let t := further.foldl (goOn counted round left) t
      { t with found := p :: t.found }

end Trials

/-- The places after a number of rounds. -/
def afterRounds (round : Place → List Place) : (count : Nat) → List Place → List Place
  | 0, ps => ps
  | count + 1, ps =>
    if ps.isEmpty then [] else afterRounds round count (Place.distinct (ps.flatMap round))

/-- The characters that an expression for one character stands for. -/
def oneChar? (anyCase : Bool) : Regex → Option (Char → Bool)
  | any => some fun _ => true
  | literal c => some fun d => c == d || (anyCase && c.toLower == d.toLower)
  | set negated members =>
    some fun c =>
      let has (c : Char) : Bool := members.any (·.contain c)
      (has c || (anyCase && (has c.toLower || has c.toUpper))) != negated
  | _ => none

/-- The places where matches end, the preferred ones first. -/
def ends (anyCase : Bool) : Regex → Place → List Place
  | empty, p => [p]
  | any, p => p.step fun _ => true
  | literal c, p => p.step ((oneChar? anyCase (literal c)).getD fun _ => false)
  | set negated members, p => p.step ((oneChar? anyCase (set negated members)).getD fun _ => false)
  | sequence a b, p => Place.distinct ((ends anyCase a p).flatMap (ends anyCase b))
  | either a b, p => Place.distinct (ends anyCase a p ++ ends anyCase b p)
  | repeated r least most, p =>
    let starts := afterRounds (ends anyCase r) least [p]
    let left := p.after.length
    let more := (most.map (· - least)).getD left
    match oneChar? anyCase r with
    | some wanted => starts.flatMap fun q => q.run wanted more []
    | none =>
      -- every round takes a character, so more of them than characters are no bound
      let trials := starts.foldl (Trials.goOn (more < left) (ends anyCase r) (min more left)) {}
      Place.distinct trials.found.reverse
  | group n r, p =>
    (ends anyCase r p).map fun q =>
      let taken := (q.before.take (q.passed - p.passed)).reverse
      { q with groups := (n, taken) :: q.groups.filter (·.1 ≠ n) }
  | again n, p => p.skip ((p.groups.lookup n).getD [])
  | lineStart, p => if p.before.isEmpty then [p] else []
  | lineEnd, p => if p.after.isEmpty then [p] else []
  | anyLineStart, p => if p.before.head?.all (· == '\n') then [p] else []
  | anyLineEnd, p => if p.after.head?.all (· == '\n') then [p] else []
  | wordEdge starts stops, p => if p.isEdge starts stops then [p] else []
  | freshWord, p => if p.before.head?.any isWordChar then [] else [p]
  | wordOver, p => if p.after.head?.any isWordChar then [] else [p]

/-- The longest match that begins at a place. -/
def matchAt? (r : Regex) (anyCase : Bool) (p : Place) : Option Place :=
  (ends anyCase r p).foldl (fun best q =>
    match best with
    | none => some q
    | some b => if b.passed < q.passed then some q else best) none

/-- The first match from a place on: where it begins and where it ends. -/
def find? (r : Regex) (anyCase : Bool) (before : List Char) : List Char → Option (Place × Place)
  | [] =>
    let here : Place := { before, after := [] }
    (r.matchAt? anyCase here).map (here, ·)
  | c :: rest =>
    let here : Place := { before, after := c :: rest }
    match r.matchAt? anyCase here with
    | some q => some (here, q)
    | none => find? r anyCase (c :: before) rest

/-- The expression for a text of several lines, each of which begins and ends. -/
def byLine : Regex → Regex
  | lineStart => anyLineStart
  | lineEnd => anyLineEnd
  | sequence a b => .sequence a.byLine b.byLine
  | either a b => .either a.byLine b.byLine
  | repeated r least most => .repeated r.byLine least most
  | group n r => .group n r.byLine
  | r => r

/-- Does the expression match somewhere in a line? -/
def isIn (r : Regex) (anyCase : Bool) (line : List Char) : Bool :=
  (r.find? anyCase [] line).isSome

/-! ## Reading -/

/-- How expressions are spelled. -/
structure Spelling where
  /-- Do signs have a meaning without a backslash? -/
  extended : Bool := false
  /-- Is a repetition of nothing wrong, and a bracket alone? -/
  strict : Bool := false
  deriving DecidableEq, Repr, Inhabited

/-- Why a text is not an expression. -/
inductive Fault where
  | unmatchedOpening
  | unmatchedClosing
  | unmatchedBracket
  | unmatchedBrace
  | badCount
  | tooManyRounds
  | nothingRepeated
  | badReference
  | badRange
  | badClass
  | unbracketedClass
  | trailingBackslash
  deriving DecidableEq, Repr, Inhabited

/-- What is wrong, in words. -/
def Fault.message : Fault → String
  | unmatchedOpening => "Unmatched ( or \\("
  | unmatchedClosing => "Unmatched ) or \\)"
  | unmatchedBracket => "Unmatched [, [^, [:, [., or [="
  | unmatchedBrace => "Unmatched \\\x7b"
  | badCount => "Invalid content of \\\x7b\\\x7d"
  | tooManyRounds => "Regular expression too big"
  | nothingRepeated => "Invalid preceding regular expression"
  | badReference => "Invalid back reference"
  | badRange => "Invalid range end"
  | badClass => "Invalid character class name"
  | unbracketedClass => "character class syntax is [[:space:]], not [:space:]"
  | trailingBackslash => "Trailing backslash"

/-- A sign of an expression, after its spelling has been told apart. -/
inductive Sign where
  | char (c : Char)
  | any
  | set (negated : Bool) (members : List Members)
  | opening
  | closing
  | bar
  | times (least : Nat) (most : Option Nat)
  | again (n : Nat)
  | start
  | stop
  | edge (starts ends : Bool)
  deriving DecidableEq, Repr, Inhabited

namespace Sign

/-- Does a part begin after the sign? -/
def opens : Sign → Bool
  | opening | bar | start => true
  | _ => false

/-- Does the sign repeat something? -/
def isTimes : Sign → Bool
  | times .. => true
  | _ => false

end Sign

/-- The greatest number of rounds that can be asked for. -/
def mostRounds : Nat := 32767

/-- The bounds of an interval up to the text that closes it, and what follows that. -/
def interval (closing : List Char) (s : List Char) :
    Except Fault ((Nat × Option Nat) × List Char) := do
  let value (digits : List Char) : Nat := Numeral.value 10 digits
  let least := s.takeWhile Char.isDigit
  let rest := s.drop least.length
  let (most, rest) : Option Nat × List Char :=
    match rest with
    | ',' :: rest =>
      let most := rest.takeWhile Char.isDigit
      (if most.isEmpty then none else some (value most), rest.drop most.length)
    | rest => (if least.isEmpty then some 0 else some (value least), rest)
  match Text.after? closing rest with
  | none => throw (if rest.isEmpty then .unmatchedBrace else .badCount)
  | some rest =>
    if least.isEmpty && s.head? ≠ some ',' then throw .badCount
    if most.any (· < value least) then throw .badCount
    if mostRounds < max (value least) (most.getD 0) then throw .tooManyRounds
    return ((value least, most), rest)

/-- What a letter after a backslash stands for, whatever the form. -/
def lettered? : Char → Option Sign
  | 'w' => some (.set false [.named "alnum", .range '_' '_'])
  | 'W' => some (.set true [.named "alnum", .range '_' '_'])
  | 's' => some (.set false [.named "space"])
  | 'S' => some (.set true [.named "space"])
  | 'b' => some (.edge true true)
  | '<' => some (.edge true false)
  | '>' => some (.edge false true)
  | '\x60' => some .start
  | '\'' => some .stop
  | c => if c.isDigit && c ≠ '0' then some (.again (c.toNat - '0'.toNat)) else none

/-- What is wrong with the members of a set, if something is. -/
def setFault? (members : List Members) : Option Fault :=
  members.findSome? fun
    | .named name => if Members.classNames.contains name then none else some .badClass
    | .range low high => if high < low then some .badRange else none

/-- The members of a set up to its end, and what follows it. -/
def bracket (s : List Char) : Except Fault (Sign × List Char) := do
  let letters := s.map fun c => (⟨c, false⟩ : Letter)
  let (isNegated, letters) : Bool × List Letter :=
    match letters with
    | l :: more => if l.char = '^' then (true, more) else (false, letters)
    | [] => (false, [])
  match PatternPart.members? (letters.length + 1) true letters with
  | none => throw .unmatchedBracket
  | some (members, after) =>
    match setFault? members with
    | some fault => throw fault
    | none =>
      -- the colons of a class are not enough without brackets of their own
      let inner := s.take (s.length - after.length - 1)
      if inner.length > 1 && inner.head? = some ':' && inner.getLast? = some ':' then
        throw .unbracketedClass
      return (.set isNegated members, after.map Letter.char)

/-- The signs of a text, at most `bound` of them, after a sign. -/
def signs (f : Spelling) : (bound : Nat) → (previous : Option Sign) → List Char →
    Except Fault (List Sign)
  | 0, _, _ => return []
  | _ + 1, _, [] => return []
  | bound + 1, previous, c :: rest => do
    let isFirst := previous.all Sign.opens
    let go (s : Sign) (rest : List Char) : Except Fault (List Sign) :=
      (signs f bound (some s) rest).map (s :: ·)
    -- a repetition of a repetition needs a group in the plain form
    let again (s : Sign) (rest : List Char) : Except Fault (List Sign) :=
      if f.strict && !f.extended && previous.any Sign.isTimes then throw .nothingRepeated
      else go s rest
    if c = '\\' then
      match rest with
      | [] => throw .trailingBackslash
      | d :: rest =>
        match lettered? d with
        | some s => go s rest
        | none =>
          if f.extended then go (.char d) rest
          else if d = '(' then go .opening rest
          else if d = ')' then go .closing rest
          else if d = '|' then go .bar rest
          else if d = '+' then go (if isFirst then .char '+' else .times 1 none) rest
          else if d = '?' then go (if isFirst then .char '?' else .times 0 (some 1)) rest
          else if d = '\x7b' then
            let ((least, most), rest) ← interval ['\\', '\x7d'] rest
            again (.times least most) rest
          else go (.char d) rest
    else if c = '.' then go .any rest
    else if c = '[' then
      let (s, rest) ← bracket rest
      go s rest
    else if c = '*' then
      if f.extended then go (.times 0 none) rest
      else if isFirst then go (.char '*') rest
      else again (.times 0 none) rest
    else if c = '^' then if f.extended || isFirst then go .start rest else go (.char '^') rest
    else if c = '$' then
      let ends := f.extended || rest.isEmpty || (Text.after? ['\\', ')'] rest).isSome ||
        (Text.after? ['\\', '|'] rest).isSome
      if ends then go .stop rest else go (.char '$') rest
    else if !f.extended then go (.char c) rest
    else if c = '(' then go .opening rest
    else if c = ')' then go .closing rest
    else if c = '|' then go .bar rest
    else if c = '+' then go (.times 1 none) rest
    else if c = '?' then go (.times 0 (some 1)) rest
    else if c = '\x7b' then
      match interval ['\x7d'] rest with
      | .ok ((least, most), rest) => go (.times least most) rest
      | .error fault =>
        let isSpelled := fault == .badCount && (rest.head?.any Char.isDigit)
        if f.strict || isSpelled || fault == .tooManyRounds then throw fault else go (.char c) rest
    else go (.char c) rest

/-- Applies the repetitions that follow a part. -/
def repetitions : Regex → List Sign → Regex × List Sign
  | r, .times least most :: rest => repetitions (.repeated r least most) rest
  | r, rest => (r, rest)

mutual

/-- Reads alternatives from signs, at most `bound` levels deep. `number` groups have been
    opened. Yields what follows and the number of groups then. -/
def alternatives (f : Spelling) : (bound : Nat) → (number : Nat) → List Sign →
    Except Fault (Regex × Nat × List Sign)
  | 0, _, _ => throw .tooManyRounds
  | bound + 1, number, ss => do
    let (r, number, rest) ← sequenced f bound number .empty ss
    match rest with
    | .bar :: rest =>
      let (later, number, rest) ← alternatives f bound number rest
      return (.either r later, number, rest)
    | rest => return (r, number, rest)

/-- Reads parts that follow one another. -/
def sequenced (f : Spelling) : (bound : Nat) → (number : Nat) → Regex → List Sign →
    Except Fault (Regex × Nat × List Sign)
  | 0, _, _, _ => throw .tooManyRounds
  | bound + 1, number, before, ss =>
    match ss with
    | [] | .closing :: _ | .bar :: _ => return (before, number, ss)
    | .times .. :: rest =>
      if f.strict then throw .nothingRepeated else sequenced f bound number before rest
    | s :: rest => do
      let (r, number, rest) : Regex × Nat × List Sign ←
        match s with
        | .opening => do
          let n := number + 1
          let (r, number, rest) ← alternatives f bound n rest
          match rest with
          | .closing :: rest => pure (.group n r, number, rest)
          | _ => throw .unmatchedOpening
        | .char c => pure (.literal c, number, rest)
        | .any => pure (.any, number, rest)
        | .set negated members => pure (.set negated members, number, rest)
        | .again n => if number < n then throw .badReference else pure (.again n, number, rest)
        | .start => pure (.lineStart, number, rest)
        | .stop => pure (.lineEnd, number, rest)
        | .edge starts stops => pure (.wordEdge starts stops, number, rest)
        | .times .. | .closing | .bar => throw .nothingRepeated
      let isAnchor := s == .start || s == .stop || r matches .wordEdge ..
      if f.strict && isAnchor && rest.head?.any Sign.isTimes then throw .nothingRepeated
      let (r, rest) := repetitions r rest
      sequenced f bound number (if before = .empty then r else .sequence before r) rest

end

/-- Reads signs to their end. A bracket that closes nothing stands for itself where that is
    not wrong. -/
def ofSigns (f : Spelling) : (bound : Nat) → (number : Nat) → List Sign → Except Fault Regex
  | 0, _, _ => throw .tooManyRounds
  | bound + 1, number, ss => do
    match ← alternatives f (4 * ss.length + 8) number ss with
    | (r, _, []) => return r
    | (_, _, rest) =>
      if f.strict || !f.extended then throw .unmatchedClosing
      let place := ss.length - rest.length
      ofSigns f bound number (ss.take place ++ .char ')' :: ss.drop (place + 1))

/-- The expression that a text is. -/
def ofText (f : Spelling) (s : String) : Except Fault Regex := do
  let ss ← signs f (s.length + 1) none s.toList
  ofSigns f (ss.length + 1) 0 ss

/-- The expression that matches a text alone. -/
def ofLiteral (s : List Char) : Regex :=
  s.foldr (fun c r => if r = .empty then .literal c else .sequence (.literal c) r) .empty

/-- The number of groups. -/
def groupCount : Regex → Nat
  | sequence a b | either a b => a.groupCount + b.groupCount
  | repeated r _ _ => r.groupCount
  | group _ r => r.groupCount + 1
  | _ => 0

end Regex

end ParseBench.Utility
