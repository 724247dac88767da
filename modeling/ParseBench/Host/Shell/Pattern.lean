/-
  ParseBench.Host.Shell.Pattern

  Patterns for names and values. A character that was quoted means itself; else a
  star is any text, a question mark any character, and brackets hold a set.
-/

import ParseBench.Host.Process

namespace ParseBench.Shell

/-- A character, and whether it was quoted. -/
structure Letter where
  char : Char
  quoted : Bool
  deriving DecidableEq, Repr, Inhabited

/-- The characters of letters. -/
def Letter.text (ls : List Letter) : String :=
  String.ofList (ls.map Letter.char)

/-- The letters without the backslashes that are not quoted. What follows one is quoted by
    it. -/
def Letter.unescaped : List Letter → List Letter
  | [] => []
  | ⟨'\\', false⟩ :: next :: rest => ⟨next.char, true⟩ :: unescaped rest
  | l :: rest => l :: unescaped rest

/-- Members of a set of characters. -/
inductive Members where
  | range (first last : Char)
  /-- The characters of a named class. -/
  | named (name : String)
  deriving DecidableEq, Repr, Inhabited

/-- Is the character a member? -/
def Members.contain (c : Char) : Members → Bool
  | range first last => first ≤ c && c ≤ last
  | named name =>
    match name with
    | "alpha" => c.isAlpha
    | "digit" => c.isDigit
    | "alnum" => c.isAlphanum
    | "upper" => c.isUpper
    | "lower" => c.isLower
    | "space" => c == ' ' || (9 ≤ c.toNat && c.toNat ≤ 13)
    | "blank" => c == ' ' || c == '\t'
    | "punct" => 33 ≤ c.toNat && c.toNat ≤ 126 && !c.isAlphanum
    | "print" => 32 ≤ c.toNat && c.toNat ≤ 126
    | "graph" => 33 ≤ c.toNat && c.toNat ≤ 126
    | "cntrl" => c.toNat < 32 || c.toNat == 127
    | "xdigit" => c.isDigit || ('a' ≤ c.toLower && c.toLower ≤ 'f')
    | _ => false

/-- The names of the classes. -/
def Members.classNames : List String :=
  ["alpha", "digit", "alnum", "upper", "lower", "space", "blank", "punct", "print", "graph", "cntrl",
    "xdigit"]

/-- A part of a pattern. -/
inductive PatternPart where
  | literal (c : Char)
  | anyChar
  | anyText
  | set (negated : Bool) (members : List Members)
  deriving DecidableEq, Repr, Inhabited

namespace PatternPart

/-! ## Reading -/

/-- Is the letter this character, and not quoted? -/
def isSign (c : Char) (l : Letter) : Bool :=
  l.char == c && !l.quoted

/-- The name of a class at the beginning of letters, after its bracket and colon, and what
    follows it. -/
def className? : List Letter → Option (List Char × List Letter)
  | colon :: bracket :: rest =>
    if isSign ':' colon && isSign ']' bracket then some ([], rest)
    else (className? (bracket :: rest)).map fun r => (colon.char :: r.1, r.2)
  | _ => none

/-- The members of a set up to its end, at most `bound` of them, and what follows it. -/
def members? : (bound : Nat) → (isFirst : Bool) → List Letter →
    Option (List Members × List Letter)
  | 0, _, _ => none
  | _ + 1, _, [] => none
  | bound + 1, isFirst, l :: rest =>
    if isSign ']' l && !isFirst then some ([], rest)
    else
      let named :=
        match rest with
        | colon :: later => if isSign '[' l && isSign ':' colon then className? later else none
        | [] => none
      match named with
      | some (name, rest) =>
        (members? bound false rest).map fun r =>
          (.named (String.ofList name) :: r.1, r.2)
      | none =>
        match rest with
        | dash :: last :: later =>
          if isSign '-' dash && !isSign ']' last then
            (members? bound false later).map fun r => (.range l.char last.char :: r.1, r.2)
          else (members? bound false rest).map fun r => (.range l.char l.char :: r.1, r.2)
        | rest => (members? bound false rest).map fun r => (.range l.char l.char :: r.1, r.2)

/-- A set after its opening bracket, and what follows it. -/
def set? (ls : List Letter) : Option (PatternPart × List Letter) :=
  match ls with
  | l :: rest =>
    if isSign '!' l then
      (members? (ls.length + 1) true rest).map fun r => (.set true r.1, r.2)
    else (members? (ls.length + 1) true ls).map fun r => (.set false r.1, r.2)
  | [] => none

/-- The parts of a pattern, at most `bound` of them. A bracket that is not closed means
    itself. -/
def ofLetters : (bound : Nat) → List Letter → List PatternPart
  | 0, _ => []
  | _ + 1, [] => []
  | bound + 1, l :: rest =>
    if isSign '*' l then .anyText :: ofLetters bound rest
    else if isSign '?' l then .anyChar :: ofLetters bound rest
    else if isSign '[' l then
      match set? rest with
      | some (part, rest) => part :: ofLetters bound rest
      | none => .literal '[' :: ofLetters bound rest
    else .literal l.char :: ofLetters bound rest

/-! ## Matching -/

/-- Does the part stand for this one character? -/
def holds (c : Char) : PatternPart → Bool
  | literal d => c == d
  | anyChar => true
  | anyText => false
  | set negated members => members.any (·.contain c) != negated

/-- The ends of a text, the longest first. -/
def endsOf : List Char → List (List Char)
  | [] => [[]]
  | c :: s => (c :: s) :: endsOf s

/-- What is left of texts after a part. All of them are ends of one text, and the longest
    comes first. -/
def leave : PatternPart → List (List Char) → List (List Char)
  | anyText, rests =>
    match rests with
    | longest :: _ => endsOf longest
    | [] => []
  | p, rests =>
    rests.filterMap fun
      | c :: s => if p.holds c then some s else none
      | [] => none

end PatternPart

/-- A pattern. -/
abbrev Pattern := List PatternPart

namespace Pattern

/-- The pattern of letters. -/
def ofLetters (ls : List Letter) : Pattern :=
  PatternPart.ofLetters (ls.length + 1) (Letter.unescaped ls)

/-- The pattern of a text in which nothing is quoted. -/
def ofPlain (s : String) : Pattern :=
  ofLetters (s.toList.map fun c => ⟨c, false⟩)

/-- What can be left of a text after a match at its beginning, the longest first. -/
def rests (p : Pattern) (s : List Char) : List (List Char) :=
  p.foldl (fun rests part => part.leave rests) [s]

/-- Does the pattern match a whole text? -/
def matchesText (p : Pattern) (s : String) : Bool :=
  (p.rests s.toList).getLast? == some []

/-- A text without the shortest or longest beginning that matches, if there is one. -/
def trimBeginning? (p : Pattern) (longest : Bool) (s : String) : Option String :=
  let found := p.rests s.toList
  (if longest then found.getLast? else found.head?).map String.ofList

/-- A text without the shortest or longest end that matches, if there is one. -/
def trimEnd? (p : Pattern) (longest : Bool) (s : String) : Option String :=
  -- every part matches one character or any text, so backwards it matches what is backwards
  let found := rests p.reverse s.toList.reverse
  (if longest then found.getLast? else found.head?).map fun l => String.ofList l.reverse

/-- A text without the shortest or longest part at one of its ends that matches. -/
def trim (p : Pattern) (atEnd longest : Bool) (s : String) : String :=
  (if atEnd then p.trimEnd? longest s else p.trimBeginning? longest s).getD s

/-- Texts that follow each other, back to front, without the shortest end that matches. What
    follows the text that it is found in goes with it. -/
def trimLast (p : Pattern) : List String → Option (List String)
  | [] => none
  | s :: before =>
    match p.trimEnd? false s with
    | some trimmed => some (trimmed :: before)
    | none => trimLast p before

/-- Texts that follow each other without a part at one end. A match lies in one text; an end
    takes all with it that follows, and a beginning that is the whole first text takes all. -/
def trimAll (p : Pattern) (atEnd longest : Bool) (texts : List String) : List String :=
  match texts with
  | [] => []
  | first :: rest =>
    if atEnd then
      if longest then
        match p.trimEnd? true first with
        | some trimmed => [trimmed]
        | none => texts
      else ((p.trimLast texts.reverse).map List.reverse).getD texts
    else if longest && p.matchesText first then [""]
    else p.trim false longest first :: rest

end Pattern

/-! ## Names of files -/

/-- Do the letters form a pattern, and not only a name? -/
def isPattern (ls : List Letter) : Bool :=
  ls.any fun l => PatternPart.isSign '*' l || PatternPart.isSign '?' l || PatternPart.isSign '[' l

/-- The paths that match what is left of a pattern, below a path that has been found. The
    parts of the pattern are those between its slashes. -/
def pathsBelow (p : Process) : List (List Letter) → String → List String
  | [], path => [path]
  | part :: rest, path =>
    let next (name : String) : List String :=
      pathsBelow p rest (path ++ name ++ if rest.isEmpty then "" else "/")
    if isPattern part then
      let pattern := Pattern.ofLetters part
      let names := p.names (if path.isEmpty then "." else path)
      -- the names that begin with a point are matched only by a point
      let isShown (name : String) : Bool :=
        !Text.startsWith name "." || (part.head?.map Letter.char) == some '.'
      let dots := if (part.head?.map Letter.char) == some '.' then [".", ".."] else []
      ((dots ++ names).filter fun name => isShown name && pattern.matchesText name).flatMap next
    else next (Letter.text part)

/-- The paths that letters stand for, in order, or the text itself if there are none. -/
def paths (p : Process) (ls : List Letter) : List String :=
  let escaped := Letter.unescaped ls
  if isPattern escaped then
    let parts := Text.splitWhere (fun l : Letter => l.char == '/') escaped
    let found := (pathsBelow p parts "").filter fun path => (p.nameNode? path).isSome
    if found.isEmpty then [Letter.text ls] else Ordered.ofList found
  else [Letter.text ls]

end ParseBench.Shell
