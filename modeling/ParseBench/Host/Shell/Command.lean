/-
  ParseBench.Host.Shell.Command

  The commands of a shell script and the words that they are made of. A word keeps
  its parameters, the commands whose output it takes and its arithmetic; they get
  their values when its command runs.
-/

namespace ParseBench.Shell

/-- What a word does for a parameter without value. -/
inductive Fallback where
  /-- It stands in for the value. -/
  | replaces
  /-- It becomes the value. -/
  | assigns
  /-- It is the message of a failure. -/
  | fails
  /-- It stands in for a value that is there; a missing one stays empty. -/
  | replacesOther
  deriving DecidableEq, Repr, Inhabited

/-- Where a redirection leads. -/
inductive RedirectMode where
  | read
  | replace
  /-- Replaces also what is protected. -/
  | force
  | append
  | update
  /-- To what the stream of another number leads to; a hyphen closes the stream. -/
  | join
  /-- From the text of the word itself. -/
  | text
  deriving DecidableEq, Repr, Inhabited

mutual

/-- A part of a word. Between quotes nothing is cut into fields, and no character has a
    meaning in a pattern. -/
inductive Piece where
  | text (s : String) (quoted : Bool)
  | parameter (name : String) (change : Change) (quoted : Bool)
  /-- What commands write. -/
  | output (body : Option Command) (quoted : Bool)
  /-- The value of an expression. -/
  | value (expression : List Piece) (quoted : Bool)

/-- What is done to the value of a parameter. -/
inductive Change where
  | none
  /-- The number of its characters. -/
  | length
  /-- A word for a value that is missing, or also for one that is empty. -/
  | fallback (f : Fallback) (orEmpty : Bool) (word : List Piece)
  /-- The value without the shortest or longest part at one of its ends that matches. -/
  | trim (atEnd longest : Bool) (pattern : List Piece)
  /-- Nothing that is known. -/
  | invalid

/-- A command. -/
inductive Command where
  /-- A call on a line, with variables that are set and redirections. -/
  | call (line : Nat) (assignments : List (String × List Piece)) (words : List (List Piece))
      (redirects : List (Nat × RedirectMode × List Piece))
  /-- Each command reads what the one before it writes. -/
  | pipeline (parts : List Command)
  | negated (c : Command)
  | both (first second : Command)
  | either (first second : Command)
  | inOrder (first second : Command)
  | background (c : Command)
  | subshell (body : Command) (redirects : List (Nat × RedirectMode × List Piece))
  | group (body : Command) (redirects : List (Nat × RedirectMode × List Piece))
  | branch (condition body : Command) (otherwise : Option Command)
      (redirects : List (Nat × RedirectMode × List Piece))
  /-- Runs the body as long as the condition fails, if `untilTrue`, or else succeeds. -/
  | loop (untilTrue : Bool) (condition body : Command)
      (redirects : List (Nat × RedirectMode × List Piece))
  /-- Runs the body for each field of the words, or for each argument if there are none. -/
  | forEach (name : String) (words : Option (List (List Piece))) (body : Command)
      (redirects : List (Nat × RedirectMode × List Piece))
  /-- Runs the first body one of whose patterns the word matches. -/
  | choose (word : List Piece) (branches : List (List (List Piece) × Option Command))
      (redirects : List (Nat × RedirectMode × List Piece))
  | define (name : String) (body : Command)

end

instance : Inhabited Piece := ⟨.text "" false⟩
instance : Inhabited Change := ⟨.none⟩
instance : Inhabited Command := ⟨.call 0 [] [] []⟩

/-- A word of a script. -/
abbrev Word := List Piece

/-- The redirection of a stream to what a word says. -/
abbrev Redirect := Nat × RedirectMode × Word

/-! ## Names -/

/-- Can a name begin with the character? -/
def isNameStart (c : Char) : Bool :=
  c.isAlpha || c == '_'

/-- Can the character stand in a name? -/
def isNameChar (c : Char) : Bool :=
  c.isAlphanum || c == '_'

/-- Is the text the name of a variable? -/
def isName (s : String) : Bool :=
  match s.toList with
  | c :: rest => isNameStart c && rest.all isNameChar
  | [] => false

/-- The name and the value of a text with an equals sign after a name. -/
def assignmentText? (s : String) : Option (String × String) :=
  let name := String.ofList (s.toList.takeWhile (· ≠ '='))
  match s.toList.dropWhile (· ≠ '=') with
  | _ :: value => if isName name then some (name, String.ofList value) else none
  | [] => none

/-- The variable that a word sets, and the word for its value. -/
def assignment? : Word → Option (String × Word)
  | .text s false :: rest =>
    (assignmentText? s).map fun r => (r.1, if r.2.isEmpty then rest else .text r.2 false :: rest)
  | _ => none

end ParseBench.Shell
