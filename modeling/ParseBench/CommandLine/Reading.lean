/-
  ParseBench.CommandLine.Reading

  A reader of command lines. The first word names the command. The values of an
  argument are looked at when the next argument is recognised, or at the end; an
  argument that is not recognised is the first fault to be named.
-/

import ParseBench.CommandLine.Argument

namespace ParseBench.CommandLine

/-! ## The form of a word -/

/-- The form of a word on the command line. -/
inductive Form where
  /-- `--name` or `--name=value`. -/
  | long (name : String) (value : Option String)
  /-- Letters after a dash. -/
  | short (letters : List Char)
  | plain
  deriving DecidableEq, Repr

/-- The form of a word. A dash alone is a plain word. -/
def Form.of (word : String) : Form :=
  match word.toList with
  | '-' :: '-' :: rest =>
    let name := String.ofList (rest.takeWhile (· ≠ '='))
    match rest.dropWhile (· ≠ '=') with
    | [] => .long name none
    | _ :: value => .long name (some (String.ofList value))
  | '-' :: c :: rest => .short (c :: rest)
  | _ => .plain

/-- Are these the characters of a number after its sign? There may be a point, but not
    first, and an exponent without sign, neither first nor empty. -/
def isNumber (s : List Char) : Bool :=
  let whole := s.takeWhile Char.isDigit
  let rest := s.dropWhile Char.isDigit
  let isExponent : List Char → Bool
    | [] => true
    | e :: digits => (e == 'e' || e == 'E') && !digits.isEmpty && digits.all Char.isDigit
  match rest with
  | '.' :: rest => !whole.isEmpty && isExponent (rest.dropWhile Char.isDigit)
  | [] => true
  | rest => !whole.isEmpty && isExponent rest

/-! ## Progress -/

/-- What has been read of the arguments. -/
structure Progress where
  /-- The arguments whose values have been looked at. -/
  found : List (String × List String) := []
  /-- The last argument with its values so far. -/
  pending : Option (Argument × List String) := none
  /-- May the next word be a value of that argument? -/
  awaiting : Bool := false
  /-- The number of positional arguments. -/
  taken : Nat := 0
  /-- What follows `--`, where it is handed on. -/
  trailing : List String := []
  deriving Inhabited

namespace Progress

/-- The values of an argument. -/
def values? (p : Progress) (name : String) : Option (List String) :=
  p.found.lookup name

/-- An argument with its values is found. -/
def record (p : Progress) (a : Argument) (values : List String) : Except Usage Progress :=
  if values.isEmpty && a.arity ≠ .switch then .error (.valueMissing a.name)
  else if a.arity ≠ .many && (p.values? a.name).isSome then .error (.repeated a.name)
  else
    match values.findSome? (a.type.fault? a.name) with
    | some fault => .error fault
    | none =>
      -- the later binding hides the earlier one, whose values it repeats
      let before := (p.values? a.name).getD []
      .ok { p with found := (a.name, before ++ values) :: p.found }

/-- The last argument is complete. -/
def settle (p : Progress) : Except Usage Progress :=
  match p.pending with
  | none => .ok p
  | some (a, values) => { p with pending := none, awaiting := false }.record a values

/-- An argument has come that may have more values. -/
def begin (p : Progress) (a : Argument) (values : List String) (awaiting : Bool) :
    Except Usage Progress := do
  let p ← p.settle
  return { p with pending := some (a, values), awaiting }

/-- An argument has come with all its values. -/
def complete (p : Progress) (a : Argument) (values : List String) : Except Usage Progress := do
  let p ← p.settle
  p.record a values

/-- Help or the version is asked for. -/
def stop (p : Progress) (u : Usage) : Except Usage Progress := do
  -- a fault in the values before comes first
  let _ ← p.settle
  .error u

/-- A value of the last argument, if it can have one more. -/
def extend? (p : Progress) (word : String) : Option Progress :=
  match p.pending with
  | some (a, values) =>
    if p.awaiting then
      some { p with pending := some (a, values ++ [word]), awaiting := a.arity = .many }
    else none
  | none => none

/-- May the last argument have a value that looks like a negative number? -/
def awaitsSigned (p : Progress) : Bool :=
  p.awaiting && (p.pending.map fun a => a.1.signed).getD false

end Progress

/-! ## Words -/

namespace Signature

/-- A word that is no option: a value of the last argument, or the next positional one. -/
def readPlain (s : Signature) (p : Progress) (word : String) : Except Usage Progress :=
  match p.extend? word with
  | some p => .ok p
  | none =>
    match s.positionals[p.taken]? with
    | some a => p.begin a [word] false |>.map fun p => { p with taken := p.taken + 1 }
    | none => .error (.unknownArgument word)

/-- An option with its value, if one is attached. -/
def readLong (s : Signature) (p : Progress) (word name : String) (value : Option String) :
    Except Usage Progress :=
  if name = "help" then
    match value with
    | some v => .error (.unexpectedValue name v)
    | none => p.stop .help
  else
    match s.option? name with
    | none => .error (.unknownArgument word)
    | some a =>
      match a.arity, value with
      | .switch, some v => .error (.unexpectedValue name v)
      | .switch, none => p.complete a []
      | _, some v => p.complete a [v]
      | _, none => p.begin a [] true

/-- One word before `--`. -/
def readWord (s : Signature) (p : Progress) (word : String) : Except Usage Progress :=
  match Form.of word with
  | .long name value => s.readLong p word name value
  | .short letters =>
    -- a number with a minus sign, where the last option may have one
    if p.awaitsSigned && isNumber letters then s.readPlain p word
    else if letters.head? = some 'h' then p.stop .help
    else .error (.unknownArgument word)
  | .plain => s.readPlain p word

/-- The words after `--`, where none is an option. -/
def readTrailing (s : Signature) (p : Progress) : List String → Except Usage Progress
  | [] => .ok p
  | word :: rest =>
    if s.handsOn then .ok { p with trailing := word :: rest }
    else do
      -- no option before the two dashes takes a value after them
      let p ← s.readPlain { p with awaiting := false } word
      s.readTrailing p rest

/-- All words. -/
def readWords (s : Signature) (p : Progress) : List String → Except Usage Progress
  | [] => .ok p
  | word :: rest =>
    if word = "--" then s.readTrailing p rest
    else do
      let p ← s.readWord p word
      s.readWords p rest

/-- Reads the words after the name of a command. All required arguments have to be
    there. -/
def read (s : Signature) (words : List String) : Except Usage Progress := do
  let p ← s.readWords {} words
  let p ← p.settle
  match s.required.filter fun name => (p.values? name).isNone with
  | [] => return p
  | missing => .error (.argumentsMissing missing)

/-- The values of the options that are not given and have some all the same. -/
def standIns (s : Signature) (environment : Environment) (p : Progress) :
    List (String × List String) :=
  (s.options.filter fun a => (p.values? a.name).isNone).filterMap fun a =>
    (a.standIn? environment).map fun value => (a.name, [value])

/-- The arguments after all words have been read. -/
def arguments (s : Signature) (environment : Environment) (p : Progress) : Arguments :=
  ⟨p.found ++ s.standIns environment p, p.trailing⟩

end Signature

/-! ## Command lines -/

/-- The name of the command that explains the others. -/
def helpName : String := "help"

/-- Is this the name of a command? -/
def isCommand (commands : List (String × Signature)) (name : String) : Bool :=
  name == helpName || (commands.lookup name).isSome

/-- The words after the name `help`: nothing, or the name of one command. -/
def readHelp (commands : List (String × Signature)) : List String → Usage
  | [] => .help
  | [name] => if isCommand commands name then .help else .unknownCommand name
  | name :: next :: _ =>
    if isCommand commands name then .unknownCommand next else .unknownCommand name

/-- The words after `--`: there can be no command there. -/
def readNoCommand (commands : List (String × Signature)) : List String → Usage
  | [] => .commandMissing
  | word :: _ => if isCommand commands word then .unknownArgument word else .unknownCommand word

/-- A word before the name of a command, where only help and the version can be asked
    for. -/
def readEarly (word : String) : Usage :=
  match Form.of word with
  | .long "help" none => .help
  | .long "version" none => .version
  | .long "help" (some value) => .unexpectedValue "help" value
  | .long "version" (some value) => .unexpectedValue "version" value
  | .short ('h' :: _) => .help
  | .short ('V' :: _) => .version
  | .plain => .unknownCommand word
  | _ => .unknownArgument word

/-- Reads a command line. -/
def reader : Reader := fun commands environment words =>
  match words with
  | [] => .error .commandMissing
  | word :: rest =>
    if word = helpName then .error (readHelp commands rest)
    else if word = "--" then .error (readNoCommand commands rest)
    else
      match commands.lookup word with
      | some signature => do
        let p ← signature.read rest
        return (word, signature.arguments environment p)
      | none => .error (readEarly word)

end ParseBench.CommandLine
