/-
  ParseBench.Host.Utility.Basic

  Utilities: what they are, how they read their options, and how they go through
  the files that they are given.
-/

import ParseBench.Host.Process

namespace ParseBench

/-- A utility takes arguments and yields its status. -/
abbrev Utility := List String → Act Nat

namespace Utility

/-! ## Options -/

/-- The options of a call, each with its value, and the operands. -/
structure Options where
  flags : List (Char × String) := []
  operands : List String := []
  deriving Repr, Inhabited

namespace Options

/-- Is the option there? -/
def has (o : Options) (c : Char) : Bool :=
  o.flags.any (·.1 == c)

/-- The value of the option that came last. -/
def value? (o : Options) (c : Char) : Option String :=
  o.flags.reverse.lookup c

end Options

/-- Why arguments cannot be read. -/
inductive OptionFault where
  | unknownLetter (c : Char)
  | unknownWord (text : String)
  /-- The value of an option is missing. -/
  | letterAlone (c : Char)
  | wordAlone (name : String)
  deriving DecidableEq, Repr, Inhabited

/-- What is wrong, in words. -/
def OptionFault.message : OptionFault → String
  | unknownLetter c => "invalid option -- '" ++ String.singleton c ++ "'"
  | unknownWord text => "unrecognized option '--" ++ text ++ "'"
  | letterAlone c => "option requires an argument -- '" ++ String.singleton c ++ "'"
  | wordAlone name => "option '--" ++ name ++ "' requires an argument"

/-- The options that a utility knows. -/
structure OptionTable where
  /-- The letters without a value. -/
  plain : String
  /-- The letters with a value. -/
  valued : String := ""
  /-- The long names with the letters that they stand for. -/
  long : List (String × Char) := []
  /-- May options come after operands? -/
  mixed : Bool := true

namespace OptionTable

/-- The options in the letters after a hyphen, and the letter that still needs a value. -/
def letters (g : OptionTable) : List Char →
    Except OptionFault (List (Char × String) × Option Char)
  | [] => return ([], none)
  | c :: rest =>
    if g.valued.toList.contains c then
      if rest.isEmpty then return ([], some c) else return ([(c, String.ofList rest)], none)
    else if g.plain.toList.contains c then do
      let (flags, open?) ← g.letters rest
      return ((c, "") :: flags, open?)
    else throw (.unknownLetter c)

/-- The letter of a long name, which may be cut short where that leaves no doubt. -/
def letterOf? (g : OptionTable) (name : String) : Option Char :=
  match g.long.lookup name with
  | some c => some c
  | none =>
    match ((g.long.filter fun e => (Text.dropLead? name e.1).isSome).map Prod.snd).eraseDups with
    | [c] => some c
    | _ => none

/-- The options in a long option, and the letter that still needs a value. -/
def word (g : OptionTable) (text : List Char) :
    Except OptionFault (List (Char × String) × Option Char) := do
  let name := String.ofList (text.takeWhile (· ≠ '='))
  match g.letterOf? name with
  | none => throw (.unknownWord (String.ofList text))
  | some c =>
    match text.dropWhile (· ≠ '=') with
    | [] => return if g.valued.toList.contains c then ([], some c) else ([(c, "")], none)
    | _ :: value => return ([(c, String.ofList value)], none)

/-- Reads arguments. An option that is not known makes the call wrong. -/
def read (g : OptionTable) : List String → Except OptionFault Options
  | [] => return {}
  | arg :: rest => do
    if arg = "--" then return { operands := rest }
    let found : Option (Except OptionFault (List (Char × String) × Option Char)) :=
      match arg.toList with
      | '-' :: '-' :: text => some (g.word text)
      | '-' :: c :: letters => some (g.letters (c :: letters))
      | _ => none
    match found with
    | none =>
      if g.mixed then
        let o ← g.read rest
        return { o with operands := arg :: o.operands }
      else return { operands := arg :: rest }
    | some result =>
      let (flags, open?) ← result
      match open?, rest with
      | none, rest =>
        let o ← g.read rest
        return { o with flags := flags ++ o.flags }
      | some c, value :: rest =>
        let o ← g.read rest
        return { o with flags := flags ++ (c, value) :: o.flags }
      | some c, [] =>
        throw (match Text.dropLead? "--" arg with
          | some name => .wordAlone name
          | none => .letterAlone c)

end OptionTable

/-- Says where help is. Those that compare say their names, too. -/
def sayHelp (name : String) : Act Unit :=
  Act.complain ((if ["cmp", "diff"].contains name then name ++ ": " else "") ++ "Try '" ++ name ++
    " --help' for more information.")

/-- Complains about a call that is wrong, and says where help is. -/
def misuse (name message : String) : Act Unit := do
  Act.complain (name ++ ": " ++ message)
  if name = "grep" then Act.complain "Usage: grep [OPTION]... PATTERNS [FILE]..."
  sayHelp name

/-- A utility whose arguments have options. A wrong call has a status of its own. -/
def withOptions (name : String) (g : OptionTable) (wrong : Nat) (body : Options → Act Nat) : Utility :=
  fun args => do
    match g.read args with
    | .ok o => body o
    | .error fault =>
      misuse name fault.message
      return wrong

/-! ## Statuses -/

/-- Goes through items; the status is the greatest of theirs. -/
def forEach {α : Type} (items : List α) (body : α → Act Nat) : Act Nat :=
  items.foldlM (fun status a => return max status (← body a)) 0

/-- How a utility speaks of a file that it cannot open. -/
def openFault (name file reason : String) : String :=
  match name with
  | "head" | "tail" => name ++ ": cannot open '" ++ file ++ "' for reading: " ++ reason
  | "tac" => "tac: failed to open '" ++ file ++ "' for reading: " ++ reason
  | "sort" => "sort: cannot read: " ++ file ++ ": " ++ reason
  | "sed" => "sed: can't read " ++ file ++ ": " ++ reason
  | _ => name ++ ": " ++ file ++ ": " ++ reason

/-- How a utility speaks of a file that it cannot read. -/
def readFault (name file reason : String) : String :=
  match name with
  | "head" | "tail" | "uniq" => name ++ ": error reading '" ++ file ++ "': " ++ reason
  | "tac" => "tac: " ++ file ++ ": read error: Invalid argument"
  | "sort" => "sort: read failed: " ++ file ++ ": " ++ reason
  | "sed" => "sed: read error on " ++ file ++ ": " ++ reason
  | _ => name ++ ": " ++ file ++ ": " ++ reason

/-- Opens a file for a utility, or the input for a hyphen: the number of the stream, which is
    kept open. What cannot be read is complained about. -/
def source? (name file : String) : Act (Option Nat) := do
  let p ← get
  if file = "-" then
    match p.streams.lookup 0 with
    | some id =>
      if (p.machine.rest? id 0).isSome then
        set (p.hold id)
        return some id
      Act.complain (readFault name file "Is a directory")
      return none
    | none =>
      Act.complain (readFault name "-" "Bad file descriptor")
      return none
  else
    match ← Act.openPath file .read with
    | .ok id =>
      if ((← get).machine.rest? id 0).isSome then
        modify (·.hold id)
        return some id
      Act.complain (readFault name file "Is a directory")
      return none
    | .error r =>
      Act.complain (openFault name file r.reason)
      return none

/-- Closes what a utility has opened. -/
def close (id : Nat) : Act Unit :=
  modify (·.release id)

/-- The content of a file or, for a hyphen, what is left of the input. A file that cannot be
    read is complained about. -/
def contentOf? (name file : String) : Act (Option String) := do
  match ← source? name file with
  | none => return none
  | some id =>
    let text ← Act.textOf? id
    close id
    return text

/-- Goes through the contents of files, or the input if there are none. -/
def forContents (name : String) (files : List String) (body : String → String → Act Unit) :
    Act Nat :=
  forEach (if files.isEmpty then ["-"] else files) fun file => do
    match ← contentOf? name file with
    | some text =>
      body file text
      return 0
    | none => return 1

/-- All contents of files one after the other, and the status of reading them. -/
def contents (name : String) (files : List String) : Act (String × Nat) := do
  (if files.isEmpty then ["-"] else files).foldlM (fun (text, status) file => do
    match ← contentOf? name file with
    | some more => return (text ++ more, status)
    | none => return (text, 1)) ("", 0)

/-! ## Lines -/

/-- The parts of a text that a character ends. The end of the last one need not be marked. -/
def pieces (mark : Char) (text : String) : List (List Char) :=
  match (Text.splitWhere (· == mark) text.toList).reverse with
  | [] :: rest => rest.reverse
  | all => all.reverse

/-- The lines of a text. -/
def lines (text : String) : List (List Char) :=
  pieces '\n' text

/-- Is there a line without its end? -/
def isCutOff (text : String) : Bool :=
  match text.toList.getLast? with
  | some c => c != '\n'
  | none => false

/-- The text of lines. -/
def unlines (l : List (List Char)) : String :=
  String.ofList (l.flatMap (· ++ ['\n']))

end Utility

end ParseBench
