/-
  ParseBench.Host.Utility.Starter

  Utilities that start other programs, with another environment, with arguments
  from the input, or in another manner.
-/

import ParseBench.Host.Utility.Surroundings

namespace ParseBench.Utility

/-- A utility that starts programs. -/
abbrev Starter := Launcher → List String → Act Ending

/-! ## Starting -/

/-- Starts a program by its name in the place of the process. -/
def startNamed (launch : Launcher) (name : String) (args : List String) :
    Act (Except Nat Ending) := do
  let searched := ((← get).environment.lookup "PATH").getD Process.standardPath
  launch.startFirst args missingStatus (Process.programPaths searched name)

/-- Starts a program in the place of a utility, which complains if that is not possible. -/
def becomeProgram (launch : Launcher) (utility name : String) (args : List String) : Act Ending := do
  match ← startNamed launch name args with
  | .ok ending => return ending
  | .error status =>
    let reason := if status = missingStatus then "No such file or directory" else "Permission denied"
    let shown :=
      match utility with
      | "env" | "find" => "'" ++ name ++ "'"
      | "xargs" => name
      | "setsid" => "failed to execute " ++ name
      | _ => "failed to run command '" ++ name ++ "'"
    Act.complain (utility ++ ": " ++ shown ++ ": " ++ reason)
    return .exit status

/-! ## Environments -/

/-- An environment with a name set. -/
def withEntry (environment : List (String × String)) (name value : String) : List (String × String) :=
  if environment.any (·.1 == name) then
    environment.map fun e => if e.1 == name then (name, value) else e
  else environment ++ [(name, value)]

/-- An environment with the entries at the beginning of words, and the other words. -/
def withEntries (environment : List (String × String)) : List String → List (String × String) × List String
  | [] => (environment, [])
  | word :: rest =>
    if word.toList.contains '=' then
      let name := String.ofList (word.toList.takeWhile (· ≠ '='))
      let value := String.ofList ((word.toList.dropWhile (· ≠ '=')).drop 1)
      withEntries (withEntry environment name value) rest
    else (environment, word :: rest)

/-- Starts a program with another environment, or prints that. -/
def env : Starter := fun launch args => do
  let options : OptionTable :=
    { plain := "i", valued := "uS", mixed := false
      long := [("ignore-environment", 'i'), ("unset", 'u'), ("split-string", 'S')] }
  match options.read args with
  | .error fault =>
    misuse "env" fault.message
    return .exit 125
  | .ok o =>
    -- a hyphen alone stands for an empty environment
    let hyphens := o.operands.takeWhile (· == "-")
    let split := ((o.flags.filter (·.1 == 'S')).flatMap fun f => (Text.splitOn ' ' f.2)).filter (!·.isEmpty)
    let p ← get
    let environment := if o.has 'i' || !hyphens.isEmpty then [] else p.environment
    let dropped := (o.flags.filter (·.1 == 'u')).map (·.2)
    let environment := environment.filter fun e => !dropped.contains e.1
    let (environment, words) := withEntries environment (split ++ o.operands.drop hyphens.length)
    modify fun p => { p with environment }
    match words with
    | [] =>
      Act.print (environmentText (← get))
      return .exit 0
    | name :: args => becomeProgram launch "env" name args

/-! ## Arguments from the input -/

/-- The item that a word back to front makes, if there is one. -/
def finished (word : Option (List Char)) : List String :=
  (word.map fun w => String.ofList w.reverse).toList

/-- The words of a text. Quotes and backslashes hold them together. -/
def inputWords (quote : Option Char) (word : Option (List Char)) : List Char → List String
  | [] => finished word
  | '\\' :: d :: rest =>
    if quote.isSome then inputWords quote (some ('\\' :: word.getD [])) (d :: rest)
    else inputWords none (some (d :: word.getD [])) rest
  | c :: rest =>
    match quote with
    | some q =>
      if c = q then inputWords none word rest
      else inputWords quote (some (c :: word.getD [])) rest
    | none =>
      if c = '\'' || c = '"' then inputWords (some c) (some (word.getD [])) rest
      else if c = ' ' || c = '\t' || c = '\n' then finished word ++ inputWords none none rest
      else inputWords none (some (c :: word.getD [])) rest

/-- The arguments in an input, which may be divided by a character of its own. -/
def inputItems (divider : Option Char) (text : String) : List String :=
  match divider with
  | none => inputWords none none text.toList
  | some c =>
    match (Text.splitWhere (· == c) text.toList).reverse with
    | [] :: rest => rest.reverse.map String.ofList
    | all => all.reverse.map String.ofList

/-- Parts of a list with at most some number of items. -/
def chunks (bound size : Nat) (items : List String) : List (List String) :=
  match bound with
  | 0 => []
  | bound + 1 =>
    if items.isEmpty then [] else items.take size :: chunks bound size (items.drop size)

/-- A text with another one in every place where a mark stands. -/
def fillIn (mark item : String) (s : String) : String :=
  if mark.isEmpty then s else Text.join item (s.splitOn mark)

/-- Starts programs one after the other. A program that cannot be started ends it all, and so
    does one that asks for that by its status. -/
def startEach (launch : Launcher) (failedSome : Bool) : List (List String) → Act Ending
  | [] => return .exit (if failedSome then 123 else 0)
  | words :: rest => do
    let name := words.headD "echo"
    let p ← get
    let searched := (p.environment.lookup "PATH").getD Process.standardPath
    let body := becomeProgram launch "xargs" name words.tail
    if (p.programPath? searched name).isNone then body
    else
      match ← Act.inChild (·.attach 0 Machine.nowhere) body with
      | .killed _ => return .exit 125
      | .exit 255 => return .exit 124
      | .exit status => startEach launch (failedSome || status ≠ 0) rest

/-- Starts a program with arguments from the input, as many at once as are wanted. -/
def xargs : Starter := fun launch args => do
  let options : OptionTable :=
    { plain := "0rtx", valued := "nILdPs", mixed := false
      long := [("null", '0'), ("no-run-if-empty", 'r'), ("max-args", 'n'), ("delimiter", 'd'),
        ("replace", 'I'), ("max-lines", 'L'), ("max-procs", 'P'), ("verbose", 't')] }
  match options.read args with
  | .error fault =>
    misuse "xargs" fault.message
    return .exit 1
  | .ok o =>
    let command := if o.operands.isEmpty then ["echo"] else o.operands
    let text ← Act.readInput
    let given : Option Char :=
      if o.has '0' then some '\x00'
      else
        match (o.value? 'd').map String.toList with
        | some ['\\', 'n'] => some '\n'
        | some ['\\', 't'] => some '\t'
        | some ['\\', '0'] => some '\x00'
        | some [c] => some c
        | _ => none
    match o.value? 'I' with
    | some mark =>
      let lines := (inputItems (some (given.getD '\n')) text).map fun l =>
        if given.isSome then l else String.ofList (l.toList.dropWhile fun c => c = ' ' || c = '\t')
      let filled := (lines.filter (!·.isEmpty)).map fun item => command.map (fillIn mark item)
      startEach launch false filled
    | none =>
      let items := inputItems given text
      let groups : List (List String) :=
        match (o.value? 'L').bind String.toNat? with
        | some n =>
          let lines := (inputItems (some '\n') text).map (inputItems none)
          let lines := lines.filter (!·.isEmpty)
          (List.range ((lines.length + n - 1) / n)).map fun i => ((lines.drop (i * n)).take n).flatten
        | none =>
          let size := ((o.value? 'n').bind String.toNat?).getD (items.length + 1)
          if items.isEmpty then if o.has 'r' then [] else [[]]
          else chunks items.length (max size 1) items
      startEach launch false (groups.map (command ++ ·))

/-! ## Other manners -/

/-- Starts a program as another one would, in another manner that does not show. -/
def startAs (utility : String) (valued : String) (change : Process → Process) : Starter :=
  fun launch args => do
    match ({ plain := "vfpcw", valued, mixed := false } : OptionTable).read args with
    | .error fault =>
      misuse utility fault.message
      return .exit 125
    | .ok o =>
      match o.operands with
      | name :: args =>
        modify change
        becomeProgram launch utility name args
      | [] =>
        if utility = "setsid" then
          misuse utility "no command specified"
          return .exit 1
        misuse utility "missing operand"
        return .exit 125

/-- Starts a program that nobody can hang up on. -/
def nohup : Starter :=
  startAs "nohup" "" (·.ignoring [1])

/-- Starts a program that gets signals of its own. -/
def setsid : Starter :=
  startAs "setsid" "" fun p => { p with group := p.number }

/-- Starts a program while a file is locked. Nobody else has it locked. -/
def flock : Starter := fun launch args => do
  let options : OptionTable :=
    { plain := "sxenuoF", valued := "wEc", mixed := false
      long := [("shared", 's'), ("exclusive", 'x'), ("nonblock", 'n'), ("nb", 'n'), ("unlock", 'u'),
        ("timeout", 'w'), ("wait", 'w'), ("command", 'c'), ("close", 'o'), ("no-fork", 'F')] }
  match options.read args with
  | .error fault =>
    misuse "flock" fault.message
    return .exit 64
  | .ok o =>
    let locked (path : String) (body : Act Ending) : Act Ending := do
      let p ← get
      if p.isDirectory path then body
      else
        match ← Act.openPath path .append with
        | .ok id =>
          modify (·.hold id)
          let ending ← body
          modify (·.release id)
          return ending
        | .error r =>
          Act.complain ("flock: cannot open lock file " ++ path ++ ": " ++ r.reason)
          return .exit 66
    match o.operands with
    | [] =>
      misuse "flock" "not enough arguments"
      return .exit 64
    | [only] =>
      match Numeral.plain? only with
      | some n =>
        if ((← get).streams.lookup n).isSome then return .exit 0
        Act.complain ("flock: " ++ only ++ ": Bad file descriptor")
        return .exit 65
      | none =>
        Act.complain ("flock: bad file descriptor: '" ++ only ++ "'")
        return .exit 64
    | path :: "-c" :: command :: _ =>
      locked path (becomeProgram launch "flock" shellPath ["-c", command])
    | path :: name :: args => locked path (becomeProgram launch "flock" name args)

end ParseBench.Utility
