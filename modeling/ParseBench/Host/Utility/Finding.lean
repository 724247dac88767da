/-
  ParseBench.Host.Utility.Finding

  Going through what is below paths, and doing something with what a rule says. A rule
  is made of conditions and of actions; an action is a condition that does something.
-/

import ParseBench.Host.Shell.Pattern
import ParseBench.Host.Utility.Names
import ParseBench.Host.Utility.Starter

namespace ParseBench.Utility

namespace Finding

/-! ## Rules -/

/-- A number that is compared with. -/
structure Bound where
  order : Ordering
  number : Nat
  deriving Repr, Inhabited

/-- Is a number as the bound says? -/
def Bound.holds (b : Bound) (n : Nat) : Bool :=
  compare n b.number == b.order

/-- What is asked of what was found. -/
inductive Rule where
  | always (b : Bool)
  /-- The name, or the whole path, matches. -/
  | named (pattern : Shell.Pattern) (whole anyCase : Bool)
  /-- It is a link to a path that matches. -/
  | linkTo (pattern : Shell.Pattern)
  /-- It is of one of some kinds, perhaps after following it. -/
  | kind (letters : List Char) (followed : Bool)
  | empty
  | executable
  /-- It is so many units of a size large. -/
  | size (bound : Bound) (unit : Nat)
  /-- It has so many names. -/
  | nameCount (bound : Bound)
  | sameFile (path : String)
  /-- Something is at a path. Else the search is given up. -/
  | isThere (path : String)
  /-- The path is written, with something at its end. -/
  | print (atEnd : String)
  | printAs (format : String)
  | delete
  /-- What is in it is not gone through. -/
  | prune
  | quit
  /-- A program succeeds that gets the path in the place of a mark. -/
  | start (words : List String)
  /-- A program gets the paths in the end, as many as there are. -/
  | startOnce (words : List String)
  | neither (rule : Rule)
  | both (left right : Rule)
  | either (left right : Rule)
  /-- Both are gone through; the second one counts. -/
  | andThen (left right : Rule)
  deriving Repr, Inhabited

/-- Does the rule do something? -/
def Rule.acts : Rule → Bool
  | .print _ | .printAs _ | .delete | .quit | .start _ | .startOnce _ => true
  | .neither r => r.acts
  | .both l r | .either l r | .andThen l r => l.acts || r.acts
  | _ => false

/-- How far the search goes. -/
structure Reach where
  least : Nat := 0
  most : Option Nat := none
  /-- Does what is in a directory come before it? -/
  innerFirst : Bool := false
  /-- Are all links followed, or those that the search begins at? -/
  followsAll : Bool := false
  followsFirst : Bool := false
  deriving Repr, Inhabited

/-! ## Reading rules -/

/-- Reading words one after the other. -/
abbrev Reading := StateT (List String × Reach) (Except String)

/-- The next word. -/
def nextWord? : Reading (Option String) := do
  let (words, reach) ← get
  match words with
  | word :: rest =>
    set (rest, reach)
    return some word
  | [] => return none

/-- The next word, which stays to be read. -/
def peek? : Reading (Option String) := do
  return (← get).1.head?

/-- The value after a word. -/
def valueOf (name : String) : Reading String := do
  match ← nextWord? with
  | some value => return value
  | none => throw ("missing argument to \x60" ++ name ++ "'")

/-- Changes how far the search goes. What is said of that holds always. -/
def settle (change : Reach → Reach) : Reading Rule := do
  modify fun (words, reach) => (words, change reach)
  return .always true

/-- The number of levels that is said. -/
def levelOf (name : String) : Reading Nat := do
  let value ← valueOf name
  match Numeral.plain? value with
  | some n => return n
  | none =>
    throw ("Expected a positive decimal integer argument to " ++ name ++ ", but got '" ++ value ++ "'")

/-- A number with a sign that says how it is compared with. -/
def boundOf? (digits : List Char) (order : Ordering) : Option Bound :=
  if digits.isEmpty || !digits.all Char.isDigit then none else some ⟨order, Numeral.value 10 digits⟩

/-- The bound that a text says. -/
def Bound.ofText? (s : List Char) : Option Bound :=
  match s with
  | '+' :: digits => boundOf? digits .gt
  | '-' :: digits => boundOf? digits .lt
  | digits => boundOf? digits .eq

/-- The letters that stand for units of size, with their numbers of bytes. -/
def sizeUnits : List (Char × Nat) := [
  ('c', 1), ('w', 2), ('b', 512), ('k', 1024), ('M', 1024 * 1024), ('G', 1024 * 1024 * 1024)]

/-- The condition on names that a text is. -/
def patternRule (whole anyCase : Bool) (s : String) : Rule :=
  let s := if anyCase then s.map Char.toLower else s
  .named (Shell.Pattern.ofPlain s) whole anyCase

/-- The words of a program up to their end. -/
def programWords (name : String) : (bound : Nat) → (before : List String) → Reading Rule
  | 0, _ => throw ("missing argument to \x60" ++ name ++ "'")
  | bound + 1, before => do
    match ← nextWord? with
    | none => throw ("missing argument to \x60" ++ name ++ "'")
    | some ";" =>
      if before.isEmpty then throw ("invalid argument \x60;' to \x60" ++ name ++ "'")
      return .start before.reverse
    | some "+" =>
      match before with
      | "{}" :: words => return .startOnce words.reverse
      | _ => programWords name bound ("+" :: before)
    | some word => programWords name bound (word :: before)

/-- Reads the rest of a condition or action by its name. -/
def ruleOf (name : String) : Reading Rule := do
  match name with
  | "-true" | "-daystart" | "-noleaf" | "-xdev" | "-mount" | "-readable" | "-writable"
  | "-ignore_readdir_race" | "-noignore_readdir_race" => return .always true
  | "-false" | "-nouser" | "-nogroup" => return .always false
  | "-follow" => settle fun r => { r with followsAll := true }
  | "-depth" | "-d" => settle fun r => { r with innerFirst := true }
  | "-maxdepth" =>
    let n ← levelOf name
    settle fun r => { r with most := some n }
  | "-mindepth" =>
    let n ← levelOf name
    settle fun r => { r with least := n }
  | "-name" => return patternRule false false (← valueOf name)
  | "-iname" => return patternRule false true (← valueOf name)
  | "-path" | "-wholename" => return patternRule true false (← valueOf name)
  | "-ipath" | "-iwholename" => return patternRule true true (← valueOf name)
  | "-lname" => return .linkTo (Shell.Pattern.ofPlain (← valueOf name))
  | "-type" | "-xtype" =>
    let value ← valueOf name
    let letters := (Text.splitOn ',' value).map String.toList
    match letters.find? fun l => !(match l with | [c] => "bcdpflsD".toList.contains c | _ => false) with
    | some (c :: d :: _) =>
      if "bcdpflsD".toList.contains c then
        throw ("Must separate multiple arguments to " ++ name ++ " using: ','")
      else throw ("Unknown argument to " ++ name ++ ": " ++ String.ofList (c :: d :: []))
    | some l => throw ("Unknown argument to " ++ name ++ ": " ++ String.ofList l)
    | none => return .kind letters.flatten (name = "-xtype")
  | "-empty" => return .empty
  | "-executable" => return .executable
  | "-size" =>
    let value ← valueOf name
    let (digits, unit) : List Char × Nat :=
      match value.toList.getLast?.bind fun c => sizeUnits.lookup c with
      | some unit => (value.toList.dropLast, unit)
      | none => (value.toList, 512)
    match Bound.ofText? digits with
    | some b => return .size b unit
    | none => throw ("Invalid argument \x60" ++ value ++ "' to -size")
  | "-links" =>
    let value ← valueOf name
    match Bound.ofText? value.toList with
    | some b => return .nameCount b
    | none => throw ("invalid argument \x60" ++ value ++ "' to \x60-links'")
  | "-samefile" => return .sameFile (← valueOf name)
  | "-newer" => return .both (.isThere (← valueOf name)) (.always false)
  | "-inum" =>
    let _ ← valueOf name
    return .always false
  | "-user" | "-group" => return .always ((← valueOf name) = "root")
  | "-uid" | "-gid" => return .always ((← valueOf name) = "0")
  | "-mtime" | "-atime" | "-ctime" | "-mmin" | "-amin" | "-cmin" =>
    -- all there is was made a moment ago
    let value ← valueOf name
    match Bound.ofText? value.toList with
    | some b => return .always (b.holds 0)
    | none => throw ("invalid argument \x60" ++ value ++ "' to \x60" ++ name ++ "'")
  | "-print" => return .print "\n"
  | "-print0" => return .print "\x00"
  | "-printf" => return .printAs (← valueOf name)
  | "-delete" =>
    let _ ← settle fun r => { r with innerFirst := true }
    return .delete
  | "-prune" => return .prune
  | "-quit" => return .quit
  | "-exec" | "-execdir" => programWords name ((← get).1.length + 1) []
  | name => throw ("unknown predicate \x60" ++ name ++ "'")

/-- Is a word the name of something in a rule? -/
def isRuleWord (word : String) : Bool :=
  (Text.startsWith word "-" && word.length > 1) || word = "(" || word = ")" || word = "!" || word = ","

/-- The words that join two rules. -/
def joiners : List String := ["-o", "-or", "-a", "-and", ","]

mutual

/-- Reads rules one of which has to hold, or that come after each other. -/
def readList : (bound : Nat) → Reading Rule
  | 0 => return .always true
  | bound + 1 => do
    let first ← readEither bound
    match ← peek? with
    | some "," =>
      let _ ← nextWord?
      let rest ← readList bound
      return .andThen first rest
    | _ => return first

/-- Reads rules one of which has to hold. -/
def readEither : (bound : Nat) → Reading Rule
  | 0 => return .always true
  | bound + 1 => do
    let first ← readBoth bound
    match ← peek? with
    | some "-o" | some "-or" =>
      let word := (← nextWord?).getD ""
      if (← peek?).isNone then throw ("expected an expression after '" ++ word ++ "'")
      return .either first (← readEither bound)
    | _ => return first

/-- Reads rules that have to hold together. -/
def readBoth : (bound : Nat) → Reading Rule
  | 0 => return .always true
  | bound + 1 => do
    let first ← readOne bound
    match ← peek? with
    | none | some "-o" | some "-or" | some "," | some ")" => return first
    | some word =>
      if word = "-a" || word = "-and" then
        let _ ← nextWord?
        if (← peek?).isNone then throw ("expected an expression after '" ++ word ++ "'")
      return .both first (← readBoth bound)

/-- Reads one rule. -/
def readOne : (bound : Nat) → Reading Rule
  | 0 => return .always true
  | bound + 1 => do
    match ← nextWord? with
    | none => throw "invalid expression"
    | some "!" | some "-not" =>
      if (← peek?).isNone then throw "expected an expression after '!'"
      return .neither (← readOne bound)
    | some "(" =>
      if (← peek?).isNone then
        throw "invalid expression; expected to find a ')' but didn't see one.  Perhaps you need an extra predicate after '('"
      if (← peek?) = some ")" then
        throw "invalid expression; empty parentheses are not allowed."
      let rule ← readList bound
      if (← nextWord?) = some ")" then return rule
      else throw "invalid expression; I was expecting to find a ')' somewhere but did not see one."
    | some ")" => throw "invalid expression; you have too many ')'"
    | some word =>
      if joiners.contains word then
        throw ("invalid expression; you have used a binary operator '" ++ word ++ "' with nothing before it.")
      else if !isRuleWord word then throw ("paths must precede expression: \x60" ++ word ++ "'")
      else ruleOf word

end

/-- Reads all the words of a rule. Without an action what is found is printed. -/
def readRule (reach : Reach) (words : List String) : Except String (Rule × Reach) :=
  if words.isEmpty then .ok (.print "\n", reach)
  else do
    let (rule, rest, reach) ← (readList (4 * words.length + 8)).run (words, reach)
    if !rest.isEmpty then throw "invalid expression; you have too many ')'"
    return (if rule.acts then rule else .both rule (.print "\n"), reach)

/-! ## Going through -/

/-- What was found: the path it was come to, the path that the search began at, what is there
    and where, and how deep it is. -/
structure Found where
  path : String
  start : String
  node : Process.Node
  location : Location
  depth : Nat
  deriving Inhabited

namespace Found

/-- The letter of what is there. -/
def kindLetter : Process.Node → Char
  | .directory => 'd'
  | .file _ | .program => 'f'
  | .link _ => 'l'
  | .pipe => 'p'
  | .device => 'c'

/-- The size in bytes. -/
def size (i : Found) : Nat :=
  match i.node with
  | .file f => f.content.size
  | .link target => target.length
  | .directory => 4096
  | _ => 0

/-- The number of names. -/
def nameCount (t : FileTree) (i : Found) : Nat :=
  match i.node with
  | .file f => t.entries.countP fun
    | (_, .file g) => g.number == f.number
    | _ => false
  | .directory =>
    2 + (t.children i.location).countP fun name => t.get? (i.location ++ [name]) = some .directory
  | _ => 1

/-- The rights in digits. -/
def rights (i : Found) : String :=
  match i.node with
  | .directory | .program => "755"
  | .file f => if f.executable then "755" else "644"
  | .link _ => "777"
  | _ => "644"

/-- The path from the beginning of the search. -/
def below (i : Found) : String :=
  if i.depth = 0 then ""
  else
    let rest := i.path.toList.drop i.start.length
    String.ofList (if rest.head? = some '/' then rest.drop 1 else rest)

/-- The text that a format makes. -/
def formatted (t : FileTree) (i : Found) : List Char → String
  | '\\' :: 'n' :: rest => "\n" ++ i.formatted t rest
  | '\\' :: 't' :: rest => "\t" ++ i.formatted t rest
  | '\\' :: '0' :: rest => "\x00" ++ i.formatted t rest
  | '\\' :: '\\' :: rest => "\\" ++ i.formatted t rest
  | '%' :: c :: rest =>
    let shown :=
      match c with
      | 'p' => i.path
      | 'f' => lastName i.path
      | 'h' => parentPath i.path
      | 'H' => i.start
      | 'P' => i.below
      | 's' => toString i.size
      | 'y' => String.singleton (kindLetter i.node)
      | 'd' => toString i.depth
      | 'm' => i.rights
      | 'n' => toString (i.nameCount t)
      | 'u' | 'g' => "root"
      | 'U' | 'G' => "0"
      | 'l' => match i.node with
        | .link target => target
        | _ => ""
      | '%' => "%"
      | c => String.ofList ['%', c]
    shown ++ i.formatted t rest
  | c :: rest => String.singleton c ++ i.formatted t rest
  | [] => ""

end Found

/-- What has come of a search. -/
structure Progress where
  status : Nat := 0
  /-- What is in the directory that was found last is not gone through. -/
  pruned : Bool := false
  isOver : Bool := false
  /-- The paths for programs that are started in the end, last first. -/
  kept : List (List String × List String) := []
  deriving Inhabited

/-- A search. -/
abbrev Quest := StateT Progress Act

/-- Complains. The search does not succeed then. -/
def complain (message : String) : Quest Unit := do
  StateT.lift (Act.complain ("find: " ++ message))
  modify ({ · with status := 1 })

/-- Starts a program. Says whether it succeeds. -/
def succeeds (launch : Launcher) (words : List String) : Quest Bool := do
  match words with
  | [] => return false
  | name :: args =>
    let ending ← StateT.lift (Act.inChild id (becomeProgram launch "find" name args))
    return ending.status = 0

/-- What a path leads to, or the link that it is if it leads nowhere. -/
def followed (p : Process) (i : Found) : Process.Node :=
  match i.node with
  | .link target => ((p.node (Process.absolute i.location)).toOption).getD (.link target)
  | node => node

/-- Removes what was found. -/
def remove (i : Found) : Quest Bool := do
  let p ← StateT.lift get
  let t := p.machine.files
  let refused (reason : String) : Quest Bool := do
    complain ("cannot delete '" ++ i.path ++ "': " ++ reason)
    return false
  if i.path = "." then return true
  else if (i.node matches .directory) && !(t.children i.location).isEmpty then
    refused "Directory not empty"
  else
    StateT.lift (Act.setFiles (t.erase i.location))
    return true

/-- Goes through a rule for what was found. Says whether it holds. -/
def holds (launch : Launcher) (i : Found) : Rule → Quest Bool
  | .always b => return b
  | .named pattern whole anyCase => do
    let s := if whole then i.path else lastName i.path
    -- the letters of a pattern for any case are small ones
    return pattern.matchesText (if anyCase then s.map Char.toLower else s)
  | .linkTo pattern => do
    match i.node with
    | .link target => return pattern.matchesText target
    | _ => return false
  | .kind letters follow => do
    let p ← StateT.lift get
    if follow && (p.node (Process.absolute i.location) matches .error .looping) then
      complain ("'" ++ i.path ++ "': " ++ Refusal.looping.reason)
      return false
    return letters.contains (Found.kindLetter (if follow then followed p i else i.node))
  | .empty => do
    let p ← StateT.lift get
    match i.node with
    | .directory => return (p.machine.files.children i.location).isEmpty
    | .file f => return f.content.isEmpty
    | _ => return false
  | .executable => do
    let p ← StateT.lift get
    match followed p i with
    | .directory | .program => return true
    | .file f => return f.executable
    | _ => return false
  | .size bound unit => return bound.holds ((i.size + unit - 1) / unit)
  | .nameCount bound => do
    let p ← StateT.lift get
    return bound.holds (i.nameCount p.machine.files)
  | .sameFile path => do
    let p ← StateT.lift get
    match p.nameNode? path, i.node with
    | some (.file f), .file g => return f.number = g.number
    | some _, _ => return (p.locateName path).toOption = some i.location
    | none, _ => return false
  | .isThere path => do
    let p ← StateT.lift get
    match p.node path with
    | .ok _ => return true
    | .error r =>
      complain ("'" ++ path ++ "': " ++ r.reason)
      modify ({ · with isOver := true })
      return false
  | .print atEnd => do
    StateT.lift (Act.print (i.path ++ atEnd))
    return true
  | .printAs format => do
    let p ← StateT.lift get
    StateT.lift (Act.print (i.formatted p.machine.files format.toList))
    return true
  | .delete => remove i
  | .prune => do
    modify ({ · with pruned := true })
    return true
  | .quit => do
    modify ({ · with isOver := true })
    return true
  | .start words => succeeds launch (words.map (fillIn "{}" i.path))
  | .startOnce words => do
    modify fun g =>
      let old := (g.kept.lookup words).getD []
      { g with kept := (words, i.path :: old) :: g.kept.filter (·.1 ≠ words) }
    return true
  | .neither r => do
    let b ← holds launch i r
    return !b
  | .both l r => do
    if ← holds launch i l then
      if (← get).isOver then return true else holds launch i r
    else return false
  | .either l r => do
    if ← holds launch i l then return true else holds launch i r
  | .andThen l r => do
    let _ ← holds launch i l
    if (← get).isOver then return true else holds launch i r

/-- Goes through what was found and what is in it, at most `bound` levels deep. `above` are the
    directories that it is in. -/
def visit (launch : Launcher) (reach : Reach) (rule : Rule) : (bound : Nat) → (above : List Location) →
    Found → Quest Unit
  | 0, _, _ => return ()
  | bound + 1, above, i => do
    if (← get).isOver then return ()
    let p ← StateT.lift get
    -- a link to a directory is one where links are followed
    let follows := reach.followsAll || (reach.followsFirst && i.depth = 0)
    let i : Found :=
      if follows then
        match i.node, p.locate (Process.absolute i.location) with
        | .link _, .ok l => { i with node := followed p i, location := l }
        | _, _ => i
      else i
    if follows && (p.node (Process.absolute i.location) matches .error .looping) then
      complain ("'" ++ i.path ++ "': " ++ Refusal.looping.reason)
      return ()
    let isDirectory := i.node matches .directory
    if isDirectory && above.contains i.location then
      complain ("File system loop detected; '" ++ i.path ++ "' is part of the same file system loop as '" ++
        parentPath i.path ++ "'.")
      return ()
    let isMeant := reach.least ≤ i.depth
    modify ({ · with pruned := false })
    if isMeant && !reach.innerFirst then
      let _ ← holds launch i rule
    let isOpened := isDirectory && !(← get).pruned && (reach.most.map (decide <| i.depth < ·)).getD true
    if isOpened then
      let q ← StateT.lift get
      let t := q.machine.files
      if t.get? i.location ≠ some .directory then
        complain ("'" ++ i.path ++ "': No such file or directory")
      for name in t.children i.location do
        let l := i.location ++ [name]
        match (← StateT.lift get).nodeAt "" l with
        | .ok node =>
          visit launch reach rule bound (i.location :: above)
            ⟨inDirectory i.path (name.toRaw), i.start, node, l, i.depth + 1⟩
        | .error _ => pure ()
    if isMeant && reach.innerFirst && !(← get).isOver then
      let _ ← holds launch i rule

/-- Goes through what is at a path. -/
def search (launch : Launcher) (reach : Reach) (rule : Rule) (path : String) : Quest Unit := do
  if (← get).isOver then return ()
  let p ← StateT.lift get
  let levels := p.machine.files.entries.length + 2
  let follows := reach.followsAll || reach.followsFirst
  let found : Except Refusal (Process.Node × Location) := do
    let node ← p.nameNode path
    let l ← p.locateName path
    -- a link that leads nowhere stands for itself
    match node, follows, p.node path with
    | .link _, true, .error .looping => throw .looping
    | _, _, _ => return (node, l)
  match found with
  | .ok (node, l) => visit launch reach rule levels [] ⟨path, path, node, l, 0⟩
  | .error r => complain ("'" ++ path ++ "': " ++ r.reason)

/-- Starts the programs that paths were kept for. -/
def startKept (launch : Launcher) : Quest Unit := do
  for (words, paths) in (← get).kept.reverse do
    if !(← succeeds launch (words ++ paths.reverse)) then modify ({ · with status := 1 })

end Finding

/-- Goes through what is below paths, and does what a rule says. -/
def find : Starter := fun launch args => do
  let isLinkOption (a : String) : Bool := a = "-H" || a = "-L" || a = "-P"
  let linkOptions := args.takeWhile isLinkOption
  let args := args.drop linkOptions.length
  let args := if args.head? = some "--" then args.drop 1 else args
  let paths := args.takeWhile fun a => a = "," || !Finding.isRuleWord a
  let reach : Finding.Reach :=
    { followsAll := linkOptions.getLast? = some "-L", followsFirst := linkOptions.getLast? = some "-H" }
  match Finding.readRule reach (args.drop paths.length) with
  | .error message =>
    Act.complain ("find: " ++ message)
    return .exit 1
  | .ok (rule, reach) =>
    let paths := if paths.isEmpty then ["."] else paths
    let quest : Finding.Quest Unit := do
      paths.forM (Finding.search launch reach rule)
      Finding.startKept launch
    let ((), progress) ← quest.run {}
    return .exit progress.status

end ParseBench.Utility
