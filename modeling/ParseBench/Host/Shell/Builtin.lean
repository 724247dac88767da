/-
  ParseBench.Host.Shell.Builtin

  The builtins of a shell that run no other commands.
-/

import ParseBench.Host.Signal
import ParseBench.Host.Shell.State
import ParseBench.Host.Utility.Condition
import ParseBench.Host.Utility.Printing

namespace ParseBench.Shell

/-- A builtin takes arguments and yields its status. -/
abbrev Builtin := List String → Exec Nat

namespace Builtin

/-- A builtin that does what a utility does. Its messages say where they come from. -/
def ofUtility (u : Utility) : Builtin := fun args => do
  let sh ← get
  Exec.act do
    modify fun p => { p with voice := sh.name ++ ": " ++ toString sh.line ++ ": " }
    let status ← u args
    modify fun p => { p with voice := "" }
    return status

/-- A builtin that does nothing. -/
def nothing (status : Nat) : Builtin := fun _ => return status

/-- The number that an argument has to be. -/
def number (arg : String) : Exec Nat := do
  match Numeral.plain? arg with
  | some n => if n < 0x80000000 then return n else Exec.fail ("Illegal number: " ++ arg)
  | none => Exec.fail ("Illegal number: " ++ arg)

/-- Writes raw text to the output. -/
def print (text : String) : Exec Unit :=
  Exec.act (Act.print text)

/-- A value between single quotes, from which the text can be read again. -/
def quoted (s : String) : String :=
  "'" ++ Text.join "'\"'\"'" (Text.splitOn '\'' s) ++ "'"

/-! ## Leaving -/

/-- Ends the shell. -/
def exit : Builtin := fun args => do
  match args with
  | [] => pure ()
  | arg :: _ => Exec.setStatus ((← number arg) % 256)
  throw .shell

/-- Leaves a function or a file that is read. -/
def leave : Builtin := fun args => do
  match args with
  | [] => pure ()
  | arg :: _ => Exec.setStatus (← number arg)
  throw .function

/-- The number of loops that are meant. -/
def levels (args : List String) : Exec Nat := do
  match args with
  | [] => return 1
  | arg :: _ =>
    let n ← number arg
    if n = 0 then Exec.fail ("Illegal number: " ++ arg) else return n

/-- Leaves loops. Outside of loops this does nothing. -/
def leaveLoops (how : Nat → Leave) : Builtin := fun args => do
  let n ← levels args
  let loops := (← get).loops
  if loops = 0 then return 0
  Exec.setStatus 0
  throw (how (min n loops))

/-! ## Directories -/

/-- The names on a path, and what stands before them. Two slashes at the beginning stay. -/
def rooted (path : String) : String × List String :=
  match path.toList with
  | '/' :: '/' :: c :: _ => (if c = '/' then "/" else "//", Path.names path)
  | ['/', '/'] => ("//", [])
  | _ => ("/", Path.names path)

/-- The path that one comes to from a path along another one. Each step up takes back the last
    name, wherever that leads. -/
def pathFrom (here path : String) : String :=
  let (lead, start) := rooted (if Path.isAbsolute path then path else here)
  let names := if Path.isAbsolute path then start else start ++ Path.names path
  lead ++ Text.join "/" (Process.settled names)

/-- Reads the options that say how the working directory is meant: whether it is the place
    itself, and not the path to it; and the arguments after them. -/
def readManner (physical : Bool) : List String → Exec (Bool × List String)
  | [] => return (physical, [])
  | arg :: rest =>
    match arg.toList with
    | ['-', '-'] => return (physical, rest)
    | '-' :: c :: letters => do
      match (c :: letters).find? fun c => c ≠ 'L' && c ≠ 'P' with
      | some c => Exec.fail ("Illegal option -" ++ String.singleton c)
      | none => readManner ((c :: letters).getLast? = some 'P') rest
    | _ => return (physical, arg :: rest)

/-- Does a path begin with a step that says where it leads from? -/
def saysStart (path : String) : Bool :=
  Path.isAbsolute path || path = "." || path = ".." || Text.startsWith path "./" || Text.startsWith path "../"

/-- Changes the working directory to what a path leads to. -/
def moveTo (physical : Bool) (path shown : String) : Exec Unit := do
  let sh ← get
  let goal := if physical then path else pathFrom sh.here path
  match sh.process.moved? goal with
  | none => Exec.fail ("can't cd to " ++ shown)
  | some process =>
    set { sh with process }
    Exec.assignExported "OLDPWD" sh.here
    let here := if physical then process.workingPath else goal
    modify ({ · with here })
    Exec.assignExported "PWD" here

/-- Changes the working directory. A name is looked for in some directories first. -/
def changeDirectory : Builtin := fun args => do
  let (physical, args) ← readManner false args
  let sh ← get
  let (path, told) : String × Bool :=
    match args with
    | [] => ((sh.valueOf? "HOME").getD "", false)
    | "-" :: _ => ((sh.valueOf? "OLDPWD").getD "", true)
    | path :: _ => (path, false)
  let name := if path.isEmpty then "." else path
  let candidates : List (String × String) :=
    match sh.valueOf? "CDPATH" with
    | some dirs =>
      if saysStart path then []
      else (Text.splitOn ':' dirs).map fun dir => (dir, if dir.isEmpty then name else dir ++ "/" ++ name)
    | none => []
  match candidates.find? fun c => sh.process.isDirectory c.2 with
  | some (dir, found) =>
    moveTo physical found name
    if told || !dir.isEmpty then print ((← get).here ++ "\n")
  | none =>
    moveTo physical name name
    if told then print ((← get).here ++ "\n")
  return 0

/-- Writes the working directory. -/
def writeDirectory : Builtin := fun args => do
  let (physical, _) ← readManner false args
  let sh ← get
  print ((if physical then sh.process.workingPath else sh.here) ++ "\n")
  return 0

/-! ## Variables -/

/-- Takes a number of arguments away. -/
def shift : Builtin := fun args => do
  let n ←
    match args with
    | [] => pure 1
    | arg :: _ => number arg
  let sh ← get
  if sh.arguments.length < n then Exec.fail "can't shift that many"
  else
    set { sh with arguments := sh.arguments.drop n }
    return 0

/-- Lists variables in order, with a word before each. -/
def list (word : String) (isListed : Variable → Bool) : Exec Unit := do
  let sh ← get
  let lines := sh.bindings.filterMap fun (name, v) =>
    if isListed v then
      some (word ++ name ++ match v.value with
        | some s => "=" ++ quoted s ++ "\n"
        | none => "\n")
    else none
  print (String.join (Ordered.ofList lines))

/-- Marks variables, some of which are set at the same time. -/
def mark (word : String) (isMarked : Variable → Bool) (change : Variable → Variable) : Builtin :=
  fun args => do
    let args := args.dropWhile (· = "--")
    if args.isEmpty || args = ["-p"] then list (word ++ " ") isMarked
    else
      for arg in args do
        let (name, value) :=
          match assignmentText? arg with
          | some (name, value) => (name, some value)
          | none => (arg, none)
        if !isName name then Exec.fail (name ++ ": bad variable name")
        if let some value := value then Exec.assign name value
        modify fun sh =>
          sh.putVariable name (change ((sh.bindings.lookup name).getD {}))
    return 0

/-- Marks variables as seen by programs. -/
def exported : Builtin :=
  mark "export" Variable.exported fun v => { v with exported := true }

/-- Protects variables. -/
def readOnly : Builtin :=
  mark "readonly" Variable.readOnly fun v => { v with readOnly := true }

/-- Hides a variable until the function that runs ends. -/
def hide (name : String) : Exec Unit :=
  modify fun sh =>
    match sh.hidden with
    | frame :: rest =>
      if frame.any (·.1 = name) then sh
      else { sh with hidden := ((name, sh.bindings.lookup name) :: frame) :: rest }
    | [] => sh

/-- Gives the function that runs variables of its own, which keep the values outside. -/
def ownVariables : Builtin := fun args => do
  if (← get).hidden.isEmpty then Exec.fail "not in a function"
  else
    for arg in args do
      match assignmentText? arg with
      | some (name, value) =>
        hide name
        Exec.assign name value
      | none => if isName arg then hide arg else Exec.fail (arg ++ ": bad variable name")
    return 0

/-- Removes variables or functions. -/
def unset : Builtin := fun args => do
  let functions := args.head? = some "-f"
  for name in args.dropWhile fun a => a = "-f" || a = "-v" || a = "--" do
    let sh ← get
    if functions then set { sh with functions := sh.functions.filter (·.1 ≠ name) }
    else if !isName name then Exec.fail (name ++ ": bad variable name")
    else if ((sh.bindings.lookup name).getD {}).readOnly then
      Exec.fail (name ++ ": is read only")
    else set (sh.dropVariable name)
  return 0

/-! ## Options -/

/-- The letters of options in the order in which they are shown, with their names. -/
def optionNames : List (Char × String) := [
  ('e', "errexit"), ('f', "noglob"), ('I', "ignoreeof"), ('i', "interactive"), ('m', "monitor"),
  ('n', "noexec"), ('s', "stdin"), ('x', "xtrace"), ('v', "verbose"), ('V', "vi"), ('E', "emacs"),
  ('C', "noclobber"), ('a', "allexport"), ('b', "notify"), ('u', "nounset"), ('p', "privileged")]

/-- Lists the options: how they are set, or the calls that set them so. -/
def listOptions (asCalls : Bool) : Exec Unit := do
  let sh ← get
  if !asCalls then print "Current option settings\n"
  for (c, name) in optionNames do
    let isSet := sh.hasOption c
    let blanks := String.ofList (List.replicate (16 - name.length) ' ')
    if asCalls then print ("set " ++ (if isSet then "-o " else "+o ") ++ name ++ "\n")
    else print (name ++ blanks ++ (if isSet then "on\n" else "off\n"))

/-- Sets or resets an option. -/
def setOption (on : Bool) (c : Char) : Exec Unit := do
  if optionNames.any (·.1 == c) then
    modify fun sh =>
      let isSet (d : Char) := if d == c then on else sh.options.contains d
      { sh with options := (optionNames.map (·.1)).filter isSet }
  else Exec.fail ("Illegal option -" ++ String.singleton c)

/-- Reads options and, after them, new arguments if there are some. -/
def setOptions : List String → Exec (Option (List String))
  | [] => return none
  | "--" :: rest => return some rest
  | "-" :: rest => return if rest.isEmpty then none else some rest
  | arg :: rest => do
    let (on, letters) :=
      match arg.toList with
      | '-' :: letters => (true, letters)
      | '+' :: letters => (false, letters)
      | _ => (true, [])
    if letters.isEmpty then return some (arg :: rest)
    else if letters = ['o'] then
      match rest with
      | name :: rest =>
        match optionNames.find? (·.2 == name) with
        | some (c, _) => setOption on c
        | none => Exec.fail ("Illegal option -o " ++ name)
        setOptions rest
      | [] =>
        listOptions (!on)
        return none
    else
      letters.forM (setOption on)
      setOptions rest

/-- Sets options and arguments, or lists the variables. -/
def assignAll : Builtin := fun args => do
  if args.isEmpty then list "" fun v => v.value.isSome
  else
    match ← setOptions args with
    | some arguments => modify fun sh => { sh with arguments }
    | none => pure ()
  return 0

/-! ## Reading -/

/-- A line of the input without its end, in which some characters may be protected, and
    whether the end was there. At most `bound` lines are joined by backslashes. -/
def readLine (raw : Bool) : (bound : Nat) → Exec (List (Char × Bool) × Bool)
  | 0 => return ([], false)
  | bound + 1 => do
    let text ← Exec.act Act.readLine
    let cs := text.toList.filter (· ≠ '\x00')
    let ended := cs.getLast? = some '\n'
    let cs := if ended then cs.dropLast else cs
    let rec protect : List Char → List (Char × Bool) × Bool
      | '\\' :: c :: rest =>
        let (l, open_) := protect rest
        ((c, true) :: l, open_)
      | ['\\'] => ([], true)
      | c :: rest =>
        let (l, open_) := protect rest
        ((c, false) :: l, open_)
      | [] => ([], false)
    if raw then return (cs.map (·, false), ended)
    else
      let (l, goesOn) := protect cs
      if goesOn && ended then
        let (more, ended) ← readLine raw bound
        return (l ++ more, ended)
      else return (l, ended)

/-- The first field of a line, and what follows its end. A blank at the end takes one other
    separator with it. -/
def cutField (separators : List Char) (l : List (Char × Bool)) :
    List (Char × Bool) × List (Char × Bool) :=
  let separates (c : Char × Bool) : Bool := !c.2 && separators.contains c.1
  let isBlank (c : Char × Bool) : Bool := separates c && Numeral.isBlank c.1
  let l := l.dropWhile isBlank
  let field := l.takeWhile (!separates ·)
  let rest := (l.drop field.length).dropWhile isBlank
  match rest with
  | c :: later => (field, if separates c then later.dropWhile isBlank else rest)
  | [] => (field, [])

/-- A line without its end, which is what begins with a blank and has only blanks and escaped
    characters. -/
def withoutEnd (isBlank : Char × Bool → Bool) (l : List (Char × Bool)) : List (Char × Bool) :=
  let plain := (l.reverse.dropWhile fun c => c.2 || isBlank c).reverse
  plain ++ (l.drop plain.length).takeWhile (!isBlank ·)

/-- What the last variable gets: all that is left, without the blanks at its ends. If only one
    field is left, its end is left out. -/
def lastField (separators : List Char) (l : List (Char × Bool)) : List (Char × Bool) :=
  let isBlank (c : Char × Bool) : Bool := !c.2 && separators.contains c.1 && Numeral.isBlank c.1
  let l := withoutEnd isBlank (l.dropWhile isBlank)
  match cutField separators l with
  | (field, []) => field
  | _ => l

/-- The values for variables out of a line. -/
def distribute (separators : List Char) : List String → List (Char × Bool) → List (String × String)
  | [], _ => []
  | [name], l => [(name, String.ofList ((lastField separators l).map Prod.fst))]
  | name :: rest, l =>
    let (field, l) := cutField separators l
    (name, String.ofList (field.map Prod.fst)) :: distribute separators rest l

/-- Reads a line into variables. -/
def read : Builtin := fun args => do
  let raw := args.head? = some "-r"
  let names := (args.dropWhile fun a => a = "-r" || a = "--")
  if names.isEmpty then Exec.fail "arg count"
  else
    let sh ← get
    let (l, ended) ← readLine raw Act.patience
    let separators := sh.separators.toList
    for (name, value) in distribute separators names l do
      if isName name then Exec.assign name value
      else Exec.fail (name ++ ": bad variable name")
    return if ended then 0 else 1

/-! ## Options of scripts -/

/-- Sets what the reading of an option found, and where the next one is looked for. -/
def foundOption (name letter : String) (value : Option String) (index place : Nat) : Exec Unit := do
  Exec.assign "OPTIND" (toString index)
  modify fun sh => { sh with optionPlace := place }
  match value with
  | some s => Exec.assign "OPTARG" s
  | none => modify fun sh => sh.dropVariable "OPTARG"
  Exec.assign name letter

/-- Reads the next option of the arguments. -/
def nextOption : Builtin := fun args => do
  match args with
  | letters :: name :: given =>
    let sh ← get
    let words := if given.isEmpty then sh.arguments else given
    let index := ((sh.valueOf? "OPTIND").bind Numeral.plain?).getD 1
    let isQuiet := Text.startsWith letters ":"
    let word := (words[index - 1]?).getD ""
    let isOver := word.length < 2 || !Text.startsWith word "-" || word = "--"
    if isOver then
      foundOption name "?" none (if word = "--" then index + 1 else index) 1
      return 1
    let c := (word.toList[sh.optionPlace]?).getD '?'
    let later := word.toList.drop (sh.optionPlace + 1)
    let (nextIndex, nextPlace) := if later.isEmpty then (index + 1, 1) else (index, sh.optionPlace + 1)
    match letters.toList.dropWhile (· ≠ c), c with
    | _, ':' | [], _ =>
      if isQuiet then foundOption name "?" (some (String.singleton c)) nextIndex nextPlace
      else
        Exec.complain ("Illegal option -" ++ String.singleton c)
        foundOption name "?" none nextIndex nextPlace
    | _ :: ':' :: _, _ =>
      if !later.isEmpty then
        foundOption name (String.singleton c) (some (String.ofList later)) (index + 1) 1
      else
        match words[index]? with
        | some value => foundOption name (String.singleton c) (some value) (index + 2) 1
        | none =>
          if isQuiet then foundOption name ":" (some (String.singleton c)) (index + 1) 1
          else
            Exec.complain ("No arg for -" ++ String.singleton c ++ " option")
            foundOption name "?" none (index + 1) 1
    | _, _ => foundOption name (String.singleton c) none nextIndex nextPlace
    return 0
  | _ => Exec.fail "Usage: getopts optstring var [arg]"

/-! ## Signals -/

/-- The processes of a job by its sign: its place after a percent sign, or the last one. -/
def jobOf? (sh : Shell) (sign : String) : Option Job :=
  match sign.toList with
  | '%' :: rest =>
    if rest.isEmpty || rest = ['%'] || rest = ['+'] then sh.jobs.head?
    else if rest = ['-'] then sh.jobs[1]?
    else (Numeral.plain? (String.ofList rest)).bind fun n => sh.jobs.find? (·.place == n)
  | _ => none

/-- Sends a signal to what a target stands for: a process, a group or a job. -/
def sendTo (signal : Nat) (target : String) : Exec Bool := do
  let sh ← get
  match target.toList with
  | '%' :: _ =>
    match jobOf? sh target with
    | some j => Exec.act (Act.send fun m => m.sendGroup? j.number signal)
    | none => Exec.fail ("No such job: " ++ target)
  | '-' :: digits =>
    match Numeral.plain? (String.ofList digits) with
    | some n => Exec.act (Act.send fun m => m.sendGroup? n signal)
    | none => Exec.fail ("Illegal number: " ++ target)
  | _ =>
    match Numeral.plain? target with
    | some 0 => Exec.act (Act.send fun m => m.sendGroup? sh.process.group signal)
    | some n => Exec.act (Act.send fun m => m.send? n signal)
    | none => Exec.fail ("Illegal number: " ++ target)

/-- Sends signals to processes, or lists the names of signals. -/
def kill : Builtin := fun args => do
  let (name, targets) :=
    match args with
    | "-s" :: name :: rest => (name, rest)
    | "--" :: rest => ("TERM", rest)
    | arg :: rest =>
      match arg.toList with
      | '-' :: name => (String.ofList name, if rest.head? = some "--" then rest.drop 1 else rest)
      | _ => ("TERM", arg :: rest)
    | [] => ("TERM", [])
  if name = "l" then
    match targets with
    | [] =>
      print (String.join ((List.range Signal.last).map fun n => Signal.name (n + 1) ++ "\n"))
      return 0
    | target :: _ =>
      let n ← number target
      let n := if n > 128 then n - 128 else n
      if n = 0 || n > Signal.last then
        Exec.fail ("invalid signal number or exit status: " ++ target)
      print (Signal.name n ++ "\n")
      return 0
  match Signal.ofText? name with
  | none => Exec.fail ("invalid signal number or name: " ++ name)
  | some n =>
    if targets.isEmpty then Exec.fail "Usage: kill [-s sigspec | -signum | -sigspec] [pid | job]... or\nkill -l [exitstatus]"
    let mut status := 0
    for target in targets do
      if !(← sendTo n target) then
        Exec.complain "No such process\n"
        status := 1
    return status

/-- The process of a shell with what it does on a signal changed. -/
def withTrap (p : Process) (n : Nat) (action : Option String) : Process :=
  let ignored := p.ignored.filter (· ≠ n)
  let caught := p.caught.filter (· ≠ n)
  match action with
  | none => { p with ignored, caught }
  | some a => if a.isEmpty then { p with ignored := n :: ignored, caught } else { p with ignored, caught := n :: caught }

/-- Says what is done on signals. -/
def trap : Builtin := fun args => do
  let args := if args.head? = some "--" then args.drop 1 else args
  let (action, signals) : Option String × List String :=
    match args with
    | action :: s :: rest => if action = "-" then (none, s :: rest) else
        if (Numeral.plain? action).isSome then (none, action :: s :: rest)
        else (some action, s :: rest)
    | signals => (none, signals)
  if args.isEmpty then
    for (name, action) in (← get).traps.reverse do
      print ("trap -- " ++ quoted action ++ " " ++ name ++ "\n")
    return 0
  let mut status := 0
  for s in signals do
    match Signal.ofText? s with
    | none =>
      Exec.act (Act.complain ("trap: " ++ s ++ ": bad trap"))
      status := 1
    | some n =>
      let name := Signal.name n
      modify fun sh =>
        let others := sh.traps.filter (·.1 ≠ name)
        let traps :=
          match action with
          | some a => (name, a) :: others
          | none => others
        -- a signal that was ignored before stays so, whatever is said
        let isFixed := n = 0 || sh.ignoredBefore.contains n
        { sh with traps, process := if isFixed then sh.process else withTrap sh.process n action }
  return status

/-- Waits for a job: how it ended, unless a signal that is caught came before that. -/
def waitFor (j : Job) : Exec (Option Ending) := do
  Exec.noteJobs
  let known : Exec (Option Ending) := do
    return ((← get).jobs.find? (·.number == j.number)).bind (·.ending)
  let ending ←
    match ← known with
    | some ending => pure (some ending)
    | none => do
      Exec.act (Act.pause { event := .ended j.processes, interruptible := true })
      Exec.noteJobs
      known
  if ending.isSome then
    Exec.changeJobs fun k => if k.number = j.number then { k with waited := true } else k
  return ending

/-- The status of a builtin that a signal has interrupted. -/
def interruptedStatus : Exec Nat := do
  let p := (← get).process
  let pending := ((p.machine.process? p.number).map (·.pending)).getD []
  return 128 + pending.headD 0

/-- Waits for the jobs in order. -/
def waitForAll : List Job → Exec Nat
  | [] => return 0
  | j :: rest => do
    match ← waitFor j with
    | some _ => waitForAll rest
    | none => interruptedStatus

/-- Waits for what arguments mean. The status is that of the last one. -/
def waitForEach (status : Nat) : List String → Exec Nat
  | [] => return status
  | arg :: rest => do
    let sh ← get
    let job ←
      if arg.toList.head? = some '%' then
        match jobOf? sh arg with
        | some j => pure (some j)
        | none => Exec.fail ("No such job: " ++ arg)
      else do
        let n ← number arg
        pure (sh.jobs.find? fun j => j.processes.contains n)
    match job with
    | none => waitForEach missingStatus rest
    | some j =>
      match ← waitFor j with
      | some ending => waitForEach ending.status rest
      | none => interruptedStatus

/-- Waits for commands in the background. -/
def wait : Builtin := fun args => do
  Exec.noteJobs
  if args.isEmpty then waitForAll (← get).jobs.reverse else waitForEach 0 args

/-- What a list of jobs says about one. -/
def stateOfJob (j : Job) : String :=
  match j.ending with
  | none => "Running"
  | some (.exit 0) => "Done"
  | some (.exit status) => "Done(" ++ toString status ++ ")"
  | some (.killed signal) => Signal.description signal

/-- Lists the jobs. Those that have ended are forgotten after that. -/
def listJobs : Builtin := fun _ => do
  Exec.noteJobs
  let jobs := (← get).jobs
  for (j, i) in jobs.zipIdx do
    let sign := if i = 0 then "+" else if i = 1 then "-" else " "
    let line := "[" ++ toString j.place ++ "] " ++ sign ++ " " ++ stateOfJob j
    let blanks := String.ofList (List.replicate (33 - line.length) ' ')
    -- what the commands are is not known any more
    print (line ++ blanks ++ String.join ((j.processes.drop 1).map fun _ => " | ") ++ "\n")
  modify fun sh => { sh with jobs := sh.jobs.filter (·.ending.isNone) }
  return 0

/-- Puts a job in the foreground or lets it go on, which is not possible for any. -/
def resumeJob : Builtin := fun args => do
  let sh ← get
  match args.head?, (args.head?.bind (jobOf? sh)).orElse fun _ => sh.jobs.head? with
  | none, none => Exec.fail "No current job"
  | some arg, none => Exec.fail ("No such job: " ++ arg)
  | _, some _ => Exec.fail "job (null) not created under job control"

/-! ## All of them -/

/-- The builtins that no function can replace, and whose errors end the shell. -/
def specialNames : List String :=
  [".", ":", "break", "continue", "eval", "exec", "exit", "export", "readonly", "return", "set",
    "shift", "times", "trap", "unset"]

/-- The builtins whose arguments may set variables. -/
def declaringNames : List String :=
  ["export", "readonly", "local"]

/-- The builtins that run other commands. -/
def runningNames : List String :=
  [".", "eval", "exec", "command", "type"]

/-- The builtins that run no other commands. -/
def table : List (String × Builtin) := [
  (":", nothing 0), ("true", nothing 0), ("false", nothing 1), ("hash", nothing 0),
  ("alias", nothing 0), ("unalias", nothing 0), ("jobs", listJobs), ("bg", resumeJob),
  ("fg", resumeJob), ("exit", exit), ("return", leave),
  ("break", leaveLoops .loops), ("continue", leaveLoops .round), ("cd", changeDirectory),
  ("chdir", changeDirectory), ("pwd", writeDirectory), ("shift", shift), ("export", exported),
  ("readonly", readOnly), ("local", ownVariables), ("unset", unset), ("set", assignAll),
  ("read", read), ("getopts", nextOption), ("kill", kill), ("trap", trap), ("wait", wait),
  ("echo", ofUtility Utility.echo), ("printf", ofUtility Utility.printf),
  ("test", ofUtility Utility.test), ("[", ofUtility Utility.bracket),
  ("ulimit", fun _ => do
    print "unlimited\n"
    return 0),
  ("umask", fun args => do
    if args.isEmpty then print "0022\n"
    return 0),
  ("times", fun _ => do
    print "0m0.000000s 0m0.000000s\n0m0.000000s 0m0.000000s\n"
    return 0)]

/-- Is there a builtin of the name? -/
def isBuiltin (name : String) : Bool :=
  runningNames.contains name || table.any (·.1 = name)

end Builtin

end ParseBench.Shell
