/-
  ParseBench.Host.Shell.Exec

  Running commands. Every function takes a bound on its depth first, which loops and
  the lines of a text use up, too; a shell that comes to its end is killed. What
  runs beside the shell, or in a copy of it, is a process of its own.
-/

import ParseBench.Host.Shell.Builtin
import ParseBench.Host.Shell.Expansion
import ParseBench.Host.Shell.Reading

namespace ParseBench.Shell

namespace Exec

/-! ## Redirections -/

/-- Puts a stream under a number. -/
def attach (number id : Nat) : Exec Unit :=
  modify fun sh => { sh with process := sh.process.attach number id }

/-- Puts a new pipe with a content under a number. -/
def attachText (number : Nat) (text : String) : Exec Unit := do
  let sh ← get
  let (id, machine) := sh.process.machine.openStream (.pipe (Raw.toBytes text))
  set { sh with process := { sh.process with machine } }
  attach number id

/-- Opens a pipe. Both its ends are kept open. -/
def openPipe : Exec (Nat × Nat) := do
  let sh ← get
  let ((reader, writer), machine) := sh.process.machine.openPipe
  set { sh with process := ({ sh.process with machine }.hold reader).hold writer }
  return (reader, writer)

/-- Closes a stream that was kept open. -/
def release (id : Nat) : Exec Unit :=
  modify fun sh => { sh with process := sh.process.release id }

/-- Why a file cannot be opened, in words. -/
def openFault (path : String) (mode : OpenMode) (r : Refusal) : String :=
  let verb := if mode = .read then "open" else "create"
  let reason :=
    match r with
    | .missing | .notDirectory => if mode = .read then "No such file" else "Directory nonexistent"
    | r => r.reason
  "cannot " ++ verb ++ " " ++ path ++ ": " ++ reason

/-- Opens a file under a number. Says whether that was possible. -/
def openUnder (number : Nat) (path : String) (mode : OpenMode) : Exec Bool := do
  match ← act (Act.openPath path mode) with
  | .ok id =>
    attach number id
    return true
  | .error r =>
    complain (openFault path mode r)
    return false

/-- Puts what a stream leads to under another number, too, or closes it. -/
def join (number : Nat) (source : String) : Exec Bool := do
  let sh ← get
  if source = "-" then
    set { sh with process := sh.process.detach number }
    return true
  match Numeral.plain? source, source.length with
  | some n, 1 =>
    match sh.process.streams.lookup n with
    | some id =>
      attach number id
      return true
    | none =>
      complain (source ++ ": Bad file descriptor")
      return false
  | _, _ => fail ("Bad fd number: " ++ source)

/-- Redirects a stream. Says whether that was possible. -/
def redirect (output : Option Command → Exec String) (bound : Nat) (r : Redirect) : Exec Bool := do
  let (number, mode, target) := r
  match mode with
  | .text =>
    attachText number (Mark.text (← marks output bound false false target))
    return true
  | .join => join number (← text output bound false target)
  | .read => openUnder number (← text output bound false target) .read
  | .append => openUnder number (← text output bound false target) .append
  | .update => openUnder number (← text output bound false target) .update
  | .force => openUnder number (← text output bound false target) .replace
  | .replace =>
    let path ← text output bound false target
    let sh ← get
    match sh.hasOption 'C', sh.process.node? path with
    | true, some (.file ..) =>
      complain ("cannot create " ++ path ++ ": File exists")
      return false
    | _, _ => openUnder number path .replace

/-- Redirects streams in order, up to the first one where that is not possible. -/
def redirectAll (output : Option Command → Exec String) (bound : Nat) : List Redirect → Exec Bool
  | [] => return true
  | r :: rest => do
    if ← redirect output bound r then redirectAll output bound rest else return false

/-- The status of a command whose streams cannot be redirected. -/
def redirectStatus : Nat := 2

/-- Performs an action with streams redirected, or else another one. -/
def redirectedOr (output : Option Command → Exec String) (bound : Nat) (rs : List Redirect)
    (otherwise action : Exec Unit) : Exec Unit := do
  if rs.isEmpty then action
  else
    let { streams, held, .. } := (← get).process
    -- what the numbers stood for before stays open
    let kept := streams.map (·.2) ++ held
    modify fun sh => { sh with process := { sh.process with held := kept } }
    let result ← caught do
      if ← redirectAll output bound rs then action
      else
        setStatus redirectStatus
        otherwise
    modify fun sh => { sh with process := { sh.process with streams, held } }
    resume result

/-- Performs an action with streams redirected, if that is possible. -/
def redirected (output : Option Command → Exec String) (bound : Nat) (rs : List Redirect)
    (action : Exec Unit) : Exec Unit :=
  redirectedOr output bound rs (return ()) action

/-! ## Variables for one command -/

/-- Sets variables for what comes. -/
def assignAll (output : Option Command → Exec String) (bound : Nat)
    (assignments : List (String × Word)) : Exec Unit :=
  assignments.forM fun (name, w) => do
    assign name (← text output bound true w)

/-- Marks variables as seen by programs. -/
def exportAll (assignments : List (String × Word)) : Exec Unit :=
  modify fun sh => assignments.foldl (fun sh (name, _) =>
    sh.putVariable name { (sh.bindings.lookup name).getD {} with exported := true }) sh

/-- Gives variables back what they were. -/
def putBack (saved : List (String × Option Variable)) : Exec Unit :=
  modify fun sh => saved.foldl (fun sh (name, v) =>
    match v with
    | some v => sh.putVariable name v
    | none => sh.dropVariable name) sh

/-- Performs an action with variables set for it alone. -/
def withVariables (output : Option Command → Exec String) (bound : Nat)
    (assignments : List (String × Word)) (action : Exec Unit) : Exec Unit := do
  if assignments.isEmpty then action
  else
    let sh ← get
    let saved := assignments.map fun (name, _) => (name, sh.bindings.lookup name)
    let result ← caught do
      assignAll output bound assignments
      exportAll assignments
      action
    putBack saved.reverse
    resume result

/-! ## Programs -/

/-- The time that it takes to start a program. -/
def startTime : Nat := 400

/-- The time that a command takes that is no program. -/
def commandTime : Nat := 2

/-- Puts a program in the place of the shell, if it can be started: how it ends, or else the
    status that says why not. -/
def become (launch : Launcher) (name : String) (args : List String) : Exec (Except Nat Ending) := do
  let sh ← get
  let paths := Process.programPaths sh.searched name
  set { sh with process := { sh.process with environment := sh.environment, caught := [] } }
  act (Act.spend startTime)
  let result ← act (launch.startFirst args missingStatus paths)
  match result with
  | .ok _ => return result
  | .error status =>
    -- the machine has gone on in the meantime
    modify fun now => { sh with process := { sh.process with machine := now.process.machine } }
    complain (name ++ if status = deniedStatus then ": Permission denied" else ": not found")
    return result

/-- Runs a program. The last one takes the place of the shell. -/
def start (launch : Launcher) (last : Bool) (name : String) (args : List String) : Exec Ending := do
  let body : Exec Ending := do
    match ← become launch name args with
    | .ok ending => return ending
    | .error status => return .exit status
  if last && !hasTraps (← get) then finish (← body)
  else
    let _ ← takePlace
    let number ← fork id body
    return (← await [number]).headD (.exit 0)

/-- The path of the program of a name. -/
def programPath? (sh : Shell) (name : String) : Option String :=
  sh.process.programPath? sh.searched name

/-- The words of the language. -/
def reservedWords : List String :=
  ["!", "\x7b", "\x7d", "case", "do", "done", "elif", "else", "esac", "fi", "for", "if", "in",
    "then", "until", "while"]

/-- Says what a name stands for, in short or in words. -/
def describe (inWords : Bool) (name : String) : Exec Nat := do
  let sh ← get
  let say (short long : String) : Exec Nat := do
    Builtin.print ((if inWords then name ++ " is " ++ long else short) ++ "\n")
    return 0
  if reservedWords.contains name then say name "a shell keyword"
  else if Builtin.specialNames.contains name then say name "a special shell builtin"
  else if (sh.functions.lookup name).isSome then say name "a shell function"
  else if Builtin.isBuiltin name then say name "a shell builtin"
  else
    match programPath? sh name with
    | some path => say path path
    | none =>
      if inWords then Builtin.print (name ++ ": not found\n")
      return missingStatus

/-- Says what names stand for. The status is that of the last one that stands for nothing. -/
def describeAll (inWords : Bool) (names : List String) : Exec Nat :=
  names.foldlM (fun status name => do
    let s ← describe inWords name
    return if s = 0 then status else s) 0

/-- The number of functions that may call each other. -/
def maxCalls : Nat := 1000

/-! ## Loops -/

/-- Does a loop go on after a round that was left like this? -/
def goesOn (r : Except Leave Unit) : Exec Bool := do
  match r with
  | .ok () => return true
  | .error (.loops n) => if n ≤ 1 then return false else throw (.loops (n - 1))
  | .error (.round n) => if n ≤ 1 then return true else throw (.round (n - 1))
  | .error l => throw l

/-- Performs the rounds of a loop. -/
def asLoop (action : Exec Unit) : Exec Unit := do
  modify fun sh => { sh with loops := sh.loops + 1 }
  let result ← caught action
  modify fun sh => { sh with loops := sh.loops - 1 }
  resume result

/-! ## Calls -/

/-- The words after names that only say how the next one is looked up, and whether there are
    such names. -/
def withoutLookup : List String → List String × Bool
  | "command" :: rest =>
    match rest with
    | "-v" :: _ | "-V" :: _ => ("command" :: rest, false)
    | "-p" :: rest | "--" :: rest => ((withoutLookup rest).1, true)
    | rest => ((withoutLookup rest).1, true)
  | words => (words, false)

/-- Performs a builtin. Its errors end the shell only if it is special. -/
def perform (name : String) (special : Bool) (b : Exec Nat) : Exec Unit := do
  let before := (← get).builtin
  modify fun sh => { sh with builtin := some name }
  let result ← caught b
  let fault ← act Act.takeOutputFault
  if fault.isSome then complain (name ++ ": I/O error")
  modify fun sh => { sh with builtin := before }
  match result with
  | .ok status => setStatus (if fault.isSome && status % 2 = 0 then status + 1 else status)
  | .error .failure => if special then throw .failure
  | .error l => throw l

/-- Ends the shell for a failure if that is asked for. -/
def checkStatus (tested : Bool) : Exec Unit := do
  let sh ← get
  if !tested && sh.hasOption 'e' && sh.status ≠ 0 then throw .shell

/-- Shows a call before it runs, if that is asked for. -/
def trace (words : List String) : Exec Unit := do
  if (← get).hasOption 'x' then act (Act.complain (Text.join " " ("+" :: words)))

/-- A text without the ends of lines at its end and without zero characters. -/
def captured (s : String) : String :=
  let cs := s.toList.filter (· ≠ '\x00')
  String.ofList (Text.trimRightWhere (· == '\n') cs)

/-- The path and the content of a file that a shell reads commands from. A name is looked for
    where programs are. -/
def readScript (name : String) : Exec (String × String) := do
  let sh ← get
  let candidates := Process.programPaths sh.searched name
  -- a name is only looked for, a path has to be there
  let found := if name.toList.contains '/' then some name
    else candidates.find? fun path => (sh.process.node? path).isSome
  match found with
  | none => fail (name ++ ": not found")
  | some path =>
    match ← act (Act.readFile path) with
    | .ok text => return (path, text)
    | .error .directory => return (path, "")
    | .error r => fail (openFault name .read r)

/-- Puts a program in the place of the shell. If that is not possible the shell ends. -/
def replace (launch : Launcher) (words : List String) : Exec Unit := do
  match words with
  | [] => return ()
  | name :: args =>
    match ← become launch name args with
    | .ok ending => finish ending
    | .error status =>
      modify fun sh => { sh with traps := [] }
      setStatus status
      throw .shell

/-- A copy of the shell as it runs in the background: it reads nothing of what the script reads,
    and nobody can interrupt it. -/
def inBackground (sh : Shell) : Shell :=
  let unheard : List Nat := [2, 3]
  let process := (sh.process.attach 0 Machine.nowhere).ignoring unheard
  { sh with process, ignoredBefore := unheard ++ sh.ignoredBefore }

/-- How a command is run. -/
structure Manner where
  /-- Its failure is looked at. -/
  tested : Bool := false
  /-- The shell does nothing after it. -/
  last : Bool := false
  deriving DecidableEq, Repr, Inhabited

/-- The manner of a command that others follow. -/
def Manner.first (how : Manner) : Manner :=
  { how with last := false }

/-- The manner of a command whose failure is looked at. -/
def Manner.condition : Manner :=
  { tested := true }

/-- The manner of all that a copy of the shell runs. -/
def Manner.whole (tested : Bool) : Manner :=
  { tested, last := true }

mutual

/-- Runs a command. -/
def run (launch : Launcher) : (bound : Nat) → Manner → Command → Exec Unit
  | 0, _, _ => giveUp
  | bound + 1, how, c => do
    let output := capture launch bound
    -- commands may be read without being run
    if (← get).hasOption 'n' then return ()
    match c with
    | .call line assignments words reds =>
      modify fun sh => { sh with line, outputStatus := 0 }
      act (Act.spend commandTime)
      call launch bound how assignments words reds
      answer launch bound
      checkStatus how.tested
    | .pipeline parts =>
      let _ ← takePlace
      let numbers ← pipeline launch bound how.tested id none parts
      let endings ← await numbers
      setStatus ((endings.getLast?.map Ending.status).getD 0)
      checkStatus how.tested
    | .negated c =>
      run launch bound .condition c
      setStatus (if (← get).status = 0 then 1 else 0)
    | .both first second =>
      run launch bound .condition first
      if (← get).status = 0 then run launch bound how second
    | .either first second =>
      run launch bound .condition first
      if (← get).status ≠ 0 then run launch bound how second
    | .inOrder first second =>
      run launch bound how.first first
      run launch bound how second
    | .background c =>
      let place ← takePlace
      let numbers ← pipeline launch bound false inBackground none (match c with
        | .pipeline parts => parts
        | c => [c])
      let number := numbers.getLast?.getD 0
      modify fun sh =>
        { sh with jobs := ⟨place, number, numbers, none, false⟩ :: sh.jobs, lastJob := some number }
      setStatus 0
    | .subshell body reds =>
      redirected output bound reds do
        if how.last && !hasTraps (← get) then
          modify asCopy
          finish (← isolated launch bound (run launch bound how body))
        else
          let _ ← takePlace
          let number ← fork id (isolated launch bound (run launch bound (.whole how.tested) body))
          setStatus (((← await [number]).head?.map Ending.status).getD 0)
      checkStatus how.tested
    | .group body reds =>
      redirected output bound reds (run launch bound (if reds.isEmpty then how else how.first) body)
    | .branch condition body otherwise reds =>
      let how := if reds.isEmpty then how else how.first
      redirected output bound reds do
        run launch bound .condition condition
        if (← get).status = 0 then run launch bound how body
        else
          match otherwise with
          | some c => run launch bound how c
          | none => setStatus 0
    | .loop untilTrue condition body reds =>
      redirected output bound reds do
        asLoop (rounds launch bound how.first untilTrue condition body 0)
    | .forEach name words body reds =>
      redirected output bound reds do
        let items ←
          match words with
          | some ws => fields output bound false ws
          | none => pure (← get).arguments
        if items.isEmpty then setStatus 0
        asLoop (forItems launch bound how.first name body items)
    | .choose word branches reds =>
      redirected output bound reds do
        let s ← text output bound false word
        choose launch bound (if reds.isEmpty then how else how.first) s branches
    | .define name body =>
      modify fun sh =>
        { sh with functions := (name, body) :: sh.functions.filter (·.1 ≠ name) }
      setStatus 0

/-- Runs a call. -/
def call (launch : Launcher) : (bound : Nat) → Manner → List (String × Word) →
    List Word → List Redirect → Exec Unit
  | 0, _, _, _, _ => giveUp
  | bound + 1, how, assignments, words, reds => do
    let output := capture launch bound
    let declares :=
      match words.head? with
      | some [.text name false] => Builtin.declaringNames.contains name
      | _ => false
    let (found, plain) := withoutLookup (← fields output bound declares words)
    match found with
    | [] =>
      redirected output bound reds do
        assignAll output bound assignments
        setStatus (← get).outputStatus
    | name :: args =>
      trace found
      let builtin : Exec Nat := performNamed launch bound how.tested name args
      if name = "exec" then
        -- the redirections stay
        if ← redirectAll output bound reds then
          assignAll output bound assignments
          exportAll assignments
          setStatus 0
          if !args.isEmpty then replace launch args
        else
          setStatus redirectStatus
          throw .failure
      else if Builtin.specialNames.contains name && !plain then
        redirectedOr output bound reds (throw .failure) do
          assignAll output bound assignments
          perform name true builtin
      else
        redirected output bound reds do
          let sh ← get
          match if plain then none else sh.functions.lookup name with
          | some body => callFunction launch bound how.tested assignments args body
          | none =>
            withVariables output bound assignments do
              if Builtin.isBuiltin name then perform name false builtin
              else setStatus (← start launch how.last name args).status

/-- Performs the builtin of a name. -/
def performNamed (launch : Launcher) : (bound : Nat) → (tested : Bool) → String → List String →
    Exec Nat
  | 0, _, _, _ => giveUp
  | bound + 1, tested, name, args => do
    match name, args with
    | "eval", args =>
      runText launch bound { tested } false (Reader.ofText (Text.join " " args))
      return (← get).status
    | ".", [] => return 0
    | ".", path :: _ =>
      let (found, s) ← readScript path
      -- messages say that they come from there
      modify fun sh => { sh with builtin := some found }
      let result ← caught (runText launch bound {} false (Reader.ofText s))
      match result with
      | .error .function => return (← get).status
      | result =>
        resume result
        return (← get).status
    | "command", "-V" :: names => describeAll true (names.take 1)
    | "command", _ :: names => describeAll false (names.take 1)
    | "type", names => describeAll true names
    | name, args =>
      match Builtin.table.lookup name with
      | some b => b args
      | none => return missingStatus

/-- Calls a function, which has arguments and may have variables of its own. -/
def callFunction (launch : Launcher) : (bound : Nat) → (tested : Bool) →
    List (String × Word) → List String → Command → Exec Unit
  | 0, _, _, _, _ => giveUp
  | bound + 1, tested, assignments, args, body => do
    let sh ← get
    if maxCalls ≤ sh.hidden.length then
      fail ("Maximum function recursion depth (" ++ toString maxCalls ++ ") reached")
    set { sh with arguments := args, loops := 0, hidden := [] :: sh.hidden }
    let result ← caught do
      assignments.forM fun (name, _) => Builtin.hide name
      assignAll (capture launch bound) bound assignments
      exportAll assignments
      run launch bound { tested } body
    let after ← get
    putBack (after.hidden.headD [])
    modify fun after =>
      { after with arguments := sh.arguments, loops := sh.loops, hidden := sh.hidden }
    match result with
    | .error .function => return ()
    | result => resume result

/-- Begins the commands of a pipeline, each in a copy of the shell with a change. The first one
    reads from a stream if one is given. Yields the numbers of their processes. -/
def pipeline (launch : Launcher) : (bound : Nat) → (tested : Bool) → (change : Shell → Shell) →
    Option Nat → List Command → Exec (List Nat)
  | 0, _, _, _, _ => giveUp
  | _ + 1, _, _, _, [] => return []
  | bound + 1, tested, change, source, c :: rest => do
    let pipe ← if rest.isEmpty then pure none else some <$> openPipe
    let joined (sh : Shell) : Shell :=
      let p := sh.process
      let p := (source.map fun id => p.attach 0 id).getD p
      let p := (pipe.map fun ends => p.attach 1 ends.2).getD p
      { sh with process := p }
    let number ← fork (joined ∘ change)
      (isolated launch bound (run launch bound (.whole tested) c))
    if let some source := source then release source
    if let some (_, writer) := pipe then release writer
    let later ← pipeline launch bound tested change (pipe.map Prod.fst) rest
    return number :: later

/-- Performs all that a copy of a shell does, up to its end. -/
def isolated (launch : Launcher) : (bound : Nat) → Exec Unit → Exec Ending
  | 0, _ => giveUp
  | bound + 1, action => do
    let result ← caught action
    ended launch bound result

/-- The end of a shell that was left like this. What it does at its end is done first. -/
def ended (launch : Launcher) : (bound : Nat) → Except Leave Unit → Exec Ending
  | 0, _ => giveUp
  | bound + 1, _ => do
    let sh ← get
    match sh.traps.lookup "EXIT" with
    | none => return .exit (sh.status % 256)
    | some action =>
      set { sh with traps := sh.traps.filter (·.1 ≠ "EXIT"), loops := 0 }
      match ← caught (runText launch bound {} false (Reader.ofText action)) with
      | .error .shell | .error .failure => return .exit ((← get).status % 256)
      | _ => return .exit (sh.status % 256)

/-- Does what is to be done on the signals that have come. -/
def answer (launch : Launcher) : (bound : Nat) → Exec Unit
  | 0 => giveUp
  | bound + 1 => do
    let signals ← act Act.takeSignals
    signals.forM fun signal => do
      match (← get).traps.lookup (Signal.name signal) with
      | some action =>
        let status := (← get).status
        runText launch bound {} false (Reader.ofText action)
        setStatus status
      | none => return ()

/-- Runs the lines of a text. `ran` says that a command has run before; if there is none at
    all, that is a success. -/
def runText (launch : Launcher) : (bound : Nat) → Manner → (ran : Bool) → Reader → Exec Unit
  | 0, _, _, _ => giveUp
  | bound + 1, how, ran, r => do
    if r.rest.isEmpty then
      if !ran then setStatus 0
    else
      match commandLine? r with
      | none =>
        modify fun sh => { sh with line := r.line }
        fail "Syntax error"
      | some (none, later) => runText launch bound how ran later
      | some (some c, later) =>
        if (← get).hasOption 'n' then runText launch bound how ran later
        else
          run launch bound (if later.rest.isEmpty then how else how.first) c
          runText launch bound how true later

/-- What commands write, run in a shell of their own. -/
def capture (launch : Launcher) : (bound : Nat) → Option Command → Exec String
  | 0, _ => giveUp
  | _ + 1, none => do
    modify fun sh => { sh with outputStatus := 0 }
    return ""
  | bound + 1, some c => do
    let _ ← takePlace
    let (reader, writer) ← openPipe
    let joined (sh : Shell) : Shell := { sh with process := sh.process.attach 1 writer }
    let number ← fork joined (isolated launch bound (run launch bound (.whole false) c))
    release writer
    let s ← act (Act.textOf? reader)
    release reader
    let endings ← await [number]
    modify fun sh => { sh with outputStatus := (endings.head?.map Ending.status).getD 0 }
    return captured (s.getD "")

/-- Runs the rounds of a loop. The status is that of the last round, at first `status`. -/
def rounds (launch : Launcher) : (bound : Nat) → Manner → (untilTrue : Bool) →
    (condition body : Command) → (status : Nat) → Exec Unit
  | 0, _, _, _, _, _ => giveUp
  | bound + 1, how, untilTrue, condition, body, status => do
    let result ← caught (run launch bound .condition condition)
    match result with
    | .error _ =>
      if ← goesOn result then rounds launch bound how untilTrue condition body status
    | .ok () =>
      if ((← get).status = 0) = untilTrue then setStatus status
      else
        let result ← caught (run launch bound how body)
        if ← goesOn result then
          let status := (← get).status
          rounds launch bound how untilTrue condition body status

/-- Runs a body for each item. -/
def forItems (launch : Launcher) : (bound : Nat) → Manner → String → Command →
    List String → Exec Unit
  | 0, _, _, _, _ => giveUp
  | _ + 1, _, _, _, [] => return ()
  | bound + 1, how, name, body, item :: rest => do
    assign name item
    let result ← caught (run launch bound how body)
    if ← goesOn result then forItems launch bound how name body rest

/-- Runs the first branch that a text matches. -/
def choose (launch : Launcher) : (bound : Nat) → Manner → String →
    List (List Word × Option Command) → Exec Unit
  | 0, _, _, _ => giveUp
  | _ + 1, _, _, [] => setStatus 0
  | bound + 1, how, s, (patterns, body) :: rest => do
    let found ← patterns.anyM fun w => do
      return (← pattern (capture launch bound) bound w).matchesText s
    if found then
      match body with
      | some c => run launch bound how c
      | none => setStatus 0
    else choose launch bound how s rest

end

end Exec

/-! ## Scripts -/

/-- The bound on what a shell does. -/
def maxSteps : Nat := 1000000000

/-- The shell of a process at its beginning. -/
def ofProcess (p : Process) (name : String) (arguments : List String) (options : List Char) : Shell :=
  let inherited := (p.environment.filter fun e => isName e.1).map fun (name, value) =>
    (name, ({ value := some value, exported := true } : Variable))
  -- the path that is handed down holds if it leads to where the process is
  let here :=
    match p.environment.lookup "PWD" with
    | some path =>
      if Path.isAbsolute path && (p.locate path).toOption = some p.directory then path else p.workingPath
    | none => p.workingPath
  let sh : Shell :=
    { process := p, here, name, arguments, options, bindings := inherited, number := p.number
      ignoredBefore := p.ignored }
  let sh := sh.putVariable "PWD" { value := some here, exported := true }
  let sh := sh.putVariable "IFS" { value := some " \t\n" }
  let sh := sh.putVariable "OPTIND" { value := some "1" }
  let sh := sh.putVariable "PPID" { value := some (toString (p.number - 1)) }
  if (sh.valueOf? "PATH").isSome then sh
  else sh.putVariable "PATH" { value := some Process.standardPath }

/-- Runs a text as the script of a shell, to its end. `last` says that the shell does nothing
    after the last command of it. -/
def runScript (launch : Launcher) (last : Bool) (script : String) : Exec Ending :=
  Exec.isolated launch maxSteps
    (Exec.runText launch maxSteps { last } false (Reader.ofText script))

end ParseBench.Shell
