/-
  ParseBench.Host.Shell.Program

  The shell as a program: its arguments say what it runs.
-/

import ParseBench.Host.Shell.Exec

namespace ParseBench.Shell

/-- What a shell is asked for. -/
structure Request where
  options : List Char := []
  /-- Is the script an argument? -/
  inArgument : Bool := false
  /-- Is the script read from the input though there are arguments? -/
  fromInput : Bool := false
  operands : List String := []
  deriving Repr, Inhabited

namespace Request

/-- The request with an option set or reset, if there is such an option. -/
def option? (r : Request) (on : Bool) (c : Char) : Option Request :=
  if c = 'c' then some { r with inArgument := true }
  else if c = 's' then some { r with fromInput := true }
  else if c = 'l' then some r
  else if Builtin.optionNames.any (·.1 == c) then
    let isSet (d : Char) : Bool := if d == c then on else r.options.contains d
    some { r with options := (Builtin.optionNames.map (·.1)).filter isSet }
  else none

/-- Reads arguments. -/
def read? (r : Request) : List String → Option Request
  | [] => some r
  | "--" :: rest => some { r with operands := rest }
  | "-" :: rest => some { r with operands := rest }
  | arg :: rest =>
    let (on, letters) : Bool × List Char :=
      match arg.toList with
      | '-' :: letters => (true, letters)
      | '+' :: letters => (false, letters)
      | _ => (true, [])
    if letters.isEmpty then some { r with operands := arg :: rest }
    else if letters.getLast? = some 'o' then
      match rest with
      | name :: rest => do
        let r ← letters.dropLast.foldlM (fun r c => option? r on c) r
        let (c, _) ← Builtin.optionNames.find? (·.2 == name)
        let r ← r.option? on c
        read? r rest
      | [] => none
    else do
      let r ← letters.foldlM (fun r c => option? r on c) r
      read? r rest

end Request

/-- The name of a shell that runs no file. -/
def defaultName : String := "sh"

/-- The status of a shell that has nothing to run. -/
def unreadableStatus : Nat := 2

/-- The shell refuses to run. -/
def refuse (message : String) : Act Ending := do
  Act.complain (defaultName ++ ": 0: " ++ message)
  return .exit unreadableStatus

/-- Runs a text as the script of a process. -/
def runIn (launch : Launcher) (r : Request) (name : String) (args : List String) (script : String) :
    Act Ending := fun p =>
  (ExceptT.run (runScript launch r.inArgument script) (ofProcess p name args r.options)).bind
    fun result sh =>
      match result with
      | .ok ending => .done ending sh.process
      | .error _ => .done (.exit (sh.status % 256)) sh.process

/-- The shell as a program. A directory is a script without commands. -/
def program (launch : Launcher) (args : List String) : Act Ending := do
  match Request.read? {} args with
  | none => refuse "Illegal option"
  | some r =>
    if r.inArgument then
      match r.operands with
      | [] => refuse "-c requires an argument"
      | [script] => runIn launch r defaultName [] script
      | script :: name :: args => runIn launch r name args script
    else if r.fromInput then runIn launch r defaultName r.operands (← Act.readInput)
    else
      match r.operands with
      | [] => runIn launch r defaultName [] (← Act.readInput)
      | path :: args =>
        match ← Act.readFile path with
        | .ok script => runIn launch r path args script
        | .error .directory => return .exit 0
        | .error r => refuse (Exec.openFault path .read r)

end ParseBench.Shell
