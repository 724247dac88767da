/-
  ParseBench.Host.Utility.Surroundings

  Utilities that tell what a process runs in: its environment, its directory, its
  user and its machine.
-/

import ParseBench.Host.Utility.Basic

namespace ParseBench.Utility

/-- Does nothing, and well. -/
def succeed : Utility := fun _ => return 0

/-- Does nothing, and fails. -/
def failed : Utility := fun _ => return 1

/-- The environment, an entry a line. -/
def environmentText (p : Process) : String :=
  String.join (p.environment.map fun (name, value) => name ++ "=" ++ value ++ "\n")

/-- Prints the values of some names of the environment, or all of it. -/
def printenv : Utility := fun args => do
  let p ← get
  if args.isEmpty then
    Act.print (environmentText p)
    return 0
  else
    forEach args fun name => do
      match p.environment.lookup name with
      | some value =>
        Act.print (value ++ "\n")
        return 0
      | none => return 1

/-- Prints the working directory: the place itself, or the path that is handed down if it leads
    there. -/
def workingDirectory : Utility :=
  withOptions "pwd" { plain := "LP", long := [("logical", 'L'), ("physical", 'P')] } 1 fun o => do
    let p ← get
    if !o.operands.isEmpty then Act.complain "pwd: ignoring non-option arguments"
    let logical := (o.flags.getLast?.map Prod.fst) = some 'L'
    let handed := (p.environment.lookup "PWD").filter fun path =>
      logical && Path.isAbsolute path && (p.locate path).toOption = some p.directory &&
        (Path.names path).all fun name => name ≠ "." && name ≠ ".."
    Act.print (handed.getD p.workingPath ++ "\n")
    return 0

/-- Prints the name of the user. -/
def whoami : Utility := fun _ => do
  Act.print "root\n"
  return 0

/-- Prints who the user is. -/
def identity : Utility :=
  withOptions "id" { plain := "ugnr" } 1 fun o => do
    let names := o.has 'n'
    let shown :=
      if o.has 'u' || o.has 'g' then if names then "root" else "0"
      else "uid=0(root) gid=0(root) groups=0(root)"
    Act.print (shown ++ "\n")
    return 0

/-- Prints the groups of the user. -/
def groups : Utility := fun args => do
  match args.find? (· ≠ "root") with
  | none =>
    Act.print (String.join ((if args.isEmpty then [""] else args).map fun user =>
      (if user.isEmpty then "" else user ++ " : ") ++ "root\n"))
    return 0
  | some user =>
    Act.complain ("groups: '" ++ user ++ "': no such user")
    return 1

/-- Prints the name that somebody has logged in with. Nobody has. -/
def logname : Utility := fun _ => do
  Act.complain "logname: no login name"
  return 1

/-- Prints the terminal of the input. There is none. -/
def tty : Utility :=
  withOptions "tty" { plain := "s", long := [("silent", 's'), ("quiet", 's')] } 2 fun o => do
    if !o.has 's' then Act.print "not a tty\n"
    return 1

/-- Prints the number of processors. -/
def nproc : Utility := fun _ => do
  Act.print "1\n"
  return 0

/-- Prints the name of the system, or other parts of what it is. -/
def uname : Utility :=
  withOptions "uname" { plain := "asnrvmpio", long := [("all", 'a'), ("kernel-name", 's'), ("nodename", 'n'),
    ("kernel-release", 'r'), ("kernel-version", 'v'), ("machine", 'm'), ("operating-system", 'o')] } 1 fun o => do
    if let extra :: _ := o.operands then
      misuse "uname" ("extra operand '" ++ extra ++ "'")
      return 1
    let parts : List (Char × String) :=
      [('s', "Linux"), ('n', "localhost"), ('r', "6.1.0"), ('v', "#1 SMP"), ('m', "x86_64"), ('o', "GNU/Linux")]
    let shown := parts.filter fun e =>
      o.has 'a' || o.has e.1 || (e.1 = 's' && o.flags.isEmpty)
    let more := ['p', 'i'].filter fun c => o.has c && !o.has 'a'
    Act.print (Text.join " " (shown.map (·.2) ++ more.map fun _ => "unknown") ++ "\n")
    return 0

/-- Prints the kind of machine. -/
def arch : Utility := fun _ => do
  Act.print "x86_64\n"
  return 0

/-- Prints the name of the machine. -/
def hostname : Utility := fun _ => do
  Act.print "localhost\n"
  return 0

/-- Prints where programs are. -/
def which : Utility := fun args => do
  let p ← get
  let searched := (p.environment.lookup "PATH").getD Process.standardPath
  forEach args fun name => do
    match p.programPath? searched name with
    | some path =>
      Act.print (path ++ "\n")
      return 0
    | none => return 1

end ParseBench.Utility
