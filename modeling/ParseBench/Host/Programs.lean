/-
  ParseBench.Host.Programs

  The programs that a machine has, and how a program is started from its path: a
  program of the machine runs at once, a file is run by the interpreter that its
  first line says.
-/

import ParseBench.Host.Records.Exec
import ParseBench.Host.Shell.Program
import ParseBench.Host.Utility.Blocks
import ParseBench.Host.Utility.Calendar
import ParseBench.Host.Utility.Condition
import ParseBench.Host.Utility.Copying
import ParseBench.Host.Utility.Delay
import ParseBench.Host.Utility.Details
import ParseBench.Host.Utility.Difference
import ParseBench.Host.Utility.Digest
import ParseBench.Host.Utility.Dump
import ParseBench.Host.Utility.Editor
import ParseBench.Host.Utility.Expression
import ParseBench.Host.Utility.Files
import ParseBench.Host.Utility.Finding
import ParseBench.Host.Utility.Folding
import ParseBench.Host.Utility.Making
import ParseBench.Host.Utility.Merging
import ParseBench.Host.Utility.Numbers
import ParseBench.Host.Utility.Printing
import ParseBench.Host.Utility.Search
import ParseBench.Host.Utility.Sequence
import ParseBench.Host.Utility.Starter
import ParseBench.Host.Utility.Text

namespace ParseBench.Programs

/-! ## Names -/

/-- The utilities by their names. -/
def utilities : List (String × Utility) := [
  ("true", Utility.succeed), ("false", Utility.failed), ("sleep", Utility.sleep),
  ("sync", Utility.succeed), ("echo", Utility.plainEcho), ("printf", Utility.printf),
  ("test", Utility.test), ("[", Utility.bracket), ("cat", Utility.cat), ("tee", Utility.tee), ("yes", Utility.yes),
  ("tac", Utility.tac), ("rev", Utility.rev), ("nl", Utility.nl), ("head", Utility.head),
  ("tail", Utility.tail), ("wc", Utility.wc), ("sort", Utility.sort), ("uniq", Utility.uniq),
  ("cut", Utility.cut), ("paste", Utility.paste), ("tr", Utility.tr),
  ("grep", Utility.search false false), ("egrep", Utility.search true false),
  ("fgrep", Utility.search false true), ("sed", Utility.edit), ("expr", Utility.expr),
  ("seq", Utility.seq), ("basename", Utility.basename), ("dirname", Utility.dirname),
  ("realpath", Utility.realpath), ("readlink", Utility.readlink), ("mkdir", Utility.mkdir),
  ("mkfifo", Utility.mkfifo), ("touch", Utility.touch), ("truncate", Utility.truncate),
  ("chmod", Utility.chmod), ("rm", Utility.rm), ("rmdir", Utility.rmdir), ("unlink", Utility.unlink),
  ("cp", Utility.cp), ("mv", Utility.mv), ("ln", Utility.ln), ("link", Utility.link),
  ("ls", Utility.ls), ("cmp", Utility.cmp), ("diff", Utility.diff), ("comm", Utility.comm),
  ("join", Utility.join), ("tsort", Utility.tsort), ("fold", Utility.fold),
  ("expand", Utility.expand), ("unexpand", Utility.unexpand), ("split", Utility.split),
  ("dd", Utility.dd), ("od", Utility.od), ("cksum", Utility.cksum), ("sum", Utility.sum),
  ("base64", Utility.base64), ("printenv", Utility.printenv),
  ("pwd", Utility.workingDirectory), ("whoami", Utility.whoami), ("id", Utility.identity),
  ("uname", Utility.uname), ("which", Utility.which),
  ("stat", Utility.stat), ("mktemp", Utility.mktemp), ("mknod", Utility.mknod),
  ("install", Utility.install), ("chown", Utility.changeOwner "chown" false),
  ("chgrp", Utility.changeOwner "chgrp" true), ("date", Utility.date), ("factor", Utility.factor),
  ("shuf", Utility.shuf), ("groups", Utility.groups), ("logname", Utility.logname),
  ("tty", Utility.tty), ("nproc", Utility.nproc), ("arch", Utility.arch),
  ("hostname", Utility.hostname)] ++
  Utility.Digest.kinds.map fun k => (k.name, Utility.Digest.utility k)

/-- The programs that start others, by their names. -/
def starters : List (String × Utility.Starter) := [
  ("sh", Shell.program), ("dash", Shell.program), ("bash", Shell.program), ("awk", Records.program),
  ("mawk", Records.program), ("nawk", Records.program),
  ("env", Utility.env), ("xargs", Utility.xargs), ("find", Utility.find),
  ("nohup", Utility.nohup), ("setsid", Utility.setsid), ("flock", Utility.flock),
  ("nice", Utility.startAs "nice" "n" id),
  ("stdbuf", Utility.startAs "stdbuf" "ioe" id), ("timeout", Utility.timeout)]

/-- The names of all programs. -/
def names : List String :=
  utilities.map (·.1) ++ starters.map (·.1)

/-- The status of a utility whose output cannot be written. -/
def writeFaultStatus (name : String) : Nat :=
  match name with
  | "ls" | "sort" | "grep" | "egrep" | "fgrep" | "printenv" => 2
  | "expr" => 3
  | "sed" => 4
  | _ => 1

/-- Runs a utility. If some of its output cannot be written it complains at its end. -/
def runUtility (name : String) (utility : Utility) (args : List String) : Act Ending := do
  let status ← utility args
  match ← Act.takeOutputFault with
  | none => return .exit status
  | some fault =>
    let reason := fault.reason
    match name with
    | "rev" => if fault = .closed then return .exit status
    | "sort" =>
      Act.complain ("sort: fflush failed: 'standard output': " ++ reason)
      Act.complain "sort: write error"
    | "tee" => Act.complain ("tee: 'standard output': " ++ reason)
    | "yes" => Act.complain ("yes: standard output: " ++ reason)
    | "sed" =>
      Act.complain ("sed: couldn't " ++ (if fault = .full then "flush" else "close") ++ " stdout: " ++ reason)
    | _ => Act.complain (name ++ ": write error: " ++ reason)
    return .exit (writeFaultStatus name)

/-- Runs the program of a name. -/
def run? (launch : Launcher) (name : String) (args : List String) : Option (Act Ending) :=
  match starters.lookup name with
  | some starter => some (starter launch args)
  | none =>
    (utilities.lookup name).map fun utility => runUtility name utility args

/-! ## Interpreters -/

/-- The number of bytes of a file in which its interpreter has to be said. -/
def firstLineBound : Nat := 255

/-- What the first line of a file says: the path of an interpreter and perhaps one argument
    for it. -/
structure Interpreter where
  path : String
  argument : Option String
  deriving DecidableEq, Repr, Inhabited

namespace Interpreter

/-- Does the character divide the words of a first line? -/
def isBlank (c : Char) : Bool :=
  c == ' ' || c == '\t'

/-- Reads the first line of a raw content. -/
def ofContent? (content : String) : Option Interpreter :=
  match content.toList.take firstLineBound with
  | '#' :: '!' :: rest =>
    let line := (rest.takeWhile (· ≠ '\n')).dropWhile isBlank
    let path := line.takeWhile fun c => !isBlank c && c ≠ '\x00'
    let argument := Text.trimRightWhere isBlank ((line.drop path.length).dropWhile isBlank)
    let argument := argument.takeWhile (· ≠ '\x00')
    if path.isEmpty then none
    else
      some ⟨String.ofList path, if argument.isEmpty then none else some (String.ofList argument)⟩
  | _ => none

end Interpreter

/-! ## Starting -/

/-- Starts the program at a path, with at most `depth` programs inside each other. -/
def launch : (depth : Nat) → Launcher
  | 0, _, _ => return .error .denied
  | depth + 1, path, args => do
    let p ← get
    match (p.programOfPath? path).bind fun name => run? (launch depth) name args with
    | some act => return .ok (← act)
    | none =>
      match p.node? path with
      | some (.file f) =>
        if !f.executable then return .error .denied
        match Interpreter.ofContent? (Raw.ofBytes f.content) with
        | some i => launch depth i.path (i.argument.toList ++ path :: args)
        | none => return .error .unknownFormat
      | some _ => return .error .denied
      | none => return .error .missing

end ParseBench.Programs
