/-
  ParseBench.CommandLine.Help

  What the program says about itself when it is asked for help or its version.
-/

import ParseBench.CommandLine.Command

namespace ParseBench.CommandLine

/-- The name under which the program is called. -/
def programName : String := "luinet"

/-- The version. -/
def versionText : String :=
  programName ++ " 0.1.0\n"

/-- An option as it is written. -/
def Argument.optionText (a : Argument) : String :=
  let value :=
    match a.arity with
    | .switch => ""
    | .one => " VALUE"
    | .many => " VALUE..."
  if a.required then "--" ++ a.name ++ value else "[--" ++ a.name ++ value ++ "]"

/-- The arguments of a command on one line. -/
def Signature.helpLine (name : String) (s : Signature) : String :=
  Text.join " "
    ([programName, name] ++ s.options.map Argument.optionText ++ s.positionals.map Argument.name ++
      (if s.handsOn then ["[-- ARGUMENT...]"] else []))

/-- The help: a line for each command. -/
def helpText : String :=
  String.join (commands.map fun c => c.2.1.helpLine c.1 ++ "\n")

/-- What is printed for a command line that stands for no command. Faults are not printed
    but reported. -/
def Usage.output : Usage → String
  | help => helpText
  | version => versionText
  | _ => ""

end ParseBench.CommandLine
