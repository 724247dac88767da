/-
  ParseBench.CommandLine.Usage

  Why a command line stands for no command.
-/

import ParseBench.Text.Split

namespace ParseBench.CommandLine

/-- Why a command line stands for no command. -/
inductive Usage where
  | unknownArgument (argument : String)
  | unknownCommand (name : String)
  | commandMissing
  | argumentsMissing (names : List String)
  /-- An option that takes a value has none, or an empty one where it may not be empty. -/
  | valueMissing (name : String)
  | badValue (name value : String)
  /-- A value for an option that takes none. -/
  | unexpectedValue (name value : String)
  /-- An option that may be given once is given twice. -/
  | repeated (name : String)
  /-- Not a fault: help is asked for. -/
  | help
  /-- Not a fault: the version is asked for. -/
  | version
  deriving DecidableEq, Repr

namespace Usage

/-- The exit code: 2 for a fault. -/
def exitCode : Usage → Nat
  | help => 0
  | version => 0
  | _ => 2

/-- The fault in words. -/
def message : Usage → String
  | unknownArgument argument => "unexpected argument '" ++ argument ++ "'"
  | unknownCommand name => "unrecognized subcommand '" ++ name ++ "'"
  | commandMissing => "a subcommand is required"
  | argumentsMissing names => "required arguments are missing: " ++ Text.join ", " names
  | valueMissing name => "a value is required for '" ++ name ++ "'"
  | badValue name value => "invalid value '" ++ value ++ "' for '" ++ name ++ "'"
  | unexpectedValue name value => "unexpected value '" ++ value ++ "' for '" ++ name ++ "'"
  | repeated name => "the argument '" ++ name ++ "' cannot be used multiple times"
  | help => "help"
  | version => "version"

end Usage

end ParseBench.CommandLine
