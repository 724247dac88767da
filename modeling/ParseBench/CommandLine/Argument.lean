/-
  ParseBench.CommandLine.Argument

  The arguments that a command takes: options with a long name, and positional
  arguments. Each says which values it accepts.
-/

import ParseBench.CommandLine.Usage

namespace ParseBench

/-- The variables of the environment with their values. -/
abbrev Environment := List (String × String)

namespace CommandLine

/-! ## Values -/

/-- The number that digits give, if there are any. -/
def digits? (s : List Char) : Option Nat :=
  if !s.isEmpty && s.all Char.isDigit then
    some (s.foldl (fun n c => n * 10 + (c.toNat - '0'.toNat)) 0)
  else none

/-- A whole number of 64 bits that is not negative. A plus sign may stand before it. -/
def natural? (s : String) : Option Nat :=
  let n? :=
    match s.toList with
    | '+' :: rest => digits? rest
    | rest => digits? rest
  n?.filter (· < 0x10000000000000000)

/-- A whole number of 64 bits with or without a sign. -/
def integer? (s : String) : Option Int :=
  let n? : Option Int :=
    match s.toList with
    | '+' :: rest => (digits? rest).map fun n => (n : Int)
    | '-' :: rest => (digits? rest).map fun n => -(n : Int)
    | rest => (digits? rest).map fun n => (n : Int)
  n?.filter fun n => -0x8000000000000000 ≤ n ∧ n < 0x8000000000000000

/-- What the values of an argument mean. -/
inductive ValueType where
  | text
  /-- A path, which is not empty. -/
  | path
  | natural
  | integer
  deriving DecidableEq, Repr, Inhabited

/-- What is wrong with a value of the argument `name`. -/
def ValueType.fault? (name : String) : ValueType → String → Option Usage
  | text, _ => none
  | path, value => if value.isEmpty then some (.valueMissing name) else none
  | natural, value => if (natural? value).isSome then none else some (.badValue name value)
  | integer, value => if (integer? value).isSome then none else some (.badValue name value)

/-! ## Arguments -/

/-- How many values an argument has. -/
inductive Arity where
  /-- None: the option is on if it is given. -/
  | switch
  | one
  /-- One or more, and again more each time it is given. -/
  | many
  deriving DecidableEq, Repr, Inhabited

/-- An argument of a command. -/
structure Argument where
  name : String
  arity : Arity := .one
  type : ValueType := .text
  required : Bool := false
  /-- A negative number may follow the option as its value. -/
  signed : Bool := false
  /-- The variable of the environment that stands in for the option. -/
  envName : Option String := none
  /-- The value if it is not given. -/
  byDefault : Option String := none
  deriving DecidableEq, Repr, Inhabited

/-- The value of an argument that is not given: that of its variable, or else its default. -/
def Argument.standIn? (a : Argument) (environment : Environment) : Option String :=
  (a.envName.bind fun v => environment.lookup v).or a.byDefault

/-- The arguments of a command. -/
structure Signature where
  options : List Argument
  positionals : List Argument := []
  /-- Does the command hand on what follows `--`? -/
  handsOn : Bool := false
  deriving Repr, Inhabited

namespace Signature

/-- The option with a name. -/
def option? (s : Signature) (name : String) : Option Argument :=
  s.options.find? fun a => a.name == name

/-- The names of the arguments that have to be given. -/
def required (s : Signature) : List String :=
  ((s.options ++ s.positionals).filter Argument.required).map Argument.name

end Signature

/-! ## Readers -/

/-- What was read of a command line: the arguments that have values or are on, and what follows
    `--`, where it is handed on. -/
structure Arguments where
  found : List (String × List String)
  trailing : List String
  deriving DecidableEq, Repr, Inhabited

/-- A reader of command lines: the command that is meant, of those with these names and
    signatures, and its arguments. Arguments that are not given have their values out of the
    environment, else their defaults. -/
abbrev Reader :=
  List (String × Signature) → Environment → List String → Except Usage (String × Arguments)

end CommandLine

end ParseBench
