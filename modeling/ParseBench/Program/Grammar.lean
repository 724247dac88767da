/-
  ParseBench.Program.Grammar

  A compiled grammar file: the terminals that program tokens stand for, and the
  encoding of a program as the rules that derive it.
-/

import ParseBench.Grammar.Compile
import ParseBench.Program.GrammarFile
import ParseBench.Program.Kind
import ParseBench.Program.Token
import ParseBench.Session

namespace ParseBench

open Grammar

/-- A grammar of programs. -/
structure ProgramGrammar where
  parser : Parser
  kind : Kind
  tokenClasses : List (Symbol × List String)
  leadClasses : List (Symbol × String)
  deriving Inhabited

namespace ProgramGrammar

/-- Compiles a grammar file, and reports on the way. -/
def ofFile (f : GrammarFile) (kind : Kind) : Except Error ProgramGrammar × List Notice :=
  match f.ruleSet with
  | .error e => (.error e, [])
  | .ok rules =>
    match compile rules f.start with
    | (.error e, notices) => (.error e, notices)
    | (.ok c, notices) =>
      (.ok { parser := c.parser, kind, tokenClasses := f.tokenClasses, leadClasses := f.leadClasses },
        notices)

/-- The number of rules. -/
def ruleCount (g : ProgramGrammar) : Nat :=
  g.parser.rules.size

/-- The number of states of the parser. -/
def stateCount (g : ProgramGrammar) : Nat :=
  g.parser.actions.size

/-- The text of a rule, for reports. -/
def ruleText (g : ProgramGrammar) (rule : Nat) : String :=
  match g.parser.rules[rule]? with
  | some r => r.text
  | none => "<invalid rule " ++ toString rule ++ ">"

/-! ## Tokens -/

/-- The program as the grammar reads it: with devices split off if its kind asks for
    that. -/
def prepare (g : ProgramGrammar) (p : Program) : Program :=
  if g.kind.splitDevice then p.splitDevices else p

/-- The terminal that a token stands for: the first class that lists it, else the first
    class whose tokens begin like it, else the token itself. -/
def classify (g : ProgramGrammar) (token : String) : Symbol :=
  match g.tokenClasses.find? fun c => token ∈ c.2 with
  | some c => c.1
  | none =>
    match g.leadClasses.find? fun c => Text.startsWith token c.2 with
    | some c => c.1
    | none => token

/-- A program token as an input token of the parser. -/
def inputToken (g : ProgramGrammar) (token : String) : Except GrammarError Token :=
  match g.parser.terminalId? (g.classify token) with
  | some id => .ok ⟨id, token⟩
  | none => .error (.unknownToken token)

/-- The input of the parser for a program. -/
def tokenize (g : ProgramGrammar) (p : Program) : Except GrammarError (List Token) :=
  (g.prepare p).mapM g.inputToken

/-! ## Encoding -/

/-- All rules that derive a program, in the direction of the grammar's kind. -/
def encode (g : ProgramGrammar) (p : Program) : Except GrammarError (List Nat) := do
  let tokens ← g.tokenize p
  match g.kind.direction with
  | .bottomUp => (g.parser.parse tokens).map reductions
  | .topDown => g.parser.parseDown tokens

/-- The first `maxLength` rules that derive a program. -/
def vectorize (g : ProgramGrammar) (p : Program) (maxLength : Nat) : Except GrammarError (List Nat) :=
  (g.encode p).map (List.take maxLength)

/-- Programs are equivalent when their tokens are equal. -/
def compare (_ : ProgramGrammar) (gold decoded : Program) : Bool :=
  gold == decoded

/-! ## Loading -/

/-- Loads and compiles a grammar file. -/
def load {σ : Type} (json : Json.Reader) (path : String) (kind : Kind) : Run σ ProgramGrammar := do
  let text ← Run.within (.readingGrammar path) (Run.readText path)
  match GrammarFile.ofText? json text with
  | none => Run.within (.decodingGrammar path) (Run.fail .json)
  | some file =>
    let (result, notices) := ofFile file kind
    Run.tellAll (notices.map Notice.event)
    let g ← Run.within (.compilingGrammar path) (Run.ofExcept result)
    Run.report .info ("Loaded grammar '" ++ path ++ "': " ++ toString g.ruleCount ++ " rules, " ++
      toString g.stateCount ++ " states")
    return g

end ProgramGrammar

end ParseBench
