/-
  ParseBench.Data.Dataset

  Datasets and predictions as files. A dataset has one example on a line: its
  id, its sentence and the program that the sentence means, between tabs; further
  columns mean nothing and blank lines are passed over. Predictions have one
  program on a line, so an empty line is an empty program.
-/

import ParseBench.Program.Token
import ParseBench.Session
import ParseBench.Text.Lines

namespace ParseBench

/-! ## Examples -/

/-- A sentence and its gold program. -/
structure Example where
  id : String
  sentence : List String
  program : Program
  deriving DecidableEq, Repr, Inhabited

/-- The example with the words of two texts. -/
def Example.ofText (id sentence program : String) : Example :=
  ⟨id, Text.words sentence, Program.ofText program⟩

/-! ## Datasets -/

namespace Dataset

/-- The example on a line. -/
def example? (line : String) : Option Example :=
  match Text.splitOn '\t' line with
  | id :: sentence :: program :: _ => some (Example.ofText id sentence program)
  | _ => none

/-- The examples on lines, the first of which has the given number in the file `path`. -/
def ofLines (path : String) : Nat → List String → Except Error (List Example)
  | _, [] => .ok []
  | number, line :: rest =>
    if (Text.trim line).isEmpty then ofLines path (number + 1) rest
    else
      match example? line with
      | none => .error ⟨[.datasetLine path number], .tooFewColumns⟩
      | some e => (ofLines path (number + 1) rest).map (e :: ·)

/-- The examples in the text of the file `path`. -/
def ofText (path text : String) : Except Error (List Example) :=
  ofLines path 1 (Text.lines text)

/-- Loads a dataset. -/
def load {σ : Type} (path : String) : Run σ (List Example) := do
  let text ← Run.within (.readingDataset path) (Run.readText path)
  let examples ← Run.ofExcept (ofText path text)
  Run.report .info ("Loaded " ++ toString examples.length ++ " examples from '" ++ path ++ "'")
  return examples

end Dataset

/-! ## Predictions -/

namespace Predictions

/-- The programs in a text. -/
def ofText (text : String) : List Program :=
  (Text.lines text).map Program.ofText

/-- Loads predictions. -/
def load {σ : Type} (path : String) : Run σ (List Program) := do
  let text ← Run.within (.readingPredictions path) (Run.readText path)
  let programs := ofText text
  Run.report .info ("Loaded " ++ toString programs.length ++ " predictions from '" ++ path ++ "'")
  return programs

end Predictions

end ParseBench
