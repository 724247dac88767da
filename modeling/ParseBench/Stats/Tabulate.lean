/-
  ParseBench.Stats.Tabulate

  Turns result lines into the table of statistics, line by line. The header is
  written first; the first line that cannot be read ends the table.
-/

import ParseBench.Program.Grammar
import ParseBench.Score.ResultLine
import ParseBench.Stats.ParameterCount
import ParseBench.Stats.Row
import ParseBench.Text.Lines

namespace ParseBench.Stats

/-- The productions that are counted of a gold program at most. -/
def maxProductions : Nat := 60

/-- What a table is made with: a grammar and the selected device. -/
structure Setting where
  grammar : ProgramGrammar
  device : Option String
  deriving Inhabited

/-- How the functions of the selected device begin. -/
def Setting.lead (s : Setting) : Option String :=
  s.device.map ("@" ++ ·)

/-- The row of a result line. -/
def Setting.row (s : Setting) (line : String) : Except Error StatsRow := do
  let result ← ResultLine.read line
  let gold := Text.splitOn ' ' result.gold
  let count := ParameterCount.ofProgram gold s.lead
  match s.grammar.vectorize gold maxProductions with
  | .error e => .error e
  | .ok productions =>
    return { sentenceLength := (Text.splitOn ' ' result.sentence).length
             goldLength := gold.length
             goldProductions := productions.length
             totalParams := count.totalParams
             totalFilters := count.totalFilters
             params := count.params
             filters := count.filters
             combination := Text.join " " count.combination
             ok := result.outcome.full
             okGrammar := result.outcome.grammar
             okFunction := result.outcome.function
             okFunctionCount := result.outcome.functionCount
             okSignature := result.outcome.signature }

/-- Is the line blank? -/
def isBlankLine (line : String) : Bool :=
  (Text.trim line).isEmpty

/-- Reads lines, the first of which has the given number, and writes the row of each behind what
    is written already. Yields the number of all rows, or the error that ended them, and
    everything that is written. A line that is not UTF-8 cannot be read; blank lines are passed
    over. -/
def Setting.tabulateFrom (s : Setting) : (number rows : Nat) → (written : String) →
    List (Option String) → Except Error Nat × String
  | _, rows, written, [] => (.ok rows, written)
  | _, _, written, none :: _ => (.error Cause.system, written)
  | number, rows, written, some line :: rest =>
    if isBlankLine line then s.tabulateFrom (number + 1) rows written rest
    else
      match inContext (.resultLine number) (s.row line) with
      | .error e => (.error e, written)
      | .ok row => s.tabulateFrom (number + 1) (rows + 1) (written ++ row.write) rest

/-- The number of rows, or the error that ended them, and everything that is written. The header
    is written before anything is read. -/
def Setting.tabulate (s : Setting) (lines : List (Option String)) : Except Error Nat × String :=
  s.tabulateFrom 1 0 StatsRow.header lines

/-- What is reported about a finished table. -/
def events : Except Error Nat → List Event
  | .ok rows => [⟨.info, "Wrote " ++ toString rows ++ " stats rows"⟩]
  | .error _ => []

end ParseBench.Stats
