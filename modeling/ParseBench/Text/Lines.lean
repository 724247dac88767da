/-
  ParseBench.Text.Lines

  The lines of a text. A line ends at a line feed, a carriage return directly
  before the line feed belongs to the line end, and what follows the last line
  feed is a line only if it is not empty. The cut is the same for characters
  and for bytes.
-/

import ParseBench.Text.Split

namespace ParseBench.Text

variable {α : Type} [DecidableEq α]

/-- A line without the carriage return at its end. -/
def dropReturn (ret : α) (line : List α) : List α :=
  if line.getLast? = some ret then line.dropLast else line

/-- The lines among the pieces between line feeds: all but the last are complete. -/
def linesOfPieces (ret : α) : List (List α) → List (List α)
  | [] => []
  | [last] => if last.isEmpty then [] else [last]
  | piece :: rest => dropReturn ret piece :: linesOfPieces ret rest

/-- The lines of `s`, with `feed` and `ret` as the two line end elements. -/
def linesBy (feed ret : α) (s : List α) : List (List α) :=
  linesOfPieces ret (splitWhere (· == feed) s)

/-- The lines of a text. -/
def lines (s : String) : List String :=
  (linesBy '\n' '\r' s.toList).map String.ofList

/-- The lines of a file, each `none` where its bytes are not UTF-8. -/
def byteLines (bytes : ByteArray) : List (Option String) :=
  (linesBy (10 : UInt8) 13 bytes.toList).map fun line => String.fromUTF8? ⟨line.toArray⟩

end ParseBench.Text
