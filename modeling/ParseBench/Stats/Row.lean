/-
  ParseBench.Stats.Row

  The table of statistics: a row for each scored example, written with commas
  between the fields.
-/

import ParseBench.Text.Split

namespace ParseBench

/-- A row of the table. -/
structure StatsRow where
  sentenceLength : Nat := 0
  goldLength : Nat := 0
  goldProductions : Nat := 0
  totalParams : Nat := 0
  totalFilters : Nat := 0
  params : Nat := 0
  filters : Nat := 0
  /-- The parameters of the selected device. -/
  combination : String := ""
  ok : Bool := false
  okGrammar : Bool := false
  okFunction : Bool := false
  okFunctionCount : Bool := false
  okSignature : Bool := false
  deriving DecidableEq, Repr, Inhabited

namespace StatsRow

/-- The names of the columns. -/
def columns : List String :=
  ["sentence_length", "gold_length", "gold_num_prod", "num_total_params", "num_total_filters",
    "num_params", "num_filters", "param_comb", "ok", "ok_grammar", "ok_function", "ok_fn_count",
    "ok_signature"]

/-! ## Fields -/

/-- Does the field have to stand between quotes? -/
def needsQuotes (field : List Char) : Bool :=
  field.any fun c => c == ',' || c == '"' || c == '\n' || c == '\r'

/-- The field with every quote written twice. -/
def doubleQuotes (field : List Char) : List Char :=
  field.flatMap fun c => if c = '"' then ['"', '"'] else [c]

/-- The written form of a field. -/
def writeField (field : String) : String :=
  if needsQuotes field.toList then
    String.ofList ('"' :: doubleQuotes field.toList ++ ['"'])
  else field

/-- The written form of a truth value. -/
def flag (b : Bool) : String :=
  if b then "1" else "0"

/-! ## Lines -/

/-- The fields of a row in the order of the columns. -/
def fields (r : StatsRow) : List String :=
  [toString r.sentenceLength, toString r.goldLength, toString r.goldProductions,
    toString r.totalParams, toString r.totalFilters, toString r.params, toString r.filters,
    r.combination, flag r.ok, flag r.okGrammar, flag r.okFunction, flag r.okFunctionCount,
    flag r.okSignature]

/-- Fields as a line of the table. -/
def writeLine (fields : List String) : String :=
  Text.join "," (fields.map writeField) ++ "\n"

/-- The first line of the table. -/
def header : String :=
  writeLine columns

/-- The line of a row. -/
def write (r : StatsRow) : String :=
  writeLine r.fields

/-- The table with the given rows. -/
def table (rows : List StatsRow) : String :=
  header ++ String.join (rows.map write)

end StatsRow

end ParseBench
