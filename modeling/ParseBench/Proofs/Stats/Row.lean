/-
  ParseBench.Proofs.Stats.Row

  The table of statistics is a table in the format of `Csv`, whatever the texts in its rows are:
  a field with special characters stands between quotes (`field_writeField`), the fields of a
  line are a record (`record_join`), and the lines are records with a line feed after each
  (`lines_join`). So it is read as the names of the columns and one record for each row, and as
  nothing else, and the row comes back from its record (`table_read_back`).
-/

import Mathlib
import ParseBench.Proofs.Text.Csv
import ParseBench.Stats.Row

namespace ParseBench.StatsRow

/-! ## Fields -/

/-- Doubled quotes between quotes are the quotes of the field. -/
theorem inside_doubleQuotes (chars : List Char) : Csv.Inside (doubleQuotes chars) chars := by
  induction chars using List.reverseRecOn with
  | nil => exact .nil
  | append_singleton chars c ih =>
      have hsplit : doubleQuotes (chars ++ [c]) =
          doubleQuotes chars ++ (if c = '"' then ['"', '"'] else [c]) := by
        rw [doubleQuotes, List.flatMap_append, List.flatMap_singleton]
        rfl
      rw [hsplit]
      by_cases hquote : c = '"'
      · rw [if_pos hquote, hquote]
        exact .quote ih
      · rw [if_neg hquote]
        exact .char ih hquote

/-- A field is written in one of its two forms. -/
theorem field_writeField (field : String) : Csv.Field (writeField field).toList field := by
  unfold writeField
  by_cases hquotes : needsQuotes field.toList = true
  · have hquoted : Csv.Field ('"' :: (doubleQuotes field.toList ++ ['"']))
        (String.ofList field.toList) :=
      .quoted (inside_doubleQuotes field.toList)
    rw [if_pos hquotes, String.toList_ofList]
    rwa [String.ofList_toList] at hquoted
  · have hplain : ∀ c ∈ field.toList, Csv.isSpecial c = false := by
      intro c hc
      rw [needsQuotes, List.any_eq_true, not_exists] at hquotes
      have hnot : ¬ Csv.isSpecial c = true := fun hspecial => hquotes c ⟨hc, hspecial⟩
      exact Bool.eq_false_iff.2 hnot
    have hfield : Csv.Field field.toList (String.ofList field.toList) := .plain hplain
    rw [if_neg hquotes]
    rwa [String.ofList_toList] at hfield

/-! ## Lines -/

/-- The fields of a line, with commas between them, are a record. By induction from the last
    field backwards: the format puts a comma behind each field that is not the last. -/
theorem record_join {fields : List String} (hne : fields ≠ []) :
    Csv.Record (Text.join "," (fields.map writeField)).toList fields := by
  induction fields using List.reverseRecOn with
  | nil => exact absurd rfl hne
  | append_singleton front field ih =>
      have hfield := field_writeField field
      by_cases hfront : front = []
      · have hrecord : Csv.Record ([] ++ (writeField field).toList) ([] ++ [field]) :=
          .mk .nil hfield
        rw [hfront, List.nil_append, List.map_singleton, Text.join, String.intercalate_singleton]
        exact hrecord
      · have hjoin : Text.join "," ((front ++ [field]).map writeField) =
            Text.join "," (front.map writeField) ++ "," ++ writeField field := by
          rw [List.map_append, List.map_singleton, Text.join,
            String.intercalate_append_of_ne_nil (by simpa using hfront) (by simp),
            String.intercalate_singleton]
          rfl
        have hmore := (ih hfront).snoc hfield
        rw [hjoin, String.toList_append, String.toList_append, List.append_assoc]
        exact hmore

theorem lines_join {records : List (List String)} (hne : ∀ record ∈ records, record ≠ []) :
    Csv.Lines (String.join (records.map writeLine)).toList records := by
  rw [String.toList_join, List.flatMap_map]
  induction records using List.reverseRecOn with
  | nil => exact .nil
  | append_singleton front record ih =>
      have hrecord := record_join (hne record (by simp))
      have hfront := ih fun record' hmem => hne record' (List.mem_append_left _ hmem)
      rw [List.flatMap_append, List.flatMap_singleton, writeLine, String.toList_append]
      exact .feed hfront hrecord

theorem lines_table (rows : List StatsRow) :
    Csv.Lines (table rows).toList (columns :: rows.map fields) := by
  have htable : table rows = String.join ((columns :: rows.map fields).map writeLine) := by
    rw [List.map_cons, List.map_map, String.join_cons]
    rfl
  have hne : ∀ record ∈ columns :: rows.map fields, record ≠ [] := by
    intro record hrecord
    rcases List.mem_cons.1 hrecord with rfl | hrow
    · exact List.cons_ne_nil _ _
    · obtain ⟨row, -, rfl⟩ := List.mem_map.1 hrow
      exact List.cons_ne_nil _ _
  rw [htable]
  exact lines_join hne

/-! ## Records -/

/-- The truth value that a field stands for. -/
def flag? (field : String) : Option Bool :=
  if field = "1" then some true else if field = "0" then some false else none

/-- The row that a record stands for: its numbers are decimal and its truth values are digits. -/
def ofFields? : List String → Option StatsRow
  | [sentenceLength, goldLength, goldProductions, totalParams, totalFilters, params, filters,
      combination, ok, okGrammar, okFunction, okFunctionCount, okSignature] => do
    return {
      sentenceLength := ← sentenceLength.toNat?
      goldLength := ← goldLength.toNat?
      goldProductions := ← goldProductions.toNat?
      totalParams := ← totalParams.toNat?
      totalFilters := ← totalFilters.toNat?
      params := ← params.toNat?
      filters := ← filters.toNat?
      combination
      ok := ← flag? ok
      okGrammar := ← flag? okGrammar
      okFunction := ← flag? okFunction
      okFunctionCount := ← flag? okFunctionCount
      okSignature := ← flag? okSignature }
  | _ => none

theorem flag?_flag (b : Bool) : flag? (flag b) = some b := by
  cases b <;> rfl

theorem toNat?_toString (n : Nat) : (toString n).toNat? = some n :=
  Nat.toNat?_repr n

theorem ofFields?_fields (row : StatsRow) : ofFields? row.fields = some row := by
  simp only [fields, ofFields?, toNat?_toString, flag?_flag, Option.bind_eq_bind, Option.bind_some,
    Option.pure_def]

/-- The table of any rows is the text of just one list of records: the names of the columns, and
    for each row a record of as many fields that stands for the row and no other. -/
theorem table_read_back (rows : List StatsRow) :
    Csv.read (table rows) = some (columns :: rows.map fields) ∧
    (∀ records, Csv.Written (table rows).toList records ↔ records = columns :: rows.map fields) ∧
    columns = ["sentence_length", "gold_length", "gold_num_prod", "num_total_params",
      "num_total_filters", "num_params", "num_filters", "param_comb", "ok", "ok_grammar",
      "ok_function", "ok_fn_count", "ok_signature"] ∧
    ∀ row : StatsRow, row.fields.length = 13 ∧ ofFields? row.fields = some row := by
  have hread : Csv.read (table rows) = some (columns :: rows.map fields) :=
    Csv.read_of_written (.complete (lines_table rows))
  refine ⟨hread, fun records => ?_, rfl, fun row => ⟨rfl, ofFields?_fields row⟩⟩
  rw [← Csv.read_eq_some_iff, hread, Option.some.injEq, eq_comm]

end ParseBench.StatsRow
