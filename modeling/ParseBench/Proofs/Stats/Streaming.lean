/-
  ParseBench.Proofs.Stats.Streaming

  Result lines are tabulated one after the other. Lines with rows are passed through
  (`rows_append`), and every list of lines has only such lines or a first one that has none
  (`rowsOf_or_bad`), so what is written is the header and the rows before that line, and the
  error names its place among all lines (`tabulate_toUTF8_cases`). The places of blank lines and
  the characters that end a line have no part in what is written: it depends on the texts of the
  other lines only (`rows_fst`). These do not change when blank lines are put in
  (`contents_insert_blank`, `contents_append_blank`).
-/

import Mathlib.Data.List.Forall2
import ParseBench.Proofs.Stats.Tabulate

namespace ParseBench.Stats

open Grammar

variable {s : Setting} {lines front rest : List String} {line : String} {row : StatsRow}
variable {rows : List StatsRow} {e : Error}

/-! ## Lines one after the other -/

/-- Each line that is not blank has its row, in order. -/
def Setting.RowsOf (s : Setting) (lines : List String) (rows : List StatsRow) : Prop :=
  List.Forall₂ (fun line row => s.row line = .ok row)
    (lines.filter fun line => !isBlankLine line) rows

theorem rowsOf_cons_blank (h : isBlankLine line = true) :
    s.RowsOf (line :: lines) rows ↔ s.RowsOf lines rows := by
  have hfilter : (line :: lines).filter (fun line => !isBlankLine line) =
      lines.filter fun line => !isBlankLine line := by
    rw [List.filter_cons, h]
    rfl
  rw [Setting.RowsOf, hfilter, Setting.RowsOf]

theorem rowsOf_cons (h : isBlankLine line = false) :
    s.RowsOf (line :: lines) rows ↔
      ∃ row later, s.row line = .ok row ∧ s.RowsOf lines later ∧ rows = row :: later := by
  have hfilter : (line :: lines).filter (fun line => !isBlankLine line) =
      line :: lines.filter fun line => !isBlankLine line := by
    rw [List.filter_cons, h]
    rfl
  rw [Setting.RowsOf, hfilter, List.forall₂_cons_left_iff]
  rfl

theorem rows_cons_blank (h : isBlankLine line = true) (number : Nat)
    (later : List (Option String)) :
    s.rows number (some line :: later) = s.rows (number + 1) later := by
  rw [Setting.rows, if_pos h]

theorem rows_cons_ok (h : isBlankLine line = false) (hrow : s.row line = .ok row) (number : Nat)
    (later : List (Option String)) :
    s.rows number (some line :: later) =
      (row :: (s.rows (number + 1) later).1, (s.rows (number + 1) later).2) := by
  rw [Setting.rows, h, if_neg Bool.false_ne_true, hrow]
  rfl

theorem rows_cons_error (h : isBlankLine line = false) (hrow : s.row line = .error e)
    (number : Nat) (later : List (Option String)) :
    s.rows number (some line :: later) = ([], some (e.within (.resultLine number))) := by
  rw [Setting.rows, h, if_neg Bool.false_ne_true, hrow]
  rfl

/-- Lines with rows are passed through: their rows come first, and the lines after them are
    numbered on. -/
theorem rows_append (h : s.RowsOf front rows) (number : Nat) (later : List (Option String)) :
    s.rows number (front.map some ++ later) =
      (rows ++ (s.rows (number + front.length) later).1,
        (s.rows (number + front.length) later).2) := by
  induction front generalizing rows number with
  | nil =>
      cases h
      rfl
  | cons line front ih =>
      have hnumber : number + 1 + front.length = number + (front.length + 1) := by omega
      rw [List.map_cons, List.cons_append, List.length_cons]
      by_cases hblank : isBlankLine line = true
      · have hrest := ih ((rowsOf_cons_blank hblank).1 h) (number + 1)
        rw [rows_cons_blank hblank, hrest, hnumber]
      · rw [Bool.not_eq_true] at hblank
        obtain ⟨row, later', hrow, hlater, rfl⟩ := (rowsOf_cons hblank).1 h
        have hrest := ih hlater (number + 1)
        rw [rows_cons_ok hblank hrow, hrest, hnumber]
        rfl

/-- All lines that are not blank have rows, or there is a first one that has none. -/
theorem rowsOf_or_bad (s : Setting) (lines : List String) :
    (∃ rows, s.RowsOf lines rows) ∨
      ∃ front line rest rows e, lines = front ++ line :: rest ∧ s.RowsOf front rows ∧
        isBlankLine line = false ∧ s.row line = .error e := by
  induction lines with
  | nil => exact .inl ⟨[], .nil⟩
  | cons first lines ih =>
      by_cases hblank : isBlankLine first = true
      · rcases ih with ⟨rows, hrows⟩ | ⟨front, line, rest, rows, e, rfl, hrows, hline, herror⟩
        · exact .inl ⟨rows, (rowsOf_cons_blank hblank).2 hrows⟩
        · exact .inr ⟨first :: front, line, rest, rows, e, rfl,
            (rowsOf_cons_blank hblank).2 hrows, hline, herror⟩
      · rw [Bool.not_eq_true] at hblank
        cases hfirst : s.row first with
        | error e => exact .inr ⟨[], first, lines, [], e, rfl, .nil, hblank, hfirst⟩
        | ok row =>
            rcases ih with ⟨rows, hrows⟩ | ⟨front, line, rest, rows, e, rfl, hrows, hline, herror⟩
            · exact .inl ⟨row :: rows, (rowsOf_cons hblank).2 ⟨row, rows, hfirst, hrows, rfl⟩⟩
            · exact .inr ⟨first :: front, line, rest, row :: rows, e, rfl,
                (rowsOf_cons hblank).2 ⟨row, rows, hfirst, hrows, rfl⟩, hline, herror⟩

theorem message_within_resultLine (e : Error) (number : Nat) :
    (e.within (.resultLine number)).message =
      "Result line " ++ toString number ++ ": " ++ e.message := by
  have hne : e.contexts.map Context.message ++ [e.cause.message] ≠ [] := by simp
  rw [Error.message, Error.within, List.map_cons, List.cons_append, Text.join,
    String.intercalate_cons_of_ne_nil hne]
  rfl

theorem tabulate_of_rowsOf {text : String} (h : s.RowsOf (Text.lines text) rows) :
    s.tabulate (Text.byteLines text.toUTF8) = (.ok rows.length, StatsRow.table rows) := by
  have hall := rows_append h 1 []
  rw [List.append_nil] at hall
  rw [Text.byteLines_toUTF8, tabulate_of_rows hall]
  simp [Setting.rows]

/-- What tabulating a text comes to: all its lines that are not blank have rows, or the first
    one that has none ends the table. -/
theorem tabulate_toUTF8_cases (s : Setting) (text : String) :
    (∃ rows, s.RowsOf (Text.lines text) rows ∧
      s.tabulate (Text.byteLines text.toUTF8) = (.ok rows.length, StatsRow.table rows)) ∨
    ∃ front line rest rows e, Text.lines text = front ++ line :: rest ∧ s.RowsOf front rows ∧
      isBlankLine line = false ∧ s.row line = .error e ∧
      s.tabulate (Text.byteLines text.toUTF8) =
        (.error (e.within (.resultLine (front.length + 1))), StatsRow.table rows) := by
  rcases rowsOf_or_bad s (Text.lines text) with
    ⟨rows, hrows⟩ | ⟨front, line, rest, rows, e, hlines, hrows, hline, herror⟩
  · exact .inl ⟨rows, hrows, tabulate_of_rowsOf hrows⟩
  · have hbad := rows_append hrows 1 (some line :: rest.map some)
    rw [rows_cons_error hline herror, List.append_nil] at hbad
    refine .inr ⟨front, line, rest, rows, e, hlines, hrows, hline, herror, ?_⟩
    rw [Text.byteLines_toUTF8, hlines, List.map_append, List.map_cons, tabulate_of_rows hbad,
      Nat.add_comm 1]
    rfl

/-! ## What is written -/

/-- What is read of lines: those that are not blank, without the line ends that are left. -/
def contents (lines : List String) : List String :=
  (lines.filter fun line => !isBlankLine line).map ResultLine.dropLineEnd

/-- The rows of lines up to the first one that has none. -/
def Setting.rowsBefore (s : Setting) : List String → List StatsRow
  | [] => []
  | line :: rest =>
    match s.row line with
    | .ok row => row :: s.rowsBefore rest
    | .error _ => []

theorem contents_append (front rest : List String) :
    contents (front ++ rest) = contents front ++ contents rest := by
  rw [contents, List.filter_append, List.map_append]
  rfl

theorem contents_eq_nil (h : ∀ line ∈ lines, isBlankLine line = true) : contents lines = [] := by
  have hnone : lines.filter (fun line => !isBlankLine line) = [] := by
    rw [List.filter_eq_nil_iff]
    intro line hline
    simp [h line hline]
  rw [contents, hnone, List.map_nil]

/-- Line ends are dropped when a line is read. -/
theorem row_dropLineEnd (s : Setting) (line : String) :
    s.row (ResultLine.dropLineEnd line) = s.row line := by
  obtain ⟨ends, hends, hline⟩ := ResultLine.exists_dropLineEnd_append line
  have hsame : ResultLine.read (ResultLine.dropLineEnd line) = ResultLine.read line := by
    have hdrop : ResultLine.dropLineEnd (ResultLine.dropLineEnd line ++ ends) =
        ResultLine.dropLineEnd (ResultLine.dropLineEnd line) :=
      ResultLine.dropLineEnd_append hends
    rw [← hline] at hdrop
    unfold ResultLine.read
    rw [← hdrop]
  rw [Setting.row, hsame, Setting.row]

/-- The rows that are written are those of what is read of the lines. -/
theorem rows_fst (number : Nat) (lines : List String) :
    (s.rows number (lines.map some)).1 = s.rowsBefore (contents lines) := by
  induction lines generalizing number with
  | nil => rfl
  | cons line lines ih =>
      rw [List.map_cons]
      by_cases hblank : isBlankLine line = true
      · have hcontents : contents (line :: lines) = contents lines := by
          simp [contents, hblank]
        rw [rows_cons_blank hblank, ih, hcontents]
      · rw [Bool.not_eq_true] at hblank
        have hcontents :
            contents (line :: lines) = ResultLine.dropLineEnd line :: contents lines := by
          simp [contents, hblank]
        rw [hcontents, Setting.rowsBefore, row_dropLineEnd]
        cases hrow : s.row line with
        | error e => rw [rows_cons_error hblank hrow]
        | ok row =>
            rw [rows_cons_ok hblank hrow]
            exact congrArg (row :: ·) (ih (number + 1))

/-! ## Blank lines -/

theorem isBlankLine_iff : isBlankLine line = true ↔ ∀ c ∈ line.toList, Text.isBlank c = true :=
  Text.isEmpty_trim_iff

theorem contents_blank {blank : String} (h : ∀ c ∈ blank.toList, Text.isBlank c = true) :
    contents (Text.lines blank) = [] := by
  apply contents_eq_nil
  intro line hline
  rw [isBlankLine_iff]
  intro c hc
  exact h c (Text.mem_of_mem_lines hline c hc)

/-- Blank lines may stand before any line. -/
theorem contents_insert_blank {before blank : String} (hbefore : Text.EndsLine before)
    (hblank : ∀ c ∈ blank.toList, Text.isBlank c = true) (after : String) :
    contents (Text.lines (before ++ blank ++ "\n" ++ after)) =
      contents (Text.lines (before ++ after)) := by
  have hnone : contents (Text.lines (blank ++ "\n")) = [] := by
    apply contents_blank
    intro c hc
    rw [String.toList_append, List.mem_append] at hc
    rcases hc with hin | hfeed
    · exact hblank c hin
    · rw [List.mem_singleton.1 hfeed]
      decide
  have hparts : before ++ blank ++ "\n" ++ after = before ++ (blank ++ "\n" ++ after) := by
    simp only [String.append_assoc]
  rw [hparts, Text.lines_append hbefore, Text.lines_append hbefore,
    Text.lines_append (.inr ⟨blank, rfl⟩), contents_append, contents_append, contents_append,
    hnone, List.nil_append]

/-- A carriage return that is left at the end of a line is not read. -/
theorem contents_append_return (line : String) : contents [line ++ "\r"] = contents [line] := by
  have hends : ResultLine.IsLineEnds "\r" := by
    intro c hc
    exact .inl (List.mem_singleton.1 hc)
  have hblank : isBlankLine (line ++ "\r") = isBlankLine line := by
    rw [Bool.eq_iff_iff, isBlankLine_iff, isBlankLine_iff, String.toList_append]
    constructor
    · intro h c hc
      exact h c (List.mem_append_left _ hc)
    · intro h c hc
      rcases List.mem_append.1 hc with hin | hreturn
      · exact h c hin
      · rw [List.mem_singleton.1 hreturn]
        decide
  simp only [contents, List.filter_cons, hblank, List.filter_nil]
  split
  · rw [List.map_singleton, List.map_singleton, ResultLine.dropLineEnd_append hends]
  · rfl

/-- The last line may lack its line feed. -/
theorem contents_append_feed (text : String) :
    contents (Text.lines (text ++ "\n")) = contents (Text.lines text) := by
  obtain ⟨init, last, hpieces⟩ : ∃ init last,
      Text.splitWhere (· == '\n') text.toList = init ++ [last] :=
    ⟨_, _, (List.dropLast_concat_getLast (Text.splitWhere_ne_nil _ _)).symm⟩
  have hlist : (text ++ "\n").toList = text.toList ++ '\n' :: [] := by simp
  have hfeed : Text.lines (text ++ "\n") =
      (init.map fun piece => String.ofList (Text.dropReturn '\r' piece)) ++
        [String.ofList (Text.dropReturn '\r' last)] := by
    rw [Text.lines, hlist, Text.linesBy_append_feed, hpieces]
    simp [Text.linesBy, Text.linesOfPieces]
  have halone : Text.lines text =
      (init.map fun piece => String.ofList (Text.dropReturn '\r' piece)) ++
        (Text.linesOfPieces '\r' [last]).map String.ofList := by
    rw [Text.lines, Text.linesBy, hpieces, Text.linesOfPieces_append _ (by simp), List.map_append,
      List.map_map]
    rfl
  have hlast : contents [String.ofList (Text.dropReturn '\r' last)] =
      contents ((Text.linesOfPieces '\r' [last]).map String.ofList) := by
    by_cases hnil : last = []
    · have hnone : contents [""] = [] := contents_eq_nil (by simp [isBlankLine_iff])
      rw [hnil]
      exact hnone
    · have hone : Text.linesOfPieces '\r' [last] = [last] := by
        simp [Text.linesOfPieces, hnil]
      rw [hone, List.map_singleton]
      unfold Text.dropReturn
      split
      · next hreturn =>
          -- the carriage return before the line feed is at the end of the line otherwise
          have hsplit : String.ofList last = String.ofList last.dropLast ++ "\r" := by
            apply String.toList_injective
            rw [String.toList_append, String.toList_ofList, String.toList_ofList]
            exact (List.dropLast_append_getLast? _ hreturn).symm
          rw [hsplit, contents_append_return]
      · rfl
  rw [hfeed, halone, contents_append, contents_append, hlast]

/-- Blank lines may stand at the end. -/
theorem contents_append_blank {blank : String}
    (hblank : ∀ c ∈ blank.toList, Text.isBlank c = true) (text : String) :
    contents (Text.lines (text ++ "\n" ++ blank)) = contents (Text.lines text) := by
  rw [Text.lines_append (.inr ⟨text, rfl⟩), contents_append, contents_blank hblank,
    List.append_nil, contents_append_feed]

/-! ## Texts in parts -/

/-- Everything that is written for a text. -/
def Setting.written (s : Setting) (text : String) : String :=
  (s.tabulate (Text.byteLines text.toUTF8)).2

theorem written_eq (s : Setting) (text : String) :
    s.written text = StatsRow.table (s.rowsBefore (contents (Text.lines text))) := by
  rw [Setting.written, Text.byteLines_toUTF8, ← rows_fst 1]
  exact congrArg Prod.snd (tabulate_of_rows rfl)

/-- The rows of a text come after those of a text before it that is free of bad lines. -/
theorem rowsBefore_append {before : String} (hbefore : Text.EndsLine before)
    (hrows : s.RowsOf (Text.lines before) rows) (after : String) :
    s.rowsBefore (contents (Text.lines (before ++ after))) =
      rows ++ s.rowsBefore (contents (Text.lines after)) := by
  have hwhole := rows_append hrows 1 ((Text.lines after).map some)
  rw [← List.map_append, ← Text.lines_append hbefore] at hwhole
  have hfirst := congrArg Prod.fst hwhole
  rwa [rows_fst, rows_fst] at hfirst

/-- Result lines are tabulated one by one. If all lines that are not blank have rows, there are
    as many rows as there are such lines; otherwise the error is that of the first one that has
    none, in the context of its number among all lines, and what is written are the rows of the
    lines before it. Blank lines have no part in what is written, wherever they stand, and a text
    that comes after another one is tabulated as it is alone. -/
theorem tabulate_streams (s : Setting) :
    (∀ text,
      (∃ rows, s.RowsOf (Text.lines text) rows ∧
        s.tabulate (Text.byteLines text.toUTF8) = (.ok rows.length, StatsRow.table rows)) ∨
      ∃ front line rest rows e, Text.lines text = front ++ line :: rest ∧ s.RowsOf front rows ∧
        isBlankLine line = false ∧ s.row line = .error e ∧
        s.tabulate (Text.byteLines text.toUTF8) =
          (.error (e.within (.resultLine (front.length + 1))), StatsRow.table rows) ∧
        (e.within (.resultLine (front.length + 1))).message =
          "Result line " ++ toString (front.length + 1) ++ ": " ++ e.message) ∧
    (∀ before blank after, Text.EndsLine before → (∀ c ∈ blank.toList, Text.isBlank c = true) →
      s.written (before ++ blank ++ "\n" ++ after) = s.written (before ++ after)) ∧
    (∀ text blank, (∀ c ∈ blank.toList, Text.isBlank c = true) →
      s.written (text ++ "\n" ++ blank) = s.written text) ∧
    ∀ before after rows, Text.EndsLine before → s.RowsOf (Text.lines before) rows →
      ∃ body, s.written after = StatsRow.header ++ body ∧
        s.written (before ++ after) = s.written before ++ body := by
  refine ⟨?lines, ?inserted, ?appended, ?parts⟩
  case lines =>
    intro text
    rcases tabulate_toUTF8_cases s text with
      hall | ⟨front, line, rest, rows, e, hlines, hrows, hline, herror, htabulate⟩
    · exact .inl hall
    · exact .inr ⟨front, line, rest, rows, e, hlines, hrows, hline, herror, htabulate,
        message_within_resultLine e _⟩
  case inserted =>
    intro before blank after hbefore hblank
    rw [written_eq, contents_insert_blank hbefore hblank, written_eq]
  case appended =>
    intro text blank hblank
    rw [written_eq, contents_append_blank hblank, written_eq]
  case parts =>
    intro before after rows hbefore hrows
    have halone := rowsBefore_append hbefore hrows ""
    have hnothing : s.rowsBefore (contents (Text.lines "")) = [] := rfl
    rw [String.append_empty, hnothing, List.append_nil] at halone
    refine ⟨String.join ((s.rowsBefore (contents (Text.lines after))).map StatsRow.write),
      written_eq s after, ?_⟩
    rw [written_eq, written_eq, rowsBefore_append hbefore hrows, halone, StatsRow.table,
      StatsRow.table, List.map_append, String.join_append, String.append_assoc]

/-- The result line of a sum, and one that has no fields. -/
def goodLine : String :=
  "add\tone plus one\tone\tFalse\tCorrectGrammar\tCorrectFunction\tCorrectNumFunction" ++
    "\tCorrectSignature"

def goodRow : StatsRow :=
  { sentenceLength := 1, goldLength := 3, goldProductions := 4, okGrammar := true,
    okFunction := true, okFunctionCount := true, okSignature := true }

theorem tabulate_streams_sums :
    (Setting.mk sumsGrammar none).RowsOf (Text.lines (goodLine ++ "\n")) [goodRow] ∧
    (Setting.mk sumsGrammar none).written (goodLine ++ "\n") =
      "sentence_length,gold_length,gold_num_prod,num_total_params,num_total_filters,num_params," ++
        "num_filters,param_comb,ok,ok_grammar,ok_function,ok_fn_count,ok_signature\n" ++
        "1,3,4,0,0,0,0,,0,1,1,1,1\n" ∧
    (Setting.mk sumsGrammar none).written (goodLine ++ "\n" ++ " \r" ++ "\n" ++ "sum") =
      (Setting.mk sumsGrammar none).written (goodLine ++ "\n" ++ "sum") ∧
    (Setting.mk sumsGrammar none).written (goodLine ++ "\n" ++ "\t") =
      (Setting.mk sumsGrammar none).written goodLine ∧
    ∃ body, (Setting.mk sumsGrammar none).written "sum" = StatsRow.header ++ body ∧
      (Setting.mk sumsGrammar none).written (goodLine ++ "\n" ++ "sum") =
        (Setting.mk sumsGrammar none).written (goodLine ++ "\n") ++ body := by
  have hlines : Text.lines (goodLine ++ "\n") = [goodLine] := by decide +kernel
  have hblank : isBlankLine goodLine = false := by decide +kernel
  have hrow : (Setting.mk sumsGrammar none).row goodLine = .ok goodRow :=
    eq_ok_of_toOption (by decide +kernel)
  have hrows : (Setting.mk sumsGrammar none).RowsOf (Text.lines (goodLine ++ "\n")) [goodRow] := by
    rw [hlines]
    exact (rowsOf_cons hblank).2 ⟨goodRow, [], hrow, .nil, rfl⟩
  have hends : Text.EndsLine (goodLine ++ "\n") := .inr ⟨goodLine, rfl⟩
  have hspace : ∀ c ∈ " \r".toList, Text.isBlank c = true := by simp [Text.isBlank]
  have htab : ∀ c ∈ "\t".toList, Text.isBlank c = true := by simp [Text.isBlank]
  obtain ⟨-, hinserted, happended, hparts⟩ := tabulate_streams (Setting.mk sumsGrammar none)
  have hwritten : (Setting.mk sumsGrammar none).written (goodLine ++ "\n") =
      StatsRow.table [goodRow] := congrArg Prod.snd (tabulate_of_rowsOf hrows)
  exact ⟨hrows, hwritten.trans (by decide +kernel), hinserted _ _ "sum" hends hspace,
    happended goodLine _ htab, hparts _ "sum" _ hends hrows⟩

end ParseBench.Stats
