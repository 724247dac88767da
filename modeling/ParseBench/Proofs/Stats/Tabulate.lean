/-
  ParseBench.Proofs.Stats.Tabulate

  The table of a scoring's own lines. Each line is read back (`row_resultLine`), none is
  passed over as blank, and the file is cut into just these lines, so there is one row for
  each prediction (`rows_resultLines`, by induction on the predictions). A row says how
  many tokens and productions the gold example has and which levels the prediction passes
  (`Setting.Describes`). One count is off: no tokens at all are counted as one, since an
  empty text is one empty piece.
-/

import ParseBench.Proofs.Program.Acceptance
import ParseBench.Proofs.Score.ResultLine
import ParseBench.Proofs.Text.Lines
import ParseBench.Score.Run
import ParseBench.Stats.Tabulate

namespace ParseBench.Stats

open Grammar

variable {s : Setting} {g : ProgramGrammar} {pair : Score.Pair}

/-! ## Rows and what is written -/

/-- The rows of lines up to the first one that has none, and the error of that line. -/
def Setting.rows (s : Setting) : Nat → List (Option String) → List StatsRow × Option Error
  | _, [] => ([], none)
  | _, none :: _ => ([], some Cause.system)
  | number, some line :: rest =>
    if isBlankLine line then s.rows (number + 1) rest
    else
      match inContext (.resultLine number) (s.row line) with
      | .error e => ([], some e)
      | .ok row => (row :: (s.rows (number + 1) rest).1, (s.rows (number + 1) rest).2)

/-- The rows are counted, and each is written behind what was written before it. -/
theorem tabulateFrom_eq (number count : Nat) (written : String) (lines : List (Option String)) :
    s.tabulateFrom number count written lines =
      ((s.rows number lines).2.elim (.ok (count + (s.rows number lines).1.length)) .error,
        written ++ String.join ((s.rows number lines).1.map StatsRow.write)) := by
  induction lines generalizing number count written with
  | nil => simp [Setting.tabulateFrom, Setting.rows]
  | cons line lines ih =>
      cases line with
      | none => simp [Setting.tabulateFrom, Setting.rows]
      | some line =>
          rw [Setting.tabulateFrom, Setting.rows]
          by_cases hblank : isBlankLine line = true
          · rw [if_pos hblank, if_pos hblank]
            exact ih _ _ _
          · rw [if_neg hblank, if_neg hblank]
            cases inContext (.resultLine number) (s.row line) with
            | error e => simp
            | ok row =>
                dsimp only
                rw [ih, List.length_cons, List.map_cons, String.join_cons, String.append_assoc,
                  Nat.add_assoc, Nat.add_comm 1]

/-- The table is the header and then the rows. -/
theorem tabulate_of_rows {lines : List (Option String)} {rows : List StatsRow}
    {error : Option Error} (h : s.rows 1 lines = (rows, error)) :
    s.tabulate lines = (error.elim (.ok rows.length) .error, StatsRow.table rows) := by
  rw [Setting.tabulate, tabulateFrom_eq, h, Nat.zero_add]
  rfl

/-! ## The rows of a scoring -/

/-- What a row says about an example with a prediction that was scored with `g`. -/
structure Setting.Describes (s : Setting) (g : ProgramGrammar) (pair : Score.Pair)
    (row : StatsRow) : Prop where
  /-- A sentence without tokens counts as one token. -/
  sentenceLength : row.sentenceLength = max 1 pair.1.sentence.length
  goldLength : row.goldLength = pair.1.program.length
  /-- The productions are as many as the reductions of the parser, at most sixty. -/
  goldProductions : ∃ tokens steps productions, s.grammar.tokenize pair.1.program = .ok tokens ∧
    s.grammar.parser.parse tokens = .ok steps ∧
    s.grammar.encode pair.1.program = .ok productions ∧
    row.goldProductions = min 60 productions.length ∧
    (s.grammar.kind.direction = .bottomUp ∨
        s.grammar.parser.Lawful ∧ isNonterminal s.grammar.parser.start = true →
      productions.length = (reductions steps).length)
  ok : row.ok = (Score.outcome g pair).full
  okGrammar : row.okGrammar = (Score.outcome g pair).grammar
  okFunction : row.okFunction = (Score.outcome g pair).function
  okFunctionCount : row.okFunctionCount = (Score.outcome g pair).functionCount
  okSignature : row.okSignature = (Score.outcome g pair).signature

/-- The line of a scored pair is read back as the row that describes it. -/
theorem row_resultLine (he : pair.1.Worded) (hp : Text.AreWords pair.2)
    (hne : pair.1.program ≠ []) {ids : List Nat}
    (hids : s.grammar.vectorize pair.1.program maxProductions = .ok ids) :
    ∃ row, s.row (Score.resultLine g pair).write = .ok row ∧ s.Describes g pair row := by
  have hread := ResultLine.read_write (Score.resultLine_lacks (g := g) he hp (by decide))
  have hgold : Text.splitOn ' ' (Score.resultLine g pair).gold = pair.1.program := by
    have hsplit := he.program.splitOn_join
    rw [if_neg hne] at hsplit
    exact hsplit
  have hsentence : (Text.splitOn ' ' (Score.resultLine g pair).sentence).length =
      max 1 pair.1.sentence.length := by
    have hsplit := he.sentence.splitOn_join
    rw [Score.resultLine, hsplit]
    split
    · next hnil => simp [hnil]
    · next hnil =>
        have hpos := List.length_pos_of_ne_nil hnil
        omega
  obtain ⟨productions, hproductions, hlist⟩ := ProgramGrammar.vectorize_eq_ok_iff.1 hids
  obtain ⟨tokens, steps, htokens, hparse, hlen⟩ :=
    ProgramGrammar.exists_parse_of_encode hproductions
  refine ⟨_, by simp only [Setting.row, hread, bind, Except.bind, hgold, hids]; rfl, ?_⟩
  constructor
  case goldProductions =>
    refine ⟨tokens, steps, productions, htokens, hparse, hproductions, ?_, hlen⟩
    rw [hlist]
    exact List.length_take
  case sentenceLength => exact hsentence
  all_goals rfl

theorem isBlankLine_write (r : ResultLine) : isBlankLine r.write = false := by
  obtain ⟨front, hfront⟩ := ResultLine.exists_write_eq r
  rw [isBlankLine, Bool.eq_false_iff]
  intro hblank
  have hmem : 'e' ∈ r.write.toList := by
    rw [hfront, String.toList_append, List.mem_append]
    exact .inr (by decide)
  have hletter := Text.isBlank_of_isEmpty_trim hblank 'e' hmem
  revert hletter
  decide

/-- The lines of scored pairs become one row each, and no error ends them. -/
theorem rows_resultLines {pairs : List Score.Pair}
    (hwords : ∀ pair ∈ pairs, pair.1.Worded ∧ Text.AreWords pair.2)
    (hgold : ∀ pair ∈ pairs, pair.1.program ≠ [] ∧
      ∃ ids, s.grammar.vectorize pair.1.program maxProductions = .ok ids) (number : Nat) :
    ∃ rows, s.rows number (pairs.map fun pair => some (Score.resultLine g pair).write) =
        (rows, none) ∧ List.Forall₂ (s.Describes g) pairs rows := by
  induction pairs generalizing number with
  | nil => exact ⟨[], rfl, .nil⟩
  | cons pair pairs ih =>
      obtain ⟨⟨he, hp⟩, hwords⟩ := List.forall_mem_cons.1 hwords
      obtain ⟨⟨hne, ids, hids⟩, hgold⟩ := List.forall_mem_cons.1 hgold
      obtain ⟨row, hrow, hdescribes⟩ := row_resultLine (g := g) he hp hne hids
      obtain ⟨rows, hrows, hall⟩ := ih hwords hgold (number + 1)
      refine ⟨row :: rows, ?_, .cons hdescribes hall⟩
      rw [List.map_cons, Setting.rows, isBlankLine_write, if_neg Bool.false_ne_true, hrow]
      simp only [inContext, Except.mapError, hrows]

/-- The file of a scoring is cut into the lines that were written. -/
theorem byteLines_linesText {pairs : List Score.Pair}
    (hwords : ∀ pair ∈ pairs, pair.1.Worded ∧ Text.AreWords pair.2) :
    Text.byteLines (Results.linesText (pairs.map (Score.resultLine g))).toUTF8 =
      pairs.map fun pair => some (Score.resultLine g pair).write := by
  have hlines : ∀ line ∈ pairs.map fun pair => (Score.resultLine g pair).write,
      '\n' ∉ line.toList ∧ '\r' ∉ line.toList := by
    refine List.forall_mem_map.2 fun pair hpair => ?_
    obtain ⟨he, hp⟩ := hwords pair hpair
    exact ⟨(Score.resultLine_lacks he hp (by decide)).write (by decide) (by decide),
      (Score.resultLine_lacks he hp (by decide)).write (by decide) (by decide)⟩
  have hcut := Text.byteLines_terminated hlines
  rw [List.map_map, List.map_map] at hcut
  rw [Results.linesText, List.map_map]
  exact hcut

/-- So the file is tabulated without an error. -/
theorem tabulate_resultLines {pairs : List Score.Pair}
    (hwords : ∀ pair ∈ pairs, pair.1.Worded ∧ Text.AreWords pair.2)
    (hgold : ∀ pair ∈ pairs, pair.1.program ≠ [] ∧
      ∃ ids, s.grammar.vectorize pair.1.program maxProductions = .ok ids) :
    ∃ rows, s.tabulate
        (Text.byteLines (Results.linesText (pairs.map (Score.resultLine g))).toUTF8) =
          (.ok rows.length, StatsRow.table rows) ∧ List.Forall₂ (s.Describes g) pairs rows := by
  obtain ⟨rows, hrows, hall⟩ := rows_resultLines (g := g) hwords hgold 1
  refine ⟨rows, ?_, hall⟩
  rw [byteLines_linesText hwords]
  exact tabulate_of_rows hrows

theorem worded_of_mem_zip {path text : String} {gold : List Example}
    (hgold : Dataset.ofText path text = .ok gold) (predicted : String) :
    ∀ pair ∈ gold.zip (Predictions.ofText predicted), pair.1.Worded ∧ Text.AreWords pair.2 := by
  intro pair hpair
  obtain ⟨he, hp⟩ := List.of_mem_zip hpair
  exact ⟨Dataset.worded_of_ofText hgold pair.1 he, Predictions.areWords_of_mem hp⟩

/-- What scoring writes is tabulated without an error, in one row for each prediction that
    describes it, for every grammar that encodes the gold programs; these are not empty. -/
theorem tabulate_score {path text predicted : String} {gold : List Example}
    (hgold : Dataset.ofText path text = .ok gold) {lines : List ResultLine} {m : Metrics}
    (hscore : Score.score g gold (Predictions.ofText predicted) = .ok (lines, m))
    (hencodes : ∀ pair ∈ gold.zip (Predictions.ofText predicted), pair.1.program ≠ [] ∧
      ∃ ids, s.grammar.vectorize pair.1.program maxProductions = .ok ids) :
    ∃ rows, s.tabulate (Text.byteLines (Results.linesText lines).toUTF8) =
        (.ok (Predictions.ofText predicted).length, StatsRow.table rows) ∧
      List.Forall₂ (s.Describes g) (gold.zip (Predictions.ofText predicted)) rows := by
  obtain ⟨hlen, rfl⟩ := Score.score_eq_ok hscore
  obtain ⟨rows, htable, hall⟩ :=
    tabulate_resultLines (g := g) (worded_of_mem_zip hgold predicted) hencodes
  have hcount : rows.length = (Predictions.ofText predicted).length := by
    rw [← hall.length_eq, List.length_zip, Nat.min_eq_right hlen]
  rw [hcount] at htable
  exact ⟨rows, htable, hall⟩

/-! ## Sums and their statistics -/

/-- The sums as a grammar of programs. -/
def sumsGrammar : ProgramGrammar :=
  ⟨sumsCompiled.parser, ⟨.bottomUp, false⟩, [], []⟩

theorem tabulate_score_sums :
    ∃ gold lines m row,
      Dataset.ofText "test.tsv" "7\tadd\u2003two  ones\tone plus one\n" = .ok gold ∧
      Score.score sumsGrammar gold (Predictions.ofText "one\n") = .ok (lines, m) ∧
      (Setting.mk sumsGrammar none).tabulate
          (Text.byteLines (Results.linesText lines).toUTF8) = (.ok 1, StatsRow.table [row]) ∧
      row.sentenceLength = 3 ∧ row.goldLength = 3 ∧ row.goldProductions = 4 ∧
      row.ok = false ∧ row.okGrammar = true := by
  have hgold : Dataset.ofText "test.tsv" "7\tadd\u2003two  ones\tone plus one\n" =
      .ok [⟨"7", ["add", "two", "ones"], ["one", "plus", "one"]⟩] :=
    eq_ok_of_toOption (by decide +kernel)
  have hpredicted : Predictions.ofText "one\n" = [["one"]] := by decide +kernel
  have hencode : sumsGrammar.encode ["one", "plus", "one"] = .ok [2, 1, 2, 0] :=
    eq_ok_of_toOption (by decide +kernel)
  obtain ⟨lines, m, hscore⟩ : ∃ lines m, Score.score sumsGrammar
      [⟨"7", ["add", "two", "ones"], ["one", "plus", "one"]⟩] (Predictions.ofText "one\n") =
        .ok (lines, m) := by
    rw [hpredicted]
    exact ⟨_, _, rfl⟩
  obtain ⟨rows, htable, hall⟩ := tabulate_score (s := ⟨sumsGrammar, none⟩) hgold hscore (by
    rw [hpredicted]
    refine List.forall_mem_singleton.2 ⟨List.cons_ne_nil _ _, [2, 1, 2, 0], ?_⟩
    exact ProgramGrammar.vectorize_eq_ok_iff.2 ⟨_, hencode, rfl⟩)
  rw [hpredicted] at htable hall
  obtain ⟨row, rest, hrow, hrest, rfl⟩ := List.forall₂_cons_left_iff.1 hall
  rw [List.forall₂_nil_left_iff.1 hrest] at htable
  obtain ⟨_, _, productions, -, -, hproductions, hcount, -⟩ := hrow.goldProductions
  rw [hencode] at hproductions
  cases hproductions
  refine ⟨_, _, _, row, hgold, hscore, htable, hrow.sentenceLength, hrow.goldLength, hcount,
    ?_, ?_⟩
  · rw [hrow.ok]
    decide
  · rw [hrow.okGrammar]
    decide

/-- An empty sentence is counted as one token. -/
theorem tabulate_empty_sentence :
    ∃ gold lines m row, Dataset.ofText "test.tsv" "7\t\tone\n" = .ok gold ∧
      gold.map Example.sentence = [[]] ∧
      Score.score sumsGrammar gold (Predictions.ofText "one\n") = .ok (lines, m) ∧
      (Setting.mk sumsGrammar none).tabulate
          (Text.byteLines (Results.linesText lines).toUTF8) = (.ok 1, StatsRow.table [row]) ∧
      row.sentenceLength = 1 := by
  have hgold : Dataset.ofText "test.tsv" "7\t\tone\n" = .ok [⟨"7", [], ["one"]⟩] :=
    eq_ok_of_toOption (by decide +kernel)
  have hpredicted : Predictions.ofText "one\n" = [["one"]] := by decide +kernel
  have hencode : sumsGrammar.encode ["one"] = .ok [2, 1] := eq_ok_of_toOption (by decide +kernel)
  obtain ⟨lines, m, hscore⟩ : ∃ lines m, Score.score sumsGrammar [⟨"7", [], ["one"]⟩]
      (Predictions.ofText "one\n") = .ok (lines, m) := by
    rw [hpredicted]
    exact ⟨_, _, rfl⟩
  obtain ⟨-, hlines⟩ := Score.score_eq_ok hscore
  have hwords := worded_of_mem_zip hgold "one\n"
  rw [hpredicted] at hwords hlines
  obtain ⟨rows, htable, hall⟩ :=
    tabulate_resultLines (s := ⟨sumsGrammar, none⟩) (g := sumsGrammar) hwords (by
      refine List.forall_mem_singleton.2 ⟨List.cons_ne_nil _ _, [2, 1], ?_⟩
      exact ProgramGrammar.vectorize_eq_ok_iff.2 ⟨_, hencode, rfl⟩)
  obtain ⟨row, rest, hrow, hrest, rfl⟩ := List.forall₂_cons_left_iff.1 hall
  rw [List.forall₂_nil_left_iff.1 hrest, ← hlines] at htable
  exact ⟨_, _, _, row, hgold, rfl, hscore, htable, hrow.sentenceLength⟩

end ParseBench.Stats
