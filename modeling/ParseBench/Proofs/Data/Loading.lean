/-
  ParseBench.Proofs.Data.Loading

  Datasets and predictions come back from their files, and stay aligned. A line of an example is
  cut into its columns again (`example?_write`), and its columns into their words. Blank lines of
  a dataset are passed over: what is loaded are the examples of the other lines, one for each
  (`ofLines_eq_ok_iff`), unless a first line has too few columns (`ofLines_short`). Blank lines
  of predictions are programs. So the prediction at a place is judged against the example of the
  line at this place among the lines that are not blank (`score_aligned`). A carriage return that
  is read away at the end of a line, or is not, changes neither of the two (`ofLines_congr`).
-/

import ParseBench.Proofs.Score.ResultLine
import ParseBench.Proofs.Session
import ParseBench.Proofs.Text.Lines

namespace ParseBench

/-! ## Lines of a dataset -/

namespace Dataset

variable {path line : String} {number : Nat} {lines front rest : List String}
variable {e : Example} {examples : List Example}

/-- Has the line nothing but blanks in it? -/
def isBlankLine (line : String) : Bool :=
  line.toList.all Text.isBlank

/-- The lines that are not blank, in order. -/
def rows (lines : List String) : List String :=
  lines.filter fun line => !isBlankLine line

/-- The line is not blank and has fewer than three columns. -/
def IsShort (line : String) : Prop :=
  isBlankLine line = false ∧ (Text.splitOn '\t' line).length < 3

instance (line : String) : Decidable (IsShort line) :=
  inferInstanceAs (Decidable (_ ∧ _))

theorem isEmpty_trim (line : String) : (Text.trim line).isEmpty = isBlankLine line := by
  rw [Bool.eq_iff_iff, Text.isEmpty_trim_iff, isBlankLine, List.all_eq_true]

theorem example?_eq_none_iff : example? line = none ↔ (Text.splitOn '\t' line).length < 3 := by
  unfold example?
  split
  · next id sentence program more hsplit =>
      rw [hsplit]
      simp
  · next hfew =>
      refine ⟨fun _ => ?_, fun _ => rfl⟩
      rcases hsplit : Text.splitOn '\t' line with _ | ⟨id, _ | ⟨sentence, _ | ⟨program, more⟩⟩⟩
      · simp
      · simp
      · simp
      · exact absurd hsplit (hfew id sentence program more)

/-- Each row has its example, in order. -/
def RowsOf (lines : List String) (examples : List Example) : Prop :=
  List.Forall₂ (fun line e => example? line = some e) (rows lines) examples

theorem rows_cons_blank (h : isBlankLine line = true) (lines : List String) :
    rows (line :: lines) = rows lines := by
  rw [rows, List.filter_cons, h]
  rfl

theorem rows_cons (h : isBlankLine line = false) (lines : List String) :
    rows (line :: lines) = line :: rows lines := by
  rw [rows, List.filter_cons, h]
  rfl

theorem ofLines_cons_blank (h : isBlankLine line = true) (path : String) (number : Nat)
    (rest : List String) :
    ofLines path number (line :: rest) = ofLines path (number + 1) rest := by
  rw [ofLines, isEmpty_trim, if_pos h]

theorem ofLines_cons_example (h : isBlankLine line = false) (he : example? line = some e)
    (path : String) (number : Nat) (rest : List String) :
    ofLines path number (line :: rest) = (ofLines path (number + 1) rest).map (e :: ·) := by
  rw [ofLines, isEmpty_trim, h, if_neg Bool.false_ne_true, he]

theorem ofLines_cons_short (h : IsShort line) (path : String) (number : Nat)
    (rest : List String) :
    ofLines path number (line :: rest) = .error ⟨[.datasetLine path number], .tooFewColumns⟩ := by
  obtain ⟨hblank, hfew⟩ := h
  rw [ofLines, isEmpty_trim, hblank, if_neg Bool.false_ne_true, example?_eq_none_iff.2 hfew]

/-- Lines with examples are passed through: their examples come first, and the lines after them
    are numbered on. -/
theorem ofLines_append (h : RowsOf front examples) (path : String) (number : Nat)
    (rest : List String) :
    ofLines path number (front ++ rest) =
      (ofLines path (number + front.length) rest).map (examples ++ ·) := by
  -- the number grows with each line that is passed, the examples only with the rows
  induction front generalizing number examples with
  | nil =>
      cases h
      cases hrest : ofLines path number rest <;> simp [hrest, Except.map]
  | cons line front ih =>
      have hnumber : number + 1 + front.length = number + (front.length + 1) := by omega
      rw [List.cons_append, List.length_cons]
      by_cases hblank : isBlankLine line = true
      · rw [RowsOf, rows_cons_blank hblank] at h
        rw [ofLines_cons_blank hblank, ih h, hnumber]
      · rw [Bool.not_eq_true] at hblank
        rw [RowsOf, rows_cons hblank, List.forall₂_cons_left_iff] at h
        obtain ⟨e, later, he, hlater, rfl⟩ := h
        rw [ofLines_cons_example hblank he, ih hlater, hnumber]
        cases ofLines path (number + (front.length + 1)) rest <;> rfl

/-- Lines without a short one have examples. -/
theorem exists_rowsOf (h : ∀ line ∈ lines, ¬ IsShort line) : ∃ examples, RowsOf lines examples := by
  induction lines with
  | nil => exact ⟨[], .nil⟩
  | cons line lines ih =>
      obtain ⟨hline, hlines⟩ := List.forall_mem_cons.1 h
      obtain ⟨examples, hexamples⟩ := ih hlines
      by_cases hblank : isBlankLine line = true
      · refine ⟨examples, ?_⟩
        rwa [RowsOf, rows_cons_blank hblank]
      · rw [Bool.not_eq_true] at hblank
        have hsome : example? line ≠ none := fun hnone =>
          hline ⟨hblank, example?_eq_none_iff.1 hnone⟩
        obtain ⟨e, he⟩ := Option.ne_none_iff_exists'.1 hsome
        refine ⟨e :: examples, ?_⟩
        rw [RowsOf, rows_cons hblank]
        exact .cons he hexamples

theorem ofLines_of_rowsOf (h : RowsOf lines examples) (path : String) (number : Nat) :
    ofLines path number lines = .ok examples := by
  have hall := ofLines_append h path number []
  rw [List.append_nil] at hall
  rw [hall, ofLines]
  simp [Except.map]

/-- The first short line ends the load, under its number. -/
theorem ofLines_short (hfront : ∀ l ∈ front, ¬ IsShort l) (hline : IsShort line) (path : String)
    (number : Nat) (rest : List String) :
    ofLines path number (front ++ line :: rest) =
      .error ⟨[.datasetLine path (number + front.length)], .tooFewColumns⟩ := by
  obtain ⟨examples, hexamples⟩ := exists_rowsOf hfront
  rw [ofLines_append hexamples, ofLines_cons_short hline]
  rfl

/-- There is no short line, or there is a first one. -/
theorem first_short (lines : List String) :
    (∀ line ∈ lines, ¬ IsShort line) ∨
      ∃ front line rest, lines = front ++ line :: rest ∧ (∀ l ∈ front, ¬ IsShort l) ∧
        IsShort line := by
  induction lines with
  | nil => exact .inl fun line hline => absurd hline List.not_mem_nil
  | cons first lines ih =>
      by_cases hfirst : IsShort first
      · exact .inr ⟨[], first, lines, rfl, fun l hl => absurd hl List.not_mem_nil, hfirst⟩
      · rcases ih with hall | ⟨front, line, rest, rfl, hfront, hline⟩
        · exact .inl (List.forall_mem_cons.2 ⟨hfirst, hall⟩)
        · exact .inr ⟨first :: front, line, rest, rfl,
            List.forall_mem_cons.2 ⟨hfirst, hfront⟩, hline⟩

theorem ofLines_eq_ok_iff : ofLines path number lines = .ok examples ↔ RowsOf lines examples := by
  constructor
  · intro h
    -- a short line would have ended the load
    rcases first_short lines with hall | ⟨front, line, rest, rfl, hfront, hline⟩
    · obtain ⟨found, hfound⟩ := exists_rowsOf hall
      rw [ofLines_of_rowsOf hfound] at h
      exact Except.ok.inj h ▸ hfound
    · rw [ofLines_short hfront hline] at h
      cases h
  · intro h
    exact ofLines_of_rowsOf h path number

/-! ## Carriage returns -/

theorem isBlankLine_append_return (line : String) :
    isBlankLine (line ++ "\r") = isBlankLine line := by
  have hreturn : "\r".toList.all Text.isBlank = true := by decide
  rw [isBlankLine, String.toList_append, List.all_append, hreturn, Bool.and_true, isBlankLine]

/-- A carriage return ends a word or a column that is not read. -/
theorem example?_append_return (line : String) : example? (line ++ "\r") = example? line := by
  have htab : '\t' ∉ "\r".toList := by decide
  obtain ⟨front, last, hline, hwhole⟩ := Text.exists_splitOn_append htab line
  have hwords : Text.words (last ++ "\r") = Text.words last := Text.words_append_return last
  rw [example?, example?, hline, hwhole]
  -- the last column changes: it is one of too few, the program, or one after the program
  rcases front with _ | ⟨id, _ | ⟨sentence, _ | ⟨program, more⟩⟩⟩
  · rfl
  · rfl
  · simp only [List.cons_append, List.nil_append, Example.ofText, Program.ofText, hwords]
  · simp only [List.cons_append]

theorem ofLines_congr {read : List String} (h : List.Forall₂ Text.ReadAs read lines) (path : String)
    (number : Nat) : ofLines path number read = ofLines path number lines := by
  induction h generalizing number with
  | nil => rfl
  | @cons line written read lines hline _ ih =>
      have hsame : isBlankLine line = isBlankLine written ∧ example? line = example? written := by
        rcases hline with rfl | rfl
        · exact ⟨rfl, rfl⟩
        · exact ⟨(isBlankLine_append_return line).symm, (example?_append_return line).symm⟩
      rw [ofLines, ofLines, isEmpty_trim, isEmpty_trim, hsame.1, hsame.2, ih]

/-- The examples in a text are those on the lines it consists of. -/
theorem ofText_of_hasLines {text : String} (h : Text.HasLines text lines) (path : String) :
    ofText path text = ofLines path 1 lines :=
  ofLines_congr h.lines path 1

/-! ## Written datasets -/

/-- The line of an example, with further columns. -/
def write (e : Example) (more : List String) : String :=
  Text.join "\t" (e.id :: Text.join " " e.sentence :: e.program.text :: more)

/-- The example can be told from its line: its id is not blank and has no tab and no line feed in
    it, and its tokens are words. -/
structure IsWritable (e : Example) : Prop extends e.Worded where
  not_blank : isBlankLine e.id = false
  no_tab : '\t' ∉ e.id.toList
  no_feed : '\n' ∉ e.id.toList

/-- Lines with the examples in order and blank lines anywhere. Columns may follow the program. -/
inductive Written : List String → List Example → Prop where
  | nil : Written [] []
  | blank {line : String} {lines : List String} {examples : List Example}
      (hblank : isBlankLine line = true) (hfeed : '\n' ∉ line.toList)
      (h : Written lines examples) : Written (line :: lines) examples
  | row {e : Example} {more lines : List String} {examples : List Example} (he : IsWritable e)
      (hmore : ∀ column ∈ more, '\t' ∉ column.toList ∧ '\n' ∉ column.toList)
      (h : Written lines examples) : Written (write e more :: lines) (e :: examples)

variable {more : List String}

/-- No column of a written example has the character in it, if its id and the further columns have
    not. -/
theorem IsWritable.not_mem_column (h : IsWritable e) {c : Char} (hc : c ≠ ' ')
    (hblank : Text.isBlank c = true) (hid : c ∉ e.id.toList)
    (hmore : ∀ column ∈ more, c ∉ column.toList) :
    ∀ column ∈ e.id :: Text.join " " e.sentence :: e.program.text :: more, c ∉ column.toList := by
  simp only [List.forall_mem_cons]
  exact ⟨hid, h.sentence.not_mem_join hc hblank, h.program.not_mem_join hc hblank, hmore⟩

theorem IsWritable.not_mem_write (h : IsWritable e)
    (hmore : ∀ column ∈ more, '\n' ∉ column.toList) : '\n' ∉ (write e more).toList := by
  intro hmem
  rcases Text.mem_join hmem with htab | ⟨column, hcolumn, hin⟩
  · exact absurd htab (by decide)
  · exact h.not_mem_column (by decide) (by decide) h.no_feed hmore column hcolumn hin

theorem IsWritable.isBlankLine_write (h : IsWritable e) (more : List String) :
    isBlankLine (write e more) = false := by
  rw [isBlankLine, write, Text.toList_join_cons, List.all_append]
  have hid : e.id.toList.all Text.isBlank = false := h.not_blank
  rw [hid, Bool.false_and]

/-- A written example is read from its line again. -/
theorem IsWritable.example?_write (h : IsWritable e)
    (hmore : ∀ column ∈ more, '\t' ∉ column.toList) : example? (write e more) = some e := by
  have hsplit : Text.splitOn '\t' (write e more) =
      e.id :: Text.join " " e.sentence :: e.program.text :: more :=
    Text.splitOn_join (List.cons_ne_nil _ _)
      (h.not_mem_column (by decide) (by decide) h.no_tab hmore)
  have hsentence : Text.words (Text.join " " e.sentence) = e.sentence := h.sentence.words_join
  have hprogram : Text.words e.program.text = e.program := h.program.words_join
  simp only [example?, hsplit, Example.ofText, Program.ofText, hsentence, hprogram]

theorem Written.free (h : Written lines examples) : ∀ line ∈ lines, '\n' ∉ line.toList := by
  induction h with
  | nil => exact fun line hline => absurd hline List.not_mem_nil
  | blank _ hfeed _ ih => exact List.forall_mem_cons.2 ⟨hfeed, ih⟩
  | row he hmore _ ih =>
      have hfeed := he.not_mem_write fun column hcolumn => (hmore column hcolumn).2
      exact List.forall_mem_cons.2 ⟨hfeed, ih⟩

theorem Written.rowsOf (h : Written lines examples) : RowsOf lines examples := by
  induction h with
  | nil => exact .nil
  | blank hblank _ _ ih => rwa [RowsOf, rows_cons_blank hblank]
  | row he hmore _ ih =>
      have hexample := he.example?_write fun column hcolumn => (hmore column hcolumn).1
      rw [RowsOf, rows_cons (he.isBlankLine_write _)]
      exact .cons hexample ih

theorem ofText_of_written {text : String} (h : Written lines examples)
    (htext : Text.IsWritten text lines) (path : String) : ofText path text = .ok examples := by
  rw [ofText_of_hasLines ⟨h.free, htext⟩]
  exact ofLines_of_rowsOf h.rowsOf path 1

/-! ## Loading -/

variable {σ : Type} {s : Session σ} {text : String}

theorem load_result (h : s.files.read path = .ok text.toUTF8) :
    ((load path).perform s).1 = ofText path text := by
  have hread := Run.perform_readText h (Text.fromUTF8?_toUTF8 text)
  unfold load
  rw [Run.perform_bind_of_ok (Run.perform_within_of_ok (.readingDataset path) hread)]
  cases ofText path text <;> rfl

end Dataset

/-! ## Predictions -/

namespace Predictions

variable {σ : Type} {s : Session σ} {path text : String} {lines : List String}

theorem ofText_of_readAs {line written : String} (h : Text.ReadAs line written) :
    Program.ofText line = Program.ofText written := by
  rcases h with rfl | rfl
  · rfl
  · exact (Text.words_append_return line).symm

theorem map_ofText_congr {read : List String} (h : List.Forall₂ Text.ReadAs read lines) :
    read.map Program.ofText = lines.map Program.ofText := by
  induction h with
  | nil => rfl
  | cons hline _ ih => rw [List.map_cons, List.map_cons, ofText_of_readAs hline, ih]

/-- There is a program on each line. -/
theorem ofText_of_hasLines (h : Text.HasLines text lines) :
    ofText text = lines.map Program.ofText :=
  map_ofText_congr h.lines

/-- Programs with a line each come back, the empty ones included. -/
theorem ofText_written {programs : List Program} (h : ∀ p ∈ programs, Text.AreWords p) :
    ofText (String.join (programs.map fun p => p.text ++ "\n")) = programs := by
  have hfree : ∀ line ∈ programs.map Program.text, '\n' ∉ line.toList :=
    List.forall_mem_map.2 fun p hp => (h p hp).not_mem_join (by decide) (by decide)
  have htext : Text.IsWritten (String.join (programs.map fun p => p.text ++ "\n"))
      (programs.map Program.text) := by
    left
    rw [List.map_map]
    rfl
  have hback : ∀ p ∈ programs, (Program.ofText ∘ Program.text) p = id p :=
    fun p hp => (h p hp).words_join
  rw [ofText_of_hasLines ⟨hfree, htext⟩, List.map_map, List.map_congr_left hback, List.map_id]

theorem load_result (h : s.files.read path = .ok text.toUTF8) :
    ((load path).perform s).1 = .ok (ofText text) := by
  have hread := Run.perform_readText h (Text.fromUTF8?_toUTF8 text)
  unfold load
  rw [Run.perform_bind_of_ok (Run.perform_within_of_ok (.readingPredictions path) hread)]
  rfl

end Predictions

/-! ## Alignment -/

/-- A scoring has a line for each prediction, with the example on the row at the same place. -/
theorem Score.score_aligned {g : ProgramGrammar} {lines predicted : List String}
    {gold : List Example} (hgold : Dataset.RowsOf lines gold) (hne : predicted ≠ [])
    (hlen : predicted.length ≤ (Dataset.rows lines).length) :
    ∃ (results : List ResultLine) (m : Metrics),
      score g gold (predicted.map Program.ofText) = .ok (results, m) ∧
      results.length = predicted.length ∧
      ∀ (k : Nat) (row line : String), (Dataset.rows lines)[k]? = some row →
        predicted[k]? = some line → ∃ e, Dataset.example? row = some e ∧
          results[k]? = some (resultLine g (e, Program.ofText line)) := by
  have hgolds : (Dataset.rows lines).length = gold.length := hgold.length_eq
  have hprograms : (predicted.map Program.ofText).length = predicted.length := List.length_map _
  have hscore := (score_eq_ok_iff (g := g)).2 ⟨(by simpa using hne :
    predicted.map Program.ofText ≠ []), (by omega : _ ≤ gold.length), rfl, rfl⟩
  refine ⟨(gold.zip (predicted.map Program.ofText)).map (resultLine g), _, hscore, ?_,
    fun k row line hrow hline => ?_⟩
  · rw [List.length_map, List.length_zip]
    omega
  · -- there is a row and a prediction at `k`, so the pair at `k` is made of these two
    obtain ⟨hk, rfl⟩ := List.getElem?_eq_some_iff.1 hrow
    have he := List.Forall₂.get hgold hk (hgolds ▸ hk)
    refine ⟨gold[k], he, ?_⟩
    have hgold : gold[k]? = some gold[k] := List.getElem?_eq_getElem (hgolds ▸ hk)
    have hprogram : (predicted.map Program.ofText)[k]? = some (Program.ofText line) := by
      rw [List.getElem?_map, hline, Option.map_some]
    have hpair : (gold.zip (predicted.map Program.ofText))[k]? =
        some (gold[k], Program.ofText line) :=
      List.getElem?_zip_eq_some.2 ⟨hgold, hprogram⟩
    rw [List.getElem?_map, hpair, Option.map_some]

theorem Dataset.message_short (path : String) (number : Nat) :
    (⟨[.datasetLine path number], .tooFewColumns⟩ : Error).message =
      path ++ ":" ++ toString number ++ ": expected at least 3 tab-separated columns" := by
  have hjoin : Text.join ": " [path ++ ":" ++ toString number, Cause.tooFewColumns.message] =
      path ++ ":" ++ toString number ++ ": " ++ Cause.tooFewColumns.message := by
    rw [Text.join, String.intercalate_cons_of_ne_nil (List.cons_ne_nil _ _),
      String.intercalate_singleton]
  have hcause : Cause.tooFewColumns.message = "expected at least 3 tab-separated columns" := rfl
  have hsep : ": " ++ "expected at least 3 tab-separated columns" =
      ": expected at least 3 tab-separated columns" := by decide
  rw [Error.message]
  refine hjoin.trans ?_
  rw [hcause, String.append_assoc, hsep]

variable {σ : Type}

/-- Datasets and predictions come back from the files they are written to, also with blank lines
    between the examples and empty programs among the predictions. Every text consists of lines.
    What is loaded of a dataset are the examples on the lines that are not blank; the first of
    them that has too few columns ends the load, and is named by its number among all lines. If
    there is none, predictions, of which there are not more than lines that are not blank, are
    judged against the examples on these lines, place by place. -/
theorem loading_restores_and_aligns :
    (∀ (s : Session σ) (path text : String) (lines : List String) (examples : List Example),
      Dataset.Written lines examples → Text.IsWritten text lines →
      s.files.read path = .ok text.toUTF8 →
      ((Dataset.load path).perform s).1 = .ok examples) ∧
    (∀ (s : Session σ) (path : String) (programs : List Program),
      (∀ p ∈ programs, Text.AreWords p) →
      s.files.read path = .ok (String.join (programs.map fun p => p.text ++ "\n")).toUTF8 →
      ((Predictions.load path).perform s).1 = .ok programs) ∧
    (∀ text : String, ∃ lines, Text.HasLines text lines) ∧
    (∀ (s : Session σ) (path text : String) (lines : List String), Text.HasLines text lines →
      s.files.read path = .ok text.toUTF8 →
      (∀ examples, ((Dataset.load path).perform s).1 = .ok examples ↔
        Dataset.RowsOf lines examples) ∧
      ∀ front line rest, lines = front ++ line :: rest → (∀ l ∈ front, ¬ Dataset.IsShort l) →
        Dataset.IsShort line → ∃ e, ((Dataset.load path).perform s).1 = .error e ∧
          e.message = path ++ ":" ++ toString (front.length + 1) ++
            ": expected at least 3 tab-separated columns") ∧
    (∀ (s s' : Session σ) (path path' text text' : String) (lines predicted : List String)
      (g : ProgramGrammar),
      Text.HasLines text lines → Text.HasLines text' predicted →
      (∀ line ∈ lines, ¬ Dataset.IsShort line) → predicted ≠ [] →
      predicted.length ≤ (Dataset.rows lines).length →
      s.files.read path = .ok text.toUTF8 → s'.files.read path' = .ok text'.toUTF8 →
      ∃ (gold : List Example) (predictions : List Program) (results : List ResultLine)
        (m : Metrics),
        ((Dataset.load path).perform s).1 = .ok gold ∧
        ((Predictions.load path').perform s').1 = .ok predictions ∧
        Score.score g gold predictions = .ok (results, m) ∧
        results.length = predicted.length ∧
        ∀ (k : Nat) (row line : String), (Dataset.rows lines)[k]? = some row →
          predicted[k]? = some line → ∃ e judged, Dataset.example? row = some e ∧
            results[k]? = some judged ∧ judged = Score.resultLine g (e, Program.ofText line) ∧
            judged.sentence = Text.join " " e.sentence ∧ judged.gold = Text.join " " e.program ∧
            judged.predicted = Text.join " " (Text.words line)) := by
  refine ⟨?dataset, ?predictions, Text.exists_hasLines, ?loaded, ?aligned⟩
  case dataset =>
    intro s path text lines examples hwritten htext hread
    rw [Dataset.load_result hread]
    exact Dataset.ofText_of_written hwritten htext path
  case predictions =>
    intro s path programs hwords hread
    rw [Predictions.load_result hread, Predictions.ofText_written hwords]
  case loaded =>
    intro s path text lines hlines hread
    rw [Dataset.load_result hread, Dataset.ofText_of_hasLines hlines]
    refine ⟨fun examples => Dataset.ofLines_eq_ok_iff, ?_⟩
    rintro front line rest rfl hfront hline
    refine ⟨_, Dataset.ofLines_short hfront hline path 1 rest, ?_⟩
    rw [Dataset.message_short, Nat.add_comm 1]
  case aligned =>
    intro s s' path path' text text' lines predicted g hlines hpredicted hall hne hlen hread hread'
    obtain ⟨gold, hgold⟩ := Dataset.exists_rowsOf hall
    obtain ⟨results, m, hscore, hlength, hjudged⟩ := Score.score_aligned (g := g) hgold hne hlen
    refine ⟨gold, predicted.map Program.ofText, results, m, ?_, ?_, hscore, hlength,
      fun k row line hrow hline => ?_⟩
    · rw [Dataset.load_result hread, Dataset.ofText_of_hasLines hlines]
      exact Dataset.ofLines_of_rowsOf hgold path 1
    · rw [Predictions.load_result hread', Predictions.ofText_of_hasLines hpredicted]
    · obtain ⟨e, he, hresult⟩ := hjudged k row line hrow hline
      exact ⟨e, _, he, hresult, rfl, rfl, rfl, rfl⟩

/-! ### A dataset with blank lines -/

/-- An example whose id has a blank in it, and one without a sentence and a program. -/
def writtenExamples : List Example :=
  [⟨"r\u00a01", ["caf\u00e9", "=>"], ["now"]⟩, ⟨"2", [], []⟩]

/-- Their lines, with blank ones around. The first example has a column more, with a carriage
    return at its end. -/
def writtenLines : List String :=
  ["\u2003\r", "r\u00a01\tcaf\u00e9 =>\tnow\tcolumn\r", "", "2\t\t", " "]

/-- The text of the lines, without a line feed at the end. -/
def writtenText : String :=
  "\u2003\r\nr\u00a01\tcaf\u00e9 =>\tnow\tcolumn\r\n\n2\t\t\n "

/-- A text with a line that is short. -/
def shortText : String := "\n2\t\t\nshort\tline\n"

/-- The files with these texts, and with an empty program before another one. -/
def writtenFiles : FileTree :=
  ((({} : FileTree).addFile ["gold.tsv"] writtenText.toUTF8 false).addFile ["short.tsv"]
    shortText.toUTF8 false).addFile ["predicted.txt"] "\nnow\n".toUTF8 false

theorem written_writtenLines : Dataset.Written writtenLines writtenExamples := by
  have hsentence : Text.AreWords ["caf\u00e9", "=>"] := by simp [Text.AreWords, Text.isBlank]
  have hprogram : Text.AreWords ["now"] := by simp [Text.AreWords, Text.isBlank]
  have hempty : Text.AreWords [] := by simp [Text.AreWords]
  have hfirst : Dataset.IsWritable ⟨"r\u00a01", ["caf\u00e9", "=>"], ["now"]⟩ :=
    ⟨⟨hsentence, hprogram⟩, by decide, by decide, by decide⟩
  have hsecond : Dataset.IsWritable ⟨"2", [], []⟩ :=
    ⟨⟨hempty, hempty⟩, by decide, by decide, by decide⟩
  have hcolumn : ∀ column ∈ ["column\r"], '\t' ∉ column.toList ∧ '\n' ∉ column.toList := by decide
  have hnone : ∀ column ∈ ([] : List String), '\t' ∉ column.toList ∧ '\n' ∉ column.toList := by
    decide
  have hlast : Dataset.Written [" "] [] := .blank (by decide) (by decide) .nil
  exact .blank (by decide) (by decide)
    (.row hfirst hcolumn (.blank (by decide) (by decide) (.row hsecond hnone hlast)))

theorem loading_restores_and_aligns_written :
    Dataset.Written writtenLines writtenExamples ∧ Text.IsWritten writtenText writtenLines ∧
    ((Dataset.load "gold.tsv").perform (.start writtenFiles .empty ())).1 = .ok writtenExamples ∧
    ((Predictions.load "predicted.txt").perform (.start writtenFiles .empty ())).1 =
      .ok [[], ["now"]] ∧
    (∃ e, ((Dataset.load "short.tsv").perform (.start writtenFiles .empty ())).1 = .error e ∧
      e.message = "short.tsv:3: expected at least 3 tab-separated columns") ∧
    ∃ results m,
      Score.score default writtenExamples [[], ["now"]] = .ok (results, m) ∧
        (∃ first, results[0]? = some first ∧ first.sentence = "caf\u00e9 =>" ∧
          first.gold = "now" ∧ first.predicted = "") ∧
        ∃ second, results[1]? = some second ∧ second.sentence = "" ∧ second.gold = "" ∧
          second.predicted = "now" := by
  have hread : ∀ {path : String} {f : File}, writtenFiles.find path = .ok (.file f) →
      writtenFiles.read path = .ok f.content := by
    intro path f hfind
    rw [FileTree.read, hfind]
    rfl
  have hgold : writtenFiles.find "gold.tsv" = .ok (.file ⟨writtenText.toUTF8, false, 0⟩) := by
    decide +kernel
  have hshort : writtenFiles.find "short.tsv" = .ok (.file ⟨shortText.toUTF8, false, 1⟩) := by
    decide +kernel
  have hpredicted : writtenFiles.find "predicted.txt" =
      .ok (.file ⟨"\nnow\n".toUTF8, false, 2⟩) := by
    decide +kernel
  obtain ⟨hdataset, hpredictions, -, hlines, haligned⟩ := loading_restores_and_aligns
  have htext : Text.IsWritten writtenText writtenLines :=
    .inr ⟨writtenLines.dropLast, " ", by decide, by decide, by decide⟩
  have hwords : ∀ p ∈ [[], ["now"]], Text.AreWords p := by
    simp [Text.AreWords, Text.isBlank]
  have hloaded := hdataset (.start writtenFiles .empty ()) "gold.tsv" writtenText writtenLines
    writtenExamples written_writtenLines htext (hread hgold)
  have hprograms := hpredictions (.start writtenFiles .empty ()) "predicted.txt" [[], ["now"]]
    hwords (hread hpredicted)
  refine ⟨written_writtenLines, htext, hloaded, hprograms, ?_, ?_⟩
  · have hshortLines : Text.HasLines shortText ["", "2\t\t", "short\tline"] :=
      ⟨by decide, .inl (by decide)⟩
    obtain ⟨-, hnamed⟩ := hlines (.start writtenFiles .empty ()) "short.tsv" shortText _
      hshortLines (hread hshort)
    obtain ⟨e, herror, hmessage⟩ := hnamed ["", "2\t\t"] "short\tline" [] rfl
      (by decide) (by decide)
    exact ⟨e, herror, hmessage.trans (by decide)⟩
  · have hall : ∀ line ∈ writtenLines, ¬ Dataset.IsShort line := by decide
    have hpredicted' : Text.HasLines "\nnow\n" ["", "now"] := ⟨by decide, .inl (by decide)⟩
    obtain ⟨gold, predictions, results, m, hload, hload', hscore, -, hjudged⟩ :=
      haligned (.start writtenFiles .empty ()) (.start writtenFiles .empty ()) "gold.tsv"
        "predicted.txt" writtenText "\nnow\n" writtenLines ["", "now"] default
        ⟨written_writtenLines.free, htext⟩ hpredicted' hall (by decide) (by decide) (hread hgold)
        (hread hpredicted)
    rw [hloaded] at hload
    rw [hprograms] at hload'
    cases hload
    cases hload'
    have hfirst : Dataset.example? "r\u00a01\tcaf\u00e9 =>\tnow\tcolumn\r" =
        some ⟨"r\u00a01", ["caf\u00e9", "=>"], ["now"]⟩ := by decide
    have hsecond : Dataset.example? "2\t\t" = some ⟨"2", [], []⟩ := by decide
    obtain ⟨e, first, he, hresult, -, hsentence, hgoldText, hprogram⟩ :=
      hjudged 0 "r\u00a01\tcaf\u00e9 =>\tnow\tcolumn\r" "" (by decide) (by decide)
    obtain ⟨e', second, he', hresult', -, hsentence', hgoldText', hprogram'⟩ :=
      hjudged 1 "2\t\t" "now" (by decide) (by decide)
    rw [hfirst] at he
    rw [hsecond] at he'
    cases he
    cases he'
    exact ⟨results, m, hscore,
      ⟨first, hresult, hsentence.trans (by decide), hgoldText.trans (by decide),
        hprogram.trans (by decide)⟩,
      second, hresult', hsentence'.trans (by decide), hgoldText'.trans (by decide),
      hprogram'.trans (by decide)⟩

end ParseBench
