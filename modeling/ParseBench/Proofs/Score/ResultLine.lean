/-
  ParseBench.Proofs.Score.ResultLine

  A result line without tabs in its texts comes back when it is read (`read_write`): its
  end is no line end, and its labels are known. The device level alone is lost. Nothing
  else is read: the fields of a line that is read are those of what it is read as
  (`fields_of_read`), so the line was written, up to the line ends after it
  (`read_eq_ok_iff`, `read_exactly_written`). The tokens of loaded examples and predictions
  are words, so the texts of a scoring have neither tabs nor line ends in them
  (`resultLine_lacks`).
-/

import ParseBench.Data.Dataset
import ParseBench.Proofs.Text.Split
import ParseBench.Score.Scoring

namespace ParseBench

/-! ## Reading what was written -/

namespace ResultLine

variable {r : ResultLine}

/-- The character is in none of the texts of the line. -/
structure Lacks (r : ResultLine) (c : Char) : Prop where
  sentence : c ∉ r.sentence.toList
  gold : c ∉ r.gold.toList
  predicted : c ∉ r.predicted.toList

/-- The characters that fields or lines end at. -/
def separators : List Char := ['\t', '\n', '\r']

theorem forall_separators {p : Char → Prop} :
    (∀ c ∈ separators, p c) ↔ p '\t' ∧ p '\n' ∧ p '\r' := by
  simp [separators]

theorem readVerdict_verdict (ok : Bool) : readVerdict (verdict ok) = .ok ok := by
  cases ok <;> rfl

/-- Neither of the two words begins with the other. -/
theorem dropLead?_incorrect (name : String) :
    Text.dropLead? "Incorrect" ("Correct" ++ name) = none := by
  refine Option.eq_none_iff_forall_ne_some.2 fun rest h => ?_
  have hlist := congrArg String.toList (Text.dropLead?_eq_some_iff.1 h)
  rw [String.toList_append, String.toList_append] at hlist
  exact absurd (List.head_eq_of_cons_eq hlist) (by decide)

theorem startsWith_correct (name : String) :
    Text.startsWith ("Incorrect" ++ name) "Correct" = false := by
  refine Bool.eq_false_iff.2 fun h => ?_
  obtain ⟨rest, hrest⟩ := Text.startsWith_iff.1 h
  rw [String.toList_append] at hrest
  exact absurd (List.head_eq_of_cons_eq hrest) (by decide)

theorem readLabel_label (ok : Bool) (name : String) : readLabel (label ok name) name = .ok ok := by
  unfold readLabel
  cases ok with
  | true =>
      rw [label, if_pos rfl, dropLead?_incorrect, Option.none_or,
        Text.dropLead?_eq_some_iff.2 rfl]
      dsimp only
      rw [if_pos rfl, Text.startsWith_append]
  | false =>
      rw [label, if_neg Bool.false_ne_true, Text.dropLead?_eq_some_iff.2 rfl, Option.some_or]
      dsimp only
      rw [if_pos rfl, startsWith_correct]

theorem not_mem_label {c : Char} (hc : c ∈ separators) {name : String} (h : c ∉ name.toList)
    (ok : Bool) : c ∉ (label ok name).toList := by
  have hfronts : ∀ ok : Bool, ∀ c ∈ separators,
      c ∉ (if ok then "Correct" else "Incorrect").toList :=
    fun ok => forall_separators.2 (by cases ok <;> decide)
  rw [label, String.toList_append, List.mem_append]
  rintro (hfront | hname)
  · exact hfronts ok c hc hfront
  · exact h hname

theorem Lacks.fields {c : Char} (hc : c ∈ separators) (h : r.Lacks c) :
    ∀ field ∈ r.fields, c ∉ field.toList := by
  have hverdict : ∀ ok, ∀ c ∈ separators, c ∉ (verdict ok).toList :=
    fun ok => forall_separators.2 (by cases ok <;> decide)
  have hnames : ∀ c ∈ separators, ∀ name ∈ ["Grammar", "Function", "NumFunction", "Signature"],
      c ∉ name.toList := forall_separators.2 (by decide)
  have hlabel : ∀ name ∈ ["Grammar", "Function", "NumFunction", "Signature"], ∀ ok,
      c ∉ (label ok name).toList :=
    fun name hname ok => not_mem_label hc (hnames c hc name hname) ok
  simp only [ResultLine.fields, List.forall_mem_cons]
  exact ⟨h.sentence, h.gold, h.predicted, hverdict _ c hc, hlabel _ (by simp) _,
    hlabel _ (by simp) _, hlabel _ (by simp) _, hlabel _ (by simp) _,
    fun _ hnil => absurd hnil List.not_mem_nil⟩

/-- A line without line ends in its texts has none in it. -/
theorem Lacks.write {c : Char} (hc : c ∈ separators) (htab : c ≠ '\t') (h : r.Lacks c) :
    c ∉ r.write.toList := by
  intro hmem
  rcases Text.mem_join hmem with hsep | ⟨field, hfield, hin⟩
  · exact htab (List.mem_singleton.1 hsep)
  · exact h.fields hc field hfield hin

/-- A line ends with the name of its last label. -/
theorem exists_write_eq (r : ResultLine) : ∃ front, r.write = front ++ "Signature" := by
  refine ⟨Text.join "\t" [r.sentence, r.gold, r.predicted, verdict r.outcome.full,
    label r.outcome.grammar "Grammar", label r.outcome.function "Function",
    label r.outcome.functionCount "NumFunction"] ++ "\t" ++
      (if r.outcome.signature then "Correct" else "Incorrect"), ?_⟩
  have hlast := String.intercalate_append_of_ne_nil (s := "\t")
    (l := [r.sentence, r.gold, r.predicted, verdict r.outcome.full,
      label r.outcome.grammar "Grammar", label r.outcome.function "Function",
      label r.outcome.functionCount "NumFunction"])
    (m := [label r.outcome.signature "Signature"]) (by simp) (by simp)
  rw [write, Text.join, ResultLine.fields]
  refine hlast.trans ?_
  rw [String.intercalate_singleton, label, String.append_assoc, String.append_assoc,
    String.append_assoc]
  rfl

theorem dropLineEnd_write (r : ResultLine) : dropLineEnd r.write = r.write := by
  obtain ⟨front, hfront⟩ := exists_write_eq r
  have hend : "Signature".toList.reverse = 'e' :: "Signatur".toList.reverse := by decide
  rw [dropLineEnd, Text.trimRightWhere, hfront, String.toList_append, List.reverse_append, hend,
    List.cons_append, List.dropWhile_cons_of_neg (by decide), ← List.cons_append, ← hend,
    ← List.reverse_append, List.reverse_reverse, ← String.toList_append, String.ofList_toList]

/-- A written line is read back, with the device level as failed. -/
theorem read_write (h : r.Lacks '\t') :
    read r.write = .ok { r with outcome := { r.outcome with device := false } } := by
  have hsplit : Text.splitOn '\t' r.write = r.fields :=
    Text.splitOn_join (List.cons_ne_nil _ _) (h.fields (by decide))
  simp only [read, dropLineEnd_write, hsplit, ResultLine.fields, readVerdict_verdict,
    readLabel_label]
  rfl

/-! ## What is read -/

theorem eq_verdict_of_readVerdict {field : String} {ok : Bool} (h : readVerdict field = .ok ok) :
    field = verdict ok := by
  unfold readVerdict at h
  split at h
  · next hyes =>
      cases h
      exact hyes
  · split at h
    · next hno =>
        cases h
        exact hno
    · cases h

/-- A label is a field with one of the two words before its name. -/
theorem exists_label_of_readLabel {field name : String} {ok : Bool}
    (h : readLabel field name = .ok ok) : ∃ ok', field = label ok' name := by
  unfold readLabel at h
  split at h
  · next rest hrest =>
      split at h
      · next hname =>
          subst hname
          rcases Option.or_eq_some_iff.1 hrest with hdrop | ⟨-, hdrop⟩
          · exact ⟨false, Text.dropLead?_eq_some_iff.1 hdrop⟩
          · exact ⟨true, Text.dropLead?_eq_some_iff.1 hdrop⟩
      · cases h
  · cases h

theorem eq_label_of_readLabel {field name : String} {ok : Bool}
    (h : readLabel field name = .ok ok) : field = label ok name := by
  obtain ⟨ok', rfl⟩ := exists_label_of_readLabel h
  rw [readLabel_label] at h
  cases h
  rfl

theorem exists_of_bind_eq_ok {ε α β : Type} {x : Except ε α} {f : α → Except ε β} {b : β}
    (h : (x >>= f) = .ok b) : ∃ a, x = .ok a ∧ f a = .ok b := by
  cases x with
  | error e => cases h
  | ok a => exact ⟨a, rfl, h⟩

/-- The fields of a line that is read are written as the ones it is read as. -/
theorem fields_of_read {line : String} (h : read line = .ok r) :
    Text.splitOn '\t' (dropLineEnd line) = r.fields ∧ r.outcome.device = false := by
  unfold read at h
  split at h
  · next sentence gold predicted full grammar function functionCount signature hsplit =>
      obtain ⟨ok, hfull, h⟩ := exists_of_bind_eq_ok h
      obtain ⟨okGrammar, hgrammar, h⟩ := exists_of_bind_eq_ok h
      obtain ⟨okFunction, hfunction, h⟩ := exists_of_bind_eq_ok h
      obtain ⟨okCount, hcount, h⟩ := exists_of_bind_eq_ok h
      obtain ⟨okSignature, hsignature, h⟩ := exists_of_bind_eq_ok h
      cases h
      rw [hsplit, fields, eq_verdict_of_readVerdict hfull, eq_label_of_readLabel hgrammar,
        eq_label_of_readLabel hfunction, eq_label_of_readLabel hcount,
        eq_label_of_readLabel hsignature]
      exact ⟨rfl, rfl⟩
  · cases h

/-- A text of line feeds and carriage returns only. -/
def IsLineEnds (s : String) : Prop :=
  ∀ c ∈ s.toList, c = '\r' ∨ c = '\n'

theorem exists_dropLineEnd_append (line : String) :
    ∃ ends, IsLineEnds ends ∧ line = dropLineEnd line ++ ends := by
  obtain ⟨back, hback, hline⟩ :=
    Text.exists_trimRightWhere_append (fun c => c == '\r' || c == '\n') line.toList
  refine ⟨String.ofList back, fun c hc => ?_, ?_⟩
  · rw [String.toList_ofList] at hc
    simpa using hback c hc
  · rw [dropLineEnd, ← String.ofList_append, ← hline, String.ofList_toList]

theorem dropLineEnd_append {line ends : String} (h : IsLineEnds ends) :
    dropLineEnd (line ++ ends) = dropLineEnd line := by
  rw [dropLineEnd, String.toList_append, Text.trimRightWhere_append, dropLineEnd]
  intro c hc
  simpa using h c hc

/-- A line is read as what it was written from, whatever line ends stand after it. -/
theorem read_eq_ok_iff {line : String} :
    read line = .ok r ↔
      r.Lacks '\t' ∧ r.outcome.device = false ∧
        ∃ ends, IsLineEnds ends ∧ line = r.write ++ ends := by
  constructor
  · intro h
    obtain ⟨hsplit, hdevice⟩ := fields_of_read h
    obtain ⟨hline, htabs⟩ := (Text.splitOn_eq_iff (List.cons_ne_nil _ _)).1 hsplit
    obtain ⟨ends, hends, hdrop⟩ := exists_dropLineEnd_append line
    have hlacks : r.Lacks '\t' :=
      ⟨htabs r.sentence (by simp), htabs r.gold (by simp), htabs r.predicted (by simp)⟩
    exact ⟨hlacks, hdevice, ends, hends, hdrop.trans (congrArg (· ++ ends) hline)⟩
  · rintro ⟨hlacks, hdevice, ends, hends, rfl⟩
    have hsame : read (r.write ++ ends) = read r.write := by
      unfold read
      rw [dropLineEnd_append hends]
    rw [hsame, read_write hlacks, ← hdevice]

/-- Reading undoes writing up to the device level, writing undoes reading up to the line ends,
    and nothing but written lines is read. -/
theorem read_exactly_written :
    (∀ r : ResultLine, r.Lacks '\t' →
      read r.write = .ok { r with outcome := { r.outcome with device := false } }) ∧
    (∀ (line : String) (r : ResultLine), read line = .ok r → r.write = dropLineEnd line) ∧
    ∀ line : String, (∃ r, read line = .ok r) ↔
      ∃ (r : ResultLine) (ends : String), r.Lacks '\t' ∧ IsLineEnds ends ∧
        line = r.write ++ ends := by
  refine ⟨fun r => read_write, fun line r h => ?_, fun line => ⟨?_, ?_⟩⟩
  · obtain ⟨-, -, ends, hends, rfl⟩ := read_eq_ok_iff.1 h
    rw [dropLineEnd_append hends, dropLineEnd_write]
  · rintro ⟨r, h⟩
    obtain ⟨hlacks, -, ends, hends, hline⟩ := read_eq_ok_iff.1 h
    exact ⟨r, ends, hlacks, hends, hline⟩
  · rintro ⟨r, ends, hlacks, hends, rfl⟩
    -- the device level is not written, so the line is also that of `r` without it
    refine ⟨{ r with outcome := { r.outcome with device := false } }, read_eq_ok_iff.2 ?_⟩
    exact ⟨⟨hlacks.sentence, hlacks.gold, hlacks.predicted⟩, rfl, ends, hends, rfl⟩

/-- A line with line ends in its texts. -/
def brokenLine : ResultLine :=
  ⟨"add\rtwo\n", "one plus one\r", "", { grammar := true, device := true }⟩

theorem read_exactly_written_broken :
    brokenLine.Lacks '\t' ∧
    brokenLine.write = "add\rtwo\n\tone plus one\r\t\tFalse\tCorrectGrammar" ++
      "\tIncorrectFunction\tIncorrectNumFunction\tIncorrectSignature" ∧
    read brokenLine.write = .ok { brokenLine with outcome := { grammar := true } } ∧
    ∃ r, read (brokenLine.write ++ "\r\n\n") = .ok r ∧
      r.write = dropLineEnd (brokenLine.write ++ "\r\n\n") := by
  obtain ⟨hback, hwrite, haccepted⟩ := read_exactly_written
  have hlacks : brokenLine.Lacks '\t' := ⟨by decide, by decide, by decide⟩
  obtain ⟨r, hr⟩ := (haccepted (brokenLine.write ++ "\r\n\n")).2
    ⟨brokenLine, "\r\n\n", hlacks, fun c hc => by simpa using hc, rfl⟩
  exact ⟨hlacks, by decide +kernel, hback brokenLine hlacks, r, hr, hwrite _ r hr⟩

end ResultLine

/-! ## Loaded examples -/

/-- Sentence and program of an example are lists of words. -/
structure Example.Worded (e : Example) : Prop where
  sentence : Text.AreWords e.sentence
  program : Text.AreWords e.program

theorem Dataset.worded_of_ofLines {path : String} {number : Nat} {lines : List String}
    {examples : List Example} (h : ofLines path number lines = .ok examples) :
    ∀ e ∈ examples, e.Worded := by
  induction lines generalizing number examples with
  | nil =>
      cases h
      exact fun e he => absurd he List.not_mem_nil
  | cons line lines ih =>
      unfold ofLines at h
      split at h
      · exact ih h
      · split at h
        · cases h
        · next first hfirst =>
            cases hrest : ofLines path (number + 1) lines with
            | error e =>
                rw [hrest] at h
                cases h
            | ok rest =>
                rw [hrest] at h
                cases h
                refine List.forall_mem_cons.2 ⟨?_, ih hrest⟩
                unfold example? at hfirst
                split at hfirst
                · cases hfirst
                  exact ⟨Text.areWords_words _, Text.areWords_words _⟩
                · cases hfirst

theorem Dataset.worded_of_ofText {path text : String} {examples : List Example}
    (h : ofText path text = .ok examples) : ∀ e ∈ examples, e.Worded :=
  worded_of_ofLines h

theorem Predictions.areWords_of_mem {text : String} {p : Program}
    (h : p ∈ ofText text) : Text.AreWords p := by
  obtain ⟨line, -, rfl⟩ := List.mem_map.1 h
  exact Text.areWords_words line

/-! ## The lines of a scoring -/

namespace Score

variable {g : ProgramGrammar} {gold : List Example} {predictions : List Program}

/-- A scoring has something to score, and a gold example for each prediction. -/
theorem score_eq_ok_iff {lines : List ResultLine} {m : Metrics} :
    score g gold predictions = .ok (lines, m) ↔
      predictions ≠ [] ∧ predictions.length ≤ gold.length ∧
        lines = (gold.zip predictions).map (resultLine g) ∧
        m = metrics g gold (gold.zip predictions) := by
  unfold score
  split
  · next hnil => simp [List.isEmpty_iff.1 hnil]
  · next hne =>
      rw [List.isEmpty_iff] at hne
      split
      · next hlt => simp [Nat.not_le.2 hlt]
      · next hle => simp [hne, Nat.le_of_not_lt hle, eq_comm]

/-- A scoring that succeeds has a line for each prediction. -/
theorem score_eq_ok {lines : List ResultLine} {m : Metrics}
    (h : score g gold predictions = .ok (lines, m)) :
    predictions.length ≤ gold.length ∧ lines = (gold.zip predictions).map (resultLine g) := by
  obtain ⟨-, hlen, hlines, -⟩ := score_eq_ok_iff.1 h
  exact ⟨hlen, hlines⟩

variable {pair : Pair}

/-- Joined words have no separators in them. -/
theorem resultLine_lacks (he : pair.1.Worded) (hp : Text.AreWords pair.2) {c : Char}
    (hc : c ∈ ResultLine.separators) : (resultLine g pair).Lacks c := by
  have hblank : ∀ c ∈ ResultLine.separators, c ≠ ' ' ∧ Text.isBlank c = true :=
    ResultLine.forall_separators.2 (by decide)
  obtain ⟨hspace, hblank⟩ := hblank c hc
  exact ⟨he.sentence.not_mem_join hspace hblank, he.program.not_mem_join hspace hblank,
    hp.not_mem_join hspace hblank⟩

end Score

end ParseBench
