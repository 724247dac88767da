/-
  ParseBench.Proofs.Score.Levels

  The levels of an outcome from the strictest to the weakest. The functions of a program are
  a part of its signature (`functions_eq_filter_signature`), so a prediction that passes a
  level passes the weaker ones (`judge_graded`), and among the lines of a scoring a weaker
  level is passed at least as often (`share_le`). Program recall counts different programs,
  those that were predicted exactly among the gold programs (`Recalls`): there are no more of
  the former than lines with equal programs (`exists_recalls`).
-/

import Mathlib.Algebra.Order.Field.Rat
import Mathlib.Algebra.Order.Ring.Cast
import Mathlib.Data.Finset.Card
import ParseBench.Proofs.Score.ResultLine

namespace ParseBench

/-! ## One prediction -/

theorem Program.functions_eq_filter_signature (p : Program) :
    p.functions = p.signature.filter isFunction := by
  rw [functions, signature, List.filter_filter]
  congr 1
  funext token
  cases isFunction token <;> rfl

namespace Outcome

/-- Every level that is passed is passed together with the weaker ones. -/
structure Graded (o : Outcome) : Prop where
  device_of_full : o.full = true → o.device = true
  signature_of_full : o.full = true → o.signature = true
  function_of_signature : o.signature = true → o.function = true
  functionCount_of_function : o.function = true → o.functionCount = true
  grammar_of_functionCount : o.functionCount = true → o.grammar = true
  grammar_of_device : o.device = true → o.grammar = true

/-- An outcome is graded if only equal programs count as equivalent. -/
theorem judge_graded {gold decoded : Program} {same : Bool} (h : same = true → gold = decoded) :
    (judge gold decoded same).Graded := by
  unfold judge
  split
  · -- an empty program passes no level, so there is nothing to show
    exact ⟨id, id, id, id, id, id⟩
  · constructor
    case device_of_full => exact fun hsame => by simp [h hsame]
    case signature_of_full => exact fun hsame => by simp [h hsame]
    case function_of_signature =>
      intro hsignature
      have hsame : gold.signature = decoded.signature := eq_of_beq hsignature
      simp [Program.functions_eq_filter_signature, hsame]
    case functionCount_of_function =>
      intro hfunction
      have hsame : gold.functions = decoded.functions := eq_of_beq hfunction
      simp [hsame]
    case grammar_of_functionCount => exact fun _ => rfl
    case grammar_of_device => exact fun _ => rfl

end Outcome

/-! ## Fractions of all lines -/

/-- The ratio as a rational number. -/
def Ratio.fraction (r : Ratio) : ℚ :=
  r.count / r.total

theorem Ratio.fraction_le {a b n : Nat} (h : a ≤ b) :
    (Ratio.mk a n).fraction ≤ (Ratio.mk b n).fraction := by
  unfold fraction
  apply div_le_div_of_nonneg_right
  · exact Int.cast_le.2 (Int.ofNat_le.2 h)
  · exact Int.cast_nonneg (Int.natCast_nonneg n)

namespace ResultLine

variable {lines : List ResultLine}

/-- The lines that pass a level, among all lines. -/
def share (level : Outcome → Bool) (lines : List ResultLine) : Ratio :=
  ⟨lines.countP fun line => level line.outcome, lines.length⟩

theorem share_le {strict weak : Outcome → Bool}
    (h : ∀ line ∈ lines, strict line.outcome = true → weak line.outcome = true) :
    (share strict lines).fraction ≤ (share weak lines).fraction :=
  Ratio.fraction_le (List.countP_mono_left h)

theorem share_le_one (level : Outcome → Bool) (lines : List ResultLine) :
    (share level lines).fraction ≤ 1 := by
  have hall : (share level lines).fraction ≤ (Ratio.mk lines.length lines.length).fraction :=
    Ratio.fraction_le List.countP_le_length
  exact hall.trans (div_self_le_one _)

end ResultLine

namespace Metrics

open ResultLine

/-- The accuracies are shares of the lines. -/
structure Counts (m : Metrics) (lines : List ResultLine) : Prop where
  grammar : m.grammarAccuracy = share Outcome.grammar lines
  full : m.accuracy = share Outcome.full lines
  functionCount : m.functionCountAccuracy = share Outcome.functionCount lines
  device : m.deviceAccuracy = share Outcome.device lines
  function : m.functionAccuracy = share Outcome.function lines
  signature : m.signatureAccuracy = share Outcome.signature lines

/-- The stricter the level, the smaller the accuracy. -/
structure Ordered (m : Metrics) : Prop where
  full_le_signature : m.accuracy.fraction ≤ m.signatureAccuracy.fraction
  signature_le_function : m.signatureAccuracy.fraction ≤ m.functionAccuracy.fraction
  function_le_functionCount : m.functionAccuracy.fraction ≤ m.functionCountAccuracy.fraction
  functionCount_le_grammar : m.functionCountAccuracy.fraction ≤ m.grammarAccuracy.fraction
  full_le_device : m.accuracy.fraction ≤ m.deviceAccuracy.fraction
  device_le_grammar : m.deviceAccuracy.fraction ≤ m.grammarAccuracy.fraction
  grammar_le_one : m.grammarAccuracy.fraction ≤ 1

theorem Counts.ordered {m : Metrics} {lines : List ResultLine} (h : m.Counts lines)
    (hgraded : ∀ line ∈ lines, line.outcome.Graded) : m.Ordered := by
  have hle : ∀ {strict weak : Outcome → Bool},
      (∀ o : Outcome, o.Graded → strict o = true → weak o = true) →
        (share strict lines).fraction ≤ (share weak lines).fraction :=
    fun hlevels => share_le fun line hline => hlevels line.outcome (hgraded line hline)
  constructor <;>
    simp only [h.grammar, h.full, h.functionCount, h.device, h.function, h.signature]
  case full_le_signature => exact hle fun _ ho => ho.signature_of_full
  case signature_le_function => exact hle fun _ ho => ho.function_of_signature
  case function_le_functionCount => exact hle fun _ ho => ho.functionCount_of_function
  case functionCount_le_grammar => exact hle fun _ ho => ho.grammar_of_functionCount
  case full_le_device => exact hle fun _ ho => ho.device_of_full
  case device_le_grammar => exact hle fun _ ho => ho.grammar_of_device
  case grammar_le_one => exact share_le_one _ _

theorem Counts.total_pos {m : Metrics} {lines : List ResultLine} (h : m.Counts lines)
    (hlines : lines ≠ []) (hrecall : 0 < m.programRecall.total) :
    ∀ entry ∈ m.entries, 0 < entry.2.total := by
  have htotal : ∀ level, 0 < (share level lines).total :=
    fun _ => Int.natCast_pos.2 (List.length_pos_of_ne_nil hlines)
  simp only [entries, List.forall_mem_cons, h.grammar, h.full, h.functionCount, h.device,
    h.function, h.signature]
  exact ⟨htotal _, htotal _, htotal _, htotal _, htotal _, htotal _, hrecall,
    fun _ hnil => absurd hnil List.not_mem_nil⟩

end Metrics

/-! ## Different programs -/

section Distinct

variable {α : Type} [BEq α] [LawfulBEq α]

/-- Induction on the length, since what remains after the first element is filtered. -/
theorem nodup_eraseDups : ∀ l : List α, l.eraseDups.Nodup
  | [] => List.nodup_nil
  | a :: l => by
      rw [List.eraseDups_cons, List.nodup_cons]
      refine ⟨?_, nodup_eraseDups _⟩
      simp
termination_by l => l.length
decreasing_by exact Nat.lt_succ_of_le (List.length_filter_le _ _)

theorem length_eraseDups [DecidableEq α] (l : List α) : l.eraseDups.length = l.toFinset.card := by
  rw [← List.toFinset_card_of_nodup (nodup_eraseDups l)]
  congr 1
  ext a
  simp

end Distinct

namespace Score

variable {g : ProgramGrammar} {gold : List Example} {predictions : List Program}
variable {pairs : List Pair} {pair : Pair}

theorem full_outcome_iff :
    (outcome g pair).full = true ↔ pair.2 ≠ [] ∧ pair.1.program = pair.2 := by
  unfold outcome Outcome.judge
  split
  · next hempty => simp [List.isEmpty_iff.1 hempty]
  · next hne => simp [ProgramGrammar.compare]

theorem outcome_graded : (outcome g pair).Graded := by
  apply Outcome.judge_graded
  intro hsame
  simpa [ProgramGrammar.compare] using (Bool.and_eq_true_iff.1 hsame).2

theorem metrics_counts (g : ProgramGrammar) (gold : List Example) (pairs : List Pair) :
    (metrics g gold pairs).Counts (pairs.map (resultLine g)) := by
  have hshare : ∀ level : Outcome → Bool,
      (⟨passing level (pairs.map (outcome g)), pairs.length⟩ : Ratio) =
        ResultLine.share level (pairs.map (resultLine g)) := by
    intro level
    rw [passing, ResultLine.share, List.countP_map, List.countP_map, List.length_map]
    rfl
  exact ⟨hshare _, hshare _, hshare _, hshare _, hshare _, hshare _⟩

/-- The programs that were predicted exactly, each as often as that happened. -/
theorem mem_exactPrograms {p : Program} :
    p ∈ (pairs.filter fun pair => (outcome g pair).full).map (·.2) ↔
      p ≠ [] ∧ ∃ pair ∈ pairs, pair.1.program = p ∧ pair.2 = p := by
  rw [List.mem_map]
  constructor
  · rintro ⟨pair, hpair, rfl⟩
    obtain ⟨hmem, hfull⟩ := List.mem_filter.1 hpair
    obtain ⟨hne, hsame⟩ := full_outcome_iff.1 hfull
    exact ⟨hne, pair, hmem, hsame, rfl⟩
  · rintro ⟨hne, pair, hmem, hgold, rfl⟩
    exact ⟨pair, List.mem_filter.2 ⟨hmem, full_outcome_iff.2 ⟨hne, hgold⟩⟩, rfl⟩

theorem mem_zip_iff {e : Example} {p : Program} :
    (e, p) ∈ gold.zip predictions ↔
      ∃ k : Nat, gold[k]? = some e ∧ predictions[k]? = some p := by
  simp only [List.mem_iff_getElem?, List.getElem?_zip_eq_some]

/-- Recall is the share of the programs in `exact` among those in `distinct`: the programs that
    were predicted exactly, and the gold programs. -/
structure Recalls (m : Metrics) (gold : List Example) (predictions : List Program)
    (exact distinct : Finset Program) : Prop where
  ratio : m.programRecall = ⟨exact.card, distinct.card⟩
  mem_exact : ∀ p, p ∈ exact ↔ p ≠ [] ∧
    ∃ (k : Nat) (e : Example), gold[k]? = some e ∧ predictions[k]? = some p ∧ e.program = p
  mem_distinct : ∀ p, p ∈ distinct ↔ ∃ e ∈ gold, e.program = p

theorem Recalls.subset {m : Metrics} {exact distinct : Finset Program}
    (h : Recalls m gold predictions exact distinct) : exact ⊆ distinct := by
  intro p hp
  obtain ⟨-, k, e, he, -, hsame⟩ := (h.mem_exact p).1 hp
  exact (h.mem_distinct p).2 ⟨e, List.mem_of_getElem? he, hsame⟩

theorem Recalls.total_pos {m : Metrics} {exact distinct : Finset Program}
    (h : Recalls m gold predictions exact distinct) (hgold : gold ≠ []) :
    0 < m.programRecall.total := by
  obtain ⟨e, he⟩ := List.exists_mem_of_ne_nil gold hgold
  rw [h.ratio]
  exact Int.natCast_pos.2 (Finset.card_pos.2 ⟨_, (h.mem_distinct _).2 ⟨e, he, rfl⟩⟩)

/-- A program that was predicted exactly counts once, however many lines show it. -/
theorem exists_recalls (g : ProgramGrammar) (gold : List Example) (predictions : List Program) :
    ∃ exact distinct,
      Recalls (metrics g gold (gold.zip predictions)) gold predictions exact distinct ∧
      exact.card ≤
        ((gold.zip predictions).map (resultLine g)).countP fun line => line.outcome.full := by
  let hits := ((gold.zip predictions).filter fun pair => (outcome g pair).full).map (·.2)
  refine ⟨hits.toFinset, (gold.map Example.program).toFinset, ⟨?_, fun p => ?_, fun p => ?_⟩, ?_⟩
  · -- both numbers are lengths of lists without their repetitions
    rw [← length_eraseDups, ← length_eraseDups]
    rfl
  · rw [List.mem_toFinset, mem_exactPrograms]
    simp only [Prod.exists, mem_zip_iff]
    constructor
    · rintro ⟨hne, e, q, ⟨k, he, hq⟩, hsame, rfl⟩
      exact ⟨hne, k, e, he, hq, hsame⟩
    · rintro ⟨hne, k, e, he, hp, hsame⟩
      exact ⟨hne, e, p, ⟨k, he, hp⟩, hsame, rfl⟩
  · rw [List.mem_toFinset, List.mem_map]
  · calc hits.toFinset.card
        ≤ hits.length := List.toFinset_card_le hits
      _ = (gold.zip predictions).countP fun pair => (outcome g pair).full := by
          rw [List.length_map, List.countP_eq_length_filter]
      _ = _ := by
          rw [List.countP_map]
          rfl

/-- A scoring judges the predictions one by one; the levels are passed in their order, so
    the accuracies stand in theirs. Recall is the share of the gold programs that were predicted
    exactly, each counted once. No ratio has a total of zero. -/
theorem score_levels {lines : List ResultLine} {m : Metrics}
    (h : score g gold predictions = .ok (lines, m)) :
    lines.length = predictions.length ∧
    (∀ (k : Nat) (line : ResultLine), lines[k]? = some line →
      ∃ (e : Example) (p : Program), gold[k]? = some e ∧ predictions[k]? = some p ∧
        line = resultLine g (e, p) ∧ (line.outcome.full = true ↔ p ≠ [] ∧ e.program = p)) ∧
    (∀ line ∈ lines, line.outcome.Graded) ∧ m.Counts lines ∧ m.Ordered ∧
    (∃ exact distinct, Recalls m gold predictions exact distinct ∧ exact ⊆ distinct ∧
      exact.card ≤ lines.countP fun line => line.outcome.full) ∧
    ∀ entry ∈ m.entries, 0 < entry.2.total := by
  obtain ⟨hne, hlen, rfl, rfl⟩ := score_eq_ok_iff.1 h
  have hlength : ((gold.zip predictions).map (resultLine g)).length = predictions.length := by
    rw [List.length_map, List.length_zip, Nat.min_eq_right hlen]
  have hpos := List.length_pos_of_ne_nil hne
  have hlines : (gold.zip predictions).map (resultLine g) ≠ [] :=
    List.ne_nil_of_length_pos (by omega)
  have hgold : gold ≠ [] := List.ne_nil_of_length_pos (by omega)
  have hgraded : ∀ line ∈ (gold.zip predictions).map (resultLine g), line.outcome.Graded :=
    List.forall_mem_map.2 fun _ _ => outcome_graded
  have hcounts := metrics_counts g gold (gold.zip predictions)
  obtain ⟨exact, distinct, hrecalls, hcard⟩ := exists_recalls g gold predictions
  refine ⟨hlength, fun k line hline => ?_, hgraded, hcounts, hcounts.ordered hgraded,
    ⟨exact, distinct, hrecalls, hrecalls.subset, hcard⟩,
    hcounts.total_pos hlines (hrecalls.total_pos hgold)⟩
  rw [List.getElem?_map, Option.map_eq_some_iff] at hline
  obtain ⟨⟨e, p⟩, hpair, rfl⟩ := hline
  obtain ⟨hexample, hprediction⟩ := List.getElem?_zip_eq_some.1 hpair
  exact ⟨e, p, hexample, hprediction, rfl, full_outcome_iff⟩

/-! ## Comics and tweets -/

/-- Two examples with one program, and an example with another. -/
def comicsGold : List Example :=
  [⟨"1", ["search", "twitter"], ["@twitter.search", "notify"]⟩,
    ⟨"2", ["look", "for", "tweets"], ["@twitter.search", "notify"]⟩,
    ⟨"3", ["get", "a", "comic"], ["@xkcd.get_comic", "notify"]⟩]

/-- The gold program, the gold program with another keyword, and nothing. -/
def comicsPredictions : List Program :=
  [["@twitter.search", "notify"], ["@twitter.search", "monitor"], []]

theorem score_levels_comics :
    ∃ lines m, score default comicsGold comicsPredictions = .ok (lines, m) ∧ lines.length = 3 ∧
      (∀ line ∈ lines, line.outcome.Graded) ∧ m.Ordered ∧ m.accuracy = ⟨1, 3⟩ ∧
      m.signatureAccuracy = ⟨1, 3⟩ ∧ m.functionAccuracy = ⟨2, 3⟩ ∧ m.programRecall = ⟨1, 2⟩ := by
  have hscore : score default comicsGold comicsPredictions =
      .ok (_, metrics default comicsGold (comicsGold.zip comicsPredictions)) := rfl
  obtain ⟨hlength, -, hgraded, -, hordered, -, -⟩ := score_levels hscore
  exact ⟨_, _, hscore, hlength, hgraded, hordered, by decide +kernel, by decide +kernel,
    by decide +kernel, by decide +kernel⟩

end Score

end ParseBench
