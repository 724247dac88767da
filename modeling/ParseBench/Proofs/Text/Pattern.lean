/-
  ParseBench.Proofs.Text.Pattern

  What patterns over bytes match. A pattern stands for a set of texts (`Holds`), and it
  leads from one place of a text to another if what lies between them is one of these
  (`Leads`). The places that are marked in the end are those that some marked place leads to
  (`getElem?_reach`), so matching decides the set (`isMatch_iff`), and the simplifications
  made while a pattern is built change nothing (`holds_thenMatch`).
-/

import Mathlib.Data.List.Basic
import ParseBench.Text.Pattern

namespace ParseBench.Text.Pattern

variable {p q : Pattern} {text s : List UInt8} {marks : List Bool} {i j k : Nat}

/-! ## Meaning -/

/-- Is this a text that the pattern stands for? -/
def Holds : Pattern → List UInt8 → Prop
  | never, _ => False
  | empty, s => s = []
  | byte negated ranges, s => ∃ b, s = [b] ∧ hasByte negated ranges b = true
  | anyText, _ => True
  | sequence p q, s => ∃ front back, s = front ++ back ∧ p.Holds front ∧ q.Holds back
  | either p q, s => p.Holds s ∨ q.Holds s

/-- Does the pattern stand for what lies between two places of a text? -/
def Leads (p : Pattern) (text : List UInt8) (i j : Nat) : Prop :=
  ∃ front piece back, text = front ++ (piece ++ back) ∧ front.length = i ∧
    front.length + piece.length = j ∧ p.Holds piece

theorem Leads.le (h : p.Leads text i j) : j ≤ text.length := by
  obtain ⟨front, piece, back, rfl, rfl, rfl, -⟩ := h
  simp only [List.length_append]
  omega

theorem not_leads_never : ¬ never.Leads text i j := by
  rintro ⟨_, _, _, -, -, -, hnever⟩
  exact hnever

theorem leads_empty_iff : empty.Leads text i j ↔ i = j ∧ j ≤ text.length := by
  constructor
  · intro h
    have hj := h.le
    obtain ⟨front, piece, back, -, rfl, rfl, rfl⟩ := h
    exact ⟨rfl, hj⟩
  · rintro ⟨rfl, hi⟩
    refine ⟨text.take i, [], text.drop i, ?_, List.length_take_of_le hi, ?_, rfl⟩
    · rw [List.nil_append, List.take_append_drop]
    · rw [List.length_take_of_le hi, List.length_nil, Nat.add_zero]

theorem leads_byte_iff {negated : Bool} {ranges : List (UInt8 × UInt8)} :
    (byte negated ranges).Leads text i j ↔
      j = i + 1 ∧ ∃ b, text[i]? = some b ∧ hasByte negated ranges b = true := by
  constructor
  · rintro ⟨front, piece, back, rfl, rfl, rfl, b, rfl, hb⟩
    exact ⟨rfl, b, by simp, hb⟩
  · rintro ⟨rfl, b, hget, hb⟩
    obtain ⟨hlt, rfl⟩ := List.getElem?_eq_some_iff.1 hget
    have hi : (text.take i).length = i := List.length_take_of_le (Nat.le_of_lt hlt)
    refine ⟨text.take i, [text[i]], text.drop (i + 1), ?_, hi, ?_, text[i], rfl, hb⟩
    · rw [List.singleton_append, List.getElem_cons_drop, List.take_append_drop]
    · rw [hi, List.length_singleton]

theorem leads_anyText_iff : anyText.Leads text i j ↔ i ≤ j ∧ j ≤ text.length := by
  constructor
  · intro h
    have hj := h.le
    obtain ⟨front, piece, back, -, rfl, rfl, -⟩ := h
    exact ⟨Nat.le_add_right _ _, hj⟩
  · rintro ⟨hij, hj⟩
    have hi : (text.take i).length = i := List.length_take_of_le (Nat.le_trans hij hj)
    have hpiece : ((text.drop i).take (j - i)).length = j - i :=
      List.length_take_of_le (by rw [List.length_drop]; omega)
    refine ⟨text.take i, (text.drop i).take (j - i), (text.drop i).drop (j - i), ?_, hi, ?_,
      trivial⟩
    · rw [List.take_append_drop, List.take_append_drop]
    · rw [hi, hpiece]
      omega

/-- A place between cuts what lies between two places. -/
theorem leads_sequence_iff :
    (sequence p q).Leads text i j ↔ ∃ k, p.Leads text i k ∧ q.Leads text k j := by
  constructor
  · rintro ⟨front, piece, back, rfl, rfl, rfl, first, second, rfl, hfirst, hsecond⟩
    refine ⟨front.length + first.length, ⟨front, first, second ++ back, ?_, rfl, rfl, hfirst⟩,
      front ++ first, second, back, ?_, ?_, ?_, hsecond⟩
    · rw [List.append_assoc]
    · rw [List.append_assoc, List.append_assoc]
    · rw [List.length_append]
    · rw [List.length_append, List.length_append, Nat.add_assoc]
  · rintro ⟨k, ⟨front, first, back, rfl, rfl, rfl, hfirst⟩,
      ⟨before, second, rest, htext, hlength, rfl, hsecond⟩⟩
    rw [← List.append_assoc] at htext
    obtain ⟨rfl, rfl⟩ := List.append_inj htext (by rw [List.length_append, hlength])
    refine ⟨front, first ++ second, rest, ?_, rfl, ?_, first, second, rfl, hfirst, hsecond⟩
    · rw [List.append_assoc]
    · rw [List.length_append, List.length_append, Nat.add_assoc]

theorem leads_either_iff :
    (either p q).Leads text i j ↔ p.Leads text i j ∨ q.Leads text i j := by
  constructor
  · rintro ⟨front, piece, back, htext, hi, hj, hp | hq⟩
    · exact .inl ⟨front, piece, back, htext, hi, hj, hp⟩
    · exact .inr ⟨front, piece, back, htext, hi, hj, hq⟩
  · rintro (⟨front, piece, back, htext, hi, hj, hp⟩ | ⟨front, piece, back, htext, hi, hj, hq⟩)
    · exact ⟨front, piece, back, htext, hi, hj, .inl hp⟩
    · exact ⟨front, piece, back, htext, hi, hj, .inr hq⟩

theorem leads_whole_iff : p.Leads text 0 text.length ↔ p.Holds text := by
  constructor
  · rintro ⟨front, piece, back, rfl, hfront, hlength, hp⟩
    obtain rfl := List.length_eq_zero_iff.1 hfront
    have hback : back = [] := by
      rw [← List.length_eq_zero_iff]
      simp only [List.length_append, List.length_nil] at hlength
      omega
    rw [hback, List.nil_append, List.append_nil]
    exact hp
  · intro hp
    exact ⟨[], text, [], by simp, rfl, by simp, hp⟩

/-! ## Matching -/

theorem length_spread (marks : List Bool) : (spread marks).length = marks.length := by
  induction marks with
  | nil => rfl
  | cons mark marks ih =>
      cases mark with
      | true => rw [spread, List.length_cons, List.length_map, List.length_cons]
      | false => rw [spread, List.length_cons, ih, List.length_cons]

theorem getElem?_spread :
    (spread marks)[j]? = some true ↔ j < marks.length ∧ ∃ i ≤ j, marks[i]? = some true := by
  induction marks generalizing j with
  | nil => simp [spread]
  | cons mark marks ih =>
      cases mark with
      | true =>
          -- everything from here on is marked
          rw [spread, List.getElem?_cons]
          have hfirst : ∃ i ≤ j, (true :: marks)[i]? = some true := ⟨0, Nat.zero_le j, rfl⟩
          rw [and_iff_left hfirst]
          cases j with
          | zero => simp
          | succ j => simp [List.getElem?_replicate]
      | false =>
          cases j with
          | zero => simp [spread]
          | succ j =>
              rw [spread, List.getElem?_cons_succ, ih, List.length_cons, Nat.succ_lt_succ_iff]
              refine and_congr_right fun _ => ⟨?_, ?_⟩
              · rintro ⟨i, hi, hmark⟩
                exact ⟨i + 1, Nat.succ_le_succ hi, hmark⟩
              · rintro ⟨i, hi, hmark⟩
                cases i with
                | zero => cases hmark
                | succ i => exact ⟨i, Nat.le_of_succ_le_succ hi, hmark⟩

theorem getElem?_zipWith_or {left right : List Bool} (h : left.length = right.length) :
    (List.zipWith (· || ·) left right)[j]? = some true ↔
      left[j]? = some true ∨ right[j]? = some true := by
  rw [List.getElem?_zipWith]
  by_cases hj : j < left.length
  · have hj' : j < right.length := h ▸ hj
    simp [hj, hj']
  · have hj' : ¬ j < right.length := h ▸ hj
    simp [hj, hj']

/-- As many places are known to be reached or not as there are. -/
theorem length_reach (p : Pattern) (hmarks : marks.length = text.length + 1) :
    (p.reach text marks).length = text.length + 1 := by
  induction p generalizing marks with
  | never => rw [reach, List.length_map, hmarks]
  | empty => exact hmarks
  | byte negated ranges =>
      rw [reach, List.length_cons, List.length_zipWith, hmarks]
      omega
  | anyText => rw [reach, length_spread, hmarks]
  | sequence p q ihp ihq => exact ihq (ihp hmarks)
  | either p q ihp ihq => rw [reach, List.length_zipWith, ihp hmarks, ihq hmarks, Nat.min_self]

/-- The places that are reached are those that marked ones lead to. -/
theorem getElem?_reach (p : Pattern) (hmarks : marks.length = text.length + 1) :
    (p.reach text marks)[j]? = some true ↔ ∃ i, marks[i]? = some true ∧ p.Leads text i j := by
  -- on the pattern, for any marks: the second part of a sequence starts from those of the first
  induction p generalizing marks j with
  | never => simp [reach, not_leads_never, List.getElem?_replicate]
  | empty =>
      simp only [reach, leads_empty_iff]
      constructor
      · intro hmark
        obtain ⟨hlt, -⟩ := List.getElem?_eq_some_iff.1 hmark
        exact ⟨j, hmark, rfl, by omega⟩
      · rintro ⟨i, hmark, rfl, -⟩
        exact hmark
  | byte negated ranges =>
      simp only [reach, leads_byte_iff]
      cases j with
      | zero => simp
      | succ j =>
          rw [List.getElem?_cons_succ, List.getElem?_zipWith_eq_some]
          simp only [Bool.and_eq_true, Nat.succ_inj]
          constructor
          · rintro ⟨mark, b, hmark, hb, rfl, hholds⟩
            exact ⟨j, hmark, rfl, b, hb, hholds⟩
          · rintro ⟨i, hmark, rfl, b, hb, hholds⟩
            exact ⟨true, b, hmark, hb, rfl, hholds⟩
  | anyText =>
      simp only [reach, leads_anyText_iff, getElem?_spread, hmarks, Nat.lt_succ_iff]
      constructor
      · rintro ⟨hj, i, hi, hmark⟩
        exact ⟨i, hmark, hi, hj⟩
      · rintro ⟨i, hmark, hi, hj⟩
        exact ⟨hj, i, hi, hmark⟩
  | sequence p q ihp ihq =>
      simp only [reach, leads_sequence_iff, ihq (length_reach p hmarks), ihp hmarks]
      constructor
      · rintro ⟨k, ⟨i, hmark, hp⟩, hq⟩
        exact ⟨i, hmark, k, hp, hq⟩
      · rintro ⟨i, hmark, k, hp, hq⟩
        exact ⟨k, ⟨i, hmark, hp⟩, hq⟩
  | either p q ihp ihq =>
      have hlength : (p.reach text marks).length = (q.reach text marks).length := by
        rw [length_reach p hmarks, length_reach q hmarks]
      simp only [reach, leads_either_iff, and_or_left, exists_or, getElem?_zipWith_or hlength,
        ihp hmarks, ihq hmarks]

/-- Matching decides what the pattern stands for. -/
theorem isMatch_iff : p.isMatch text = true ↔ p.Holds text := by
  have hmarks : (true :: text.map fun _ => false).length = text.length + 1 := by
    rw [List.length_cons, List.length_map]
  have hstart : ∀ i, (true :: text.map fun _ => false)[i]? = some true ↔ i = 0 := by
    intro i
    cases i with
    | zero => simp
    | succ i => simp [List.getElem?_replicate]
  rw [isMatch, beq_iff_eq, List.getLast?_eq_getElem?, length_reach p hmarks, Nat.add_sub_cancel,
    getElem?_reach p hmarks]
  simp only [hstart, exists_eq_left, leads_whole_iff]

/-! ## Building -/

theorem holds_literal {b : UInt8} : (literal b).Holds s ↔ s = [b] := by
  have hbyte : ∀ x, hasByte false [(b, b)] x = true ↔ x = b := by
    intro x
    simp only [hasByte, List.any_cons, List.any_nil, Bool.or_false, Bool.bne_false,
      Bool.and_eq_true, decide_eq_true_eq]
    constructor
    · rintro ⟨hlow, hhigh⟩
      exact UInt8.le_antisymm hhigh hlow
    · rintro rfl
      exact ⟨UInt8.le_refl x, UInt8.le_refl x⟩
  simp only [literal, Holds, hbyte, exists_eq_right]

theorem holds_thenMatch :
    (thenMatch p q).Holds s ↔ ∃ front back, s = front ++ back ∧ p.Holds front ∧ q.Holds back := by
  unfold thenMatch
  split
  · simp [Holds]
  · simp [Holds]
  · simp [Holds]
  · simp [Holds]
  · rfl

/-- Bytes in order stand for themselves. -/
theorem holds_inOrder_literal {bytes : List UInt8} :
    (inOrder (bytes.map literal)).Holds s ↔ s = bytes := by
  induction bytes generalizing s with
  | nil => rfl
  | cons b bytes ih =>
      rw [List.map_cons, inOrder, List.foldr_cons, holds_thenMatch]
      constructor
      · rintro ⟨front, back, rfl, hfront, hback⟩
        rw [holds_literal.1 hfront, ih.1 hback, List.singleton_append]
      · rintro rfl
        exact ⟨[b], bytes, rfl, holds_literal.2 rfl, ih.2 rfl⟩

end ParseBench.Text.Pattern
