/-
  ParseBench.Proofs.Files.Glob

  Patterns without anything special in them but a star at the end. Their parts are the
  characters and then any text (`parts?_star`), so they match the names that begin with
  these characters (`reader_readsStar`). That is all that is asked of a reader of patterns
  (`ReadsStar`).
-/

import ParseBench.Files.Glob
import ParseBench.Proofs.Files.Path
import ParseBench.Proofs.Text.Pattern

namespace ParseBench.Glob

open Text.Pattern (Holds holds_inOrder_literal holds_thenMatch isMatch_iff)

variable {lead : String} {chars rest : List Char}

/-- The characters that do not stand for themselves wherever they are. -/
def special : List Char := ['?', '*', '[', '\x7b', '\x7d', '\\']

/-- Do all characters of the text stand for themselves? -/
def IsPlain (lead : String) : Prop :=
  ∀ c ∈ lead.toList, c ∉ special

instance (lead : String) : Decidable (IsPlain lead) :=
  List.decidableBAll (· ∉ special) lead.toList

theorem IsPlain.append {right : String} (hlead : IsPlain lead) (hright : IsPlain right) :
    IsPlain (lead ++ right) := by
  intro c hc
  rw [String.toList_append, List.mem_append] at hc
  exact hc.elim (hlead c) (hright c)

/-! ## Reading -/

/-- A character that stands for itself is added. -/
theorem read?_cons {c : Char} (hc : c ∉ special) (bound : Nat) (r : Reading)
    (hr : r.outer = []) : read? (bound + 1) r (c :: rest) =
      read? bound { r.push (.literal c) with last := some c } rest := by
  simp only [special, List.mem_cons, List.not_mem_nil, or_false, not_or] at hc
  obtain ⟨hany, hstar, hclass, hopen, hclose, hescape⟩ := hc
  conv_lhs => unfold read?
  by_cases hcomma : c = ','
  · -- outside of alternatives a comma is one character like others
    subst hcomma
    simp [Reading.comma, hr]
  · simp only [hany, hstar, hclass, hopen, hclose, hescape, hcomma, if_false]

theorem read?_append (hchars : ∀ c ∈ chars, c ∉ special) (rest : List Char) (bound : Nat)
    (r : Reading) (hr : r.outer = []) :
    ∃ r', read? (chars.length + bound) r (chars ++ rest) = read? bound r' rest ∧ r'.outer = [] ∧
      r'.inner.current = (chars.map .literal).reverse ++ r.inner.current := by
  -- the state that is reached also has the last character, which only two stars look at
  induction chars generalizing r with
  | nil => exact ⟨r, by rw [List.length_nil, Nat.zero_add, List.nil_append], hr, rfl⟩
  | cons c chars ih =>
      obtain ⟨hc, hchars⟩ := List.forall_mem_cons.1 hchars
      obtain ⟨r', hread, houter, hcurrent⟩ :=
        ih hchars { r.push (.literal c) with last := some c } hr
      refine ⟨r', ?_, houter, ?_⟩
      · rw [List.length_cons, Nat.add_right_comm, List.cons_append, read?_cons hc _ _ hr, hread]
      · rw [hcurrent, List.map_cons, List.reverse_cons, List.append_assoc]
        rfl

theorem parts?_star (h : IsPlain lead) :
    parts? (lead ++ "*") = some (lead.toList.map .literal ++ [.anyText]) := by
  obtain ⟨r, hread, houter, hcurrent⟩ := read?_append h ['*'] 2 .start rfl
  have hlist : (lead ++ "*").toList = lead.toList ++ ['*'] := String.toList_append
  have hbound : (lead ++ "*").length + 1 = lead.toList.length + 2 := by
    rw [← String.length_toList, hlist, List.length_append, List.length_singleton]
  have hstar : read? 2 r ['*'] = some { r.push .anyText with last := some '*' } := rfl
  rw [parts?, hbound, hlist, hread, hstar]
  simp [Reading.push, houter, hcurrent, Reading.start]

/-! ## Meaning -/

theorem utf8_eq (c : Char) : utf8 c = String.utf8EncodeChar c := by
  rw [utf8, Text.toList_toUTF8, String.toList_singleton, List.flatMap_singleton]

theorem holds_sequencePattern_literal {parts : List Part} {s : List UInt8} :
    (Part.sequencePattern (chars.map .literal ++ parts)).Holds s ↔
      ∃ back, s = chars.flatMap String.utf8EncodeChar ++ back ∧
        (Part.sequencePattern parts).Holds back := by
  induction chars generalizing s with
  | nil => simp
  | cons c chars ih =>
      rw [List.map_cons, List.cons_append, Part.sequencePattern, holds_thenMatch, Part.pattern,
        List.flatMap_cons, utf8_eq]
      constructor
      · rintro ⟨front, back, rfl, hfront, hback⟩
        obtain ⟨rest, rfl, hrest⟩ := ih.1 hback
        exact ⟨rest, by rw [holds_inOrder_literal.1 hfront, List.append_assoc], hrest⟩
      · rintro ⟨back, rfl, hback⟩
        exact ⟨_, _, List.append_assoc _ _ _, holds_inOrder_literal.2 rfl, ih.2 ⟨back, rfl, hback⟩⟩

/-- What the documentation of patterns says of a star at the end: behind characters that stand for
    themselves it matches the names that begin with them. -/
def ReadsStar (glob : PatternReader) : Prop :=
  ∀ lead, IsPlain lead → ∃ isMatch, glob (lead ++ "*") = some isMatch ∧
    ∀ name, isMatch name = true ↔ name.BeginsWith lead

theorem reader_readsStar : ReadsStar reader := by
  intro lead h
  refine ⟨isMatch (Part.sequencePattern (lead.toList.map .literal ++ [.anyText])), ?_,
    fun name => ?_⟩
  · rw [reader, pattern?, parts?_star h]
    cases lead.toList <;> rfl
  · have hrest : ∀ back, (Part.sequencePattern [.anyText]).Holds back := by
      intro back
      rw [Part.sequencePattern, holds_thenMatch]
      exact ⟨back, [], (List.append_nil back).symm, trivial, rfl⟩
    rw [isMatch, isMatch_iff, holds_sequencePattern_literal, FileName.BeginsWith,
      FileName.bytes_ofText]
    simp only [hrest, and_true]
    exact exists_congr fun _ => eq_comm

end ParseBench.Glob
