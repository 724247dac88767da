/-
  ParseBench.Proofs.Text.ByteOrder

  Texts in the order of their bytes. The bytes of a character are a leading one, which also
  tells how many there are, and continuation bytes of six bits each. Of two characters the one
  with the smaller code point has the smaller byte where they first differ
  (`utf8EncodeChar_append_lt`), so texts are in the order of their code points exactly when
  their bytes are in the order of bytes (`bytesBefore_iff`).
-/

import Mathlib.Data.String.Basic
import ParseBench.Proofs.Text.Lines

namespace ParseBench.Text

/-- The bytes of `s` come before those of `t`, as lists of bytes are ordered. -/
def BytesBefore (s t : String) : Prop := s.toUTF8.toList < t.toUTF8.toList

/-! ## Characters -/

theorem ofNat_cons_lt_iff {m n : Nat} {s r : List UInt8} :
    UInt8.ofNat m :: s < UInt8.ofNat n :: r ↔
      m % 256 < n % 256 ∨ (m % 256 = n % 256 ∧ s < r) := by
  rw [List.cons_lt_cons_iff, UInt8.lt_iff_toNat_lt, ← UInt8.toNat_inj, UInt8.toNat_ofNat',
    UInt8.toNat_ofNat']

section Continuation

variable {m n : Nat}

theorem div_eq_or_lt (h : m < n) (k : Nat) : m / k = n / k ∨ m / k < n / k :=
  Nat.eq_or_lt_of_le (Nat.div_le_div_right (Nat.le_of_lt h))

theorem lastByte_lt (h : m < n) (hsame : m / 64 = n / 64) (s r : List UInt8) :
    UInt8.ofNat (m % 64 + 128) :: s < UInt8.ofNat (n % 64 + 128) :: r :=
  ofNat_cons_lt_iff.2 (.inl (by omega))

theorem lastTwoBytes_lt (h : m < n) (hsame : m / 4096 = n / 4096) (s r : List UInt8) :
    UInt8.ofNat (m / 64 % 64 + 128) :: UInt8.ofNat (m % 64 + 128) :: s <
      UInt8.ofNat (n / 64 % 64 + 128) :: UInt8.ofNat (n % 64 + 128) :: r := by
  rw [ofNat_cons_lt_iff]
  rcases div_eq_or_lt h 64 with heq | hlt
  · exact .inr ⟨by omega, lastByte_lt h heq s r⟩
  · exact .inl (by omega)

theorem lastThreeBytes_lt (h : m < n) (hsame : m / 262144 = n / 262144) (s r : List UInt8) :
    UInt8.ofNat (m / 4096 % 64 + 128) :: UInt8.ofNat (m / 64 % 64 + 128) ::
        UInt8.ofNat (m % 64 + 128) :: s <
      UInt8.ofNat (n / 4096 % 64 + 128) :: UInt8.ofNat (n / 64 % 64 + 128) ::
        UInt8.ofNat (n % 64 + 128) :: r := by
  rw [ofNat_cons_lt_iff]
  rcases div_eq_or_lt h 4096 with heq | hlt
  · exact .inr ⟨by omega, lastTwoBytes_lt h heq s r⟩
  · exact .inl (by omega)

end Continuation

/-- The smaller character has the smaller byte where the two first differ. Where they have
    as many bytes, this is the first in which the code points differ; otherwise it is the
    leading one. -/
theorem utf8EncodeChar_append_lt {c d : Char} (h : c < d) (s r : List UInt8) :
    String.utf8EncodeChar c ++ s < String.utf8EncodeChar d ++ r := by
  have hlt : c.val.toNat < d.val.toNat := h
  have hmax : d.val.toNat < 0x110000 := by
    rcases d.valid with hlow | hhigh
    · exact Nat.lt_trans hlow (by decide)
    · exact hhigh.2
  unfold String.utf8EncodeChar
  generalize c.val.toNat = m at hlt ⊢
  generalize d.val.toNat = n at hlt hmax ⊢
  simp only [apply_ite (· ++ s), apply_ite (· ++ r), List.cons_append, List.nil_append]
  by_cases hn₁ : n ≤ 0x7f
  · rw [if_pos hn₁, if_pos (by omega : m ≤ 0x7f)]
    exact ofNat_cons_lt_iff.2 (.inl (by omega))
  rw [if_neg hn₁]
  by_cases hn₂ : n ≤ 0x7ff
  · rw [if_pos hn₂]
    split
    · exact ofNat_cons_lt_iff.2 (.inl (by omega))
    rw [if_pos (by omega : m ≤ 0x7ff), ofNat_cons_lt_iff]
    rcases div_eq_or_lt hlt 64 with heq | hlead
    · exact .inr ⟨by omega, lastByte_lt hlt heq s r⟩
    · exact .inl (by omega)
  rw [if_neg hn₂]
  by_cases hn₃ : n ≤ 0xffff
  · rw [if_pos hn₃]
    split
    · exact ofNat_cons_lt_iff.2 (.inl (by omega))
    split
    · exact ofNat_cons_lt_iff.2 (.inl (by omega))
    rw [if_pos (by omega : m ≤ 0xffff), ofNat_cons_lt_iff]
    rcases div_eq_or_lt hlt 4096 with heq | hlead
    · exact .inr ⟨by omega, lastTwoBytes_lt hlt heq s r⟩
    · exact .inl (by omega)
  rw [if_neg hn₃]
  split
  · exact ofNat_cons_lt_iff.2 (.inl (by omega))
  split
  · exact ofNat_cons_lt_iff.2 (.inl (by omega))
  split
  · exact ofNat_cons_lt_iff.2 (.inl (by omega))
  rw [ofNat_cons_lt_iff]
  rcases div_eq_or_lt hlt 262144 with heq | hlead
  · exact .inr ⟨by omega, lastThreeBytes_lt hlt heq s r⟩
  · exact .inl (by omega)

/-! ## Texts -/

theorem flatMap_utf8EncodeChar_lt {s t : List Char} (h : s < t) :
    s.flatMap String.utf8EncodeChar < t.flatMap String.utf8EncodeChar := by
  induction s generalizing t with
  | nil =>
      cases t with
      | nil => exact absurd h (List.lt_irrefl _)
      | cons d t =>
          obtain ⟨b, more, hbytes⟩ : ∃ b more, String.utf8EncodeChar d = b :: more :=
            List.exists_cons_of_ne_nil String.utf8EncodeChar_ne_nil
          rw [List.flatMap_nil, List.flatMap_cons, hbytes, List.cons_append]
          exact List.nil_lt_cons _ _
  | cons c s ih =>
      cases t with
      | nil => exact absurd h (List.not_lt_nil _)
      | cons d t =>
          rw [List.flatMap_cons, List.flatMap_cons]
          rcases List.cons_lt_cons_iff.1 h with hlt | ⟨rfl, hlt⟩
          · exact utf8EncodeChar_append_lt hlt _ _
          · exact List.append_left_lt (ih hlt)

/-- The order of bytes is that of code points. -/
theorem bytesBefore_iff {s t : String} : BytesBefore s t ↔ s < t := by
  have hmono : ∀ {s t : String}, s < t → BytesBefore s t := fun h => by
    rw [BytesBefore, toList_toUTF8, toList_toUTF8]
    exact flatMap_utf8EncodeChar_lt (String.lt_iff_toList_lt.1 h)
  refine ⟨fun h => ?_, hmono⟩
  rcases lt_trichotomy s t with hlt | rfl | hlt
  · exact hlt
  · exact absurd h (List.lt_irrefl _)
  · exact absurd h (List.lt_asymm (hmono hlt))

end ParseBench.Text
