/-
  ParseBench.Proofs.Text.Lines

  Lines of a text and of its bytes. A cut behind a line feed separates lines
  (`lines_append`). Every text consists of lines without line feeds (`exists_hasLines`), and
  these are read, up to a carriage return at the end of one (`HasLines.lines`). No byte of an
  encoded text is a line feed or a carriage return unless the character is one
  (`toNat_of_mem_utf8EncodeChar`), so the lines of the bytes are those of the text
  (`byteLines_toUTF8`), and texts without these two, each with a line feed after it, are the
  lines of their file (`byteLines_terminated`).
-/

import Mathlib.Data.List.Forall2
import ParseBench.Proofs.Text.Split
import ParseBench.Text.Lines

namespace ParseBench.Text

/-! ## Cutting into lines -/

section Cutting

variable {α : Type} [DecidableEq α] {feed ret : α}

theorem dropReturn_eq_self {line : List α} (h : ret ∉ line) : dropReturn ret line = line := by
  unfold dropReturn
  split
  · next hlast => exact absurd (List.mem_of_getLast? hlast) h
  · rfl

/-- A piece before others is a complete line. -/
theorem linesOfPieces_cons {piece : List α} {rest : List (List α)} (h : rest ≠ []) :
    linesOfPieces ret (piece :: rest) = dropReturn ret piece :: linesOfPieces ret rest := by
  cases rest with
  | nil => exact absurd rfl h
  | cons _ _ => rfl

theorem linesBy_append_cons {line : List α} (hfeed : feed ∉ line) (hret : ret ∉ line)
    (rest : List α) : linesBy feed ret (line ++ feed :: rest) = line :: linesBy feed ret rest := by
  have hline : ∀ c ∈ line, (c == feed) = false := beq_eq_false_of_not_mem hfeed
  rw [linesBy, splitWhere_append_cons hline (beq_self_eq_true feed),
    linesOfPieces_cons (splitWhere_ne_nil _ _), dropReturn_eq_self hret, linesBy]

theorem linesBy_terminated {lines : List (List α)} (h : ∀ line ∈ lines, feed ∉ line ∧ ret ∉ line) :
    linesBy feed ret (lines.flatMap (· ++ [feed])) = lines := by
  induction lines with
  | nil => rfl
  | cons line lines ih =>
      obtain ⟨⟨hfeed, hret⟩, hlines⟩ := List.forall_mem_cons.1 h
      rw [List.flatMap_cons, List.append_assoc, List.singleton_append,
        linesBy_append_cons hfeed hret, ih hlines]

theorem linesOfPieces_append {pieces : List (List α)} (front : List (List α)) (h : pieces ≠ []) :
    linesOfPieces ret (front ++ pieces) =
      front.map (dropReturn ret) ++ linesOfPieces ret pieces := by
  induction front with
  | nil => rfl
  | cons piece front ih =>
      rw [List.cons_append, linesOfPieces_cons (List.append_ne_nil_of_right_ne_nil front h), ih]
      rfl

/-- Before a line feed all pieces are complete lines. -/
theorem linesBy_append_feed (s rest : List α) :
    linesBy feed ret (s ++ feed :: rest) =
      (splitWhere (· == feed) s).map (dropReturn ret) ++ linesBy feed ret rest := by
  have hcut : splitWhere (· == feed) (s ++ feed :: rest) =
      splitWhere (· == feed) s ++ splitWhere (· == feed) rest :=
    splitWhere_append_sep (p := (· == feed)) (beq_self_eq_true feed) s rest
  rw [linesBy, hcut, linesOfPieces_append _ (splitWhere_ne_nil _ rest), linesBy]

/-- The lines hold nothing but what is in the list. -/
theorem mem_of_mem_linesBy {s line : List α} (h : line ∈ linesBy feed ret s) :
    ∀ c ∈ line, c ∈ s := by
  have hpieces : ∀ pieces : List (List α), line ∈ linesOfPieces ret pieces →
      ∃ piece ∈ pieces, ∀ c ∈ line, c ∈ piece := by
    intro pieces hline
    induction pieces with
    | nil => cases hline
    | cons piece rest ih =>
        by_cases hrest : rest = []
        · rw [hrest, linesOfPieces] at hline
          split at hline
          · cases hline
          · rw [List.mem_singleton.1 hline]
            exact ⟨piece, List.mem_cons_self, fun c hc => hc⟩
        · rw [linesOfPieces_cons hrest] at hline
          rcases List.mem_cons.1 hline with rfl | hlater
          · refine ⟨piece, List.mem_cons_self, fun c hc => ?_⟩
            unfold dropReturn at hc
            split at hc
            · exact List.dropLast_subset _ hc
            · exact hc
          · obtain ⟨other, hother, hmem⟩ := ih hlater
            exact ⟨other, List.mem_cons_of_mem _ hother, hmem⟩
  obtain ⟨piece, hpiece, hmem⟩ := hpieces _ h
  intro c hc
  exact mem_of_mem_splitWhere hpiece c (hmem c hc)

end Cutting

/-! ## Texts -/

/-- What comes after the text begins a line: there is nothing, or a line feed, before it. -/
def EndsLine (s : String) : Prop :=
  s = "" ∨ ∃ front, s = front ++ "\n"

theorem lines_append {s : String} (h : EndsLine s) (rest : String) :
    lines (s ++ rest) = lines s ++ lines rest := by
  rcases h with rfl | ⟨front, rfl⟩
  · rw [String.empty_append]
    rfl
  · -- the line feed is followed by nothing in the text alone
    have hwhole : (front ++ "\n" ++ rest).toList = front.toList ++ '\n' :: rest.toList := by simp
    have halone : (front ++ "\n").toList = front.toList ++ '\n' :: [] := by simp
    rw [lines, hwhole, linesBy_append_feed, lines, halone, linesBy_append_feed, lines,
      List.map_append, List.map_append]
    simp [linesBy, linesOfPieces]

theorem mem_of_mem_lines {s line : String} (h : line ∈ lines s) :
    ∀ c ∈ line.toList, c ∈ s.toList := by
  obtain ⟨chars, hchars, rfl⟩ := List.mem_map.1 h
  rw [String.toList_ofList]
  exact mem_of_mem_linesBy hchars

/-! ## Written lines -/

/-- The text is written from these lines: each has a line feed after it, which only a last one
    that is not empty may lack. -/
def IsWritten (text : String) (written : List String) : Prop :=
  text = String.join (written.map (· ++ "\n")) ∨
    ∃ front last, last ≠ "" ∧ written = front ++ [last] ∧
      text = String.join (front.map (· ++ "\n")) ++ last

/-- The text consists of these lines. -/
structure HasLines (text : String) (written : List String) : Prop where
  free : ∀ line ∈ written, '\n' ∉ line.toList
  isWritten : IsWritten text written

/-- Every text consists of lines. -/
theorem exists_hasLines (text : String) : ∃ written, HasLines text written := by
  obtain ⟨front, last, hpieces⟩ : ∃ front last, splitOn '\n' text = front ++ [last] := by
    have hne : splitOn '\n' text ≠ [] := by simpa [splitOn] using splitWhere_ne_nil _ _
    exact ⟨_, _, (List.dropLast_concat_getLast hne).symm⟩
  obtain ⟨htext, hfree⟩ := (splitOn_eq_iff (by simp)).1 hpieces
  have hwhole : text = String.join (front.map (· ++ "\n")) ++ last := by
    rw [htext]
    exact join_concat "\n" front last
  -- what stands behind the last line feed is a line only if it is not empty
  by_cases hlast : last = ""
  · rw [hlast, String.append_empty] at hwhole
    exact ⟨front, fun line hline => hfree line (List.mem_append_left _ hline), .inl hwhole⟩
  · exact ⟨front ++ [last], hfree, .inr ⟨front, last, hlast, rfl, hwhole⟩⟩

/-- The line is read as it is written, or without a carriage return at its end. -/
def ReadAs (line written : String) : Prop :=
  written = line ∨ written = line ++ "\r"

theorem lines_of_not_mem {line : String} (hne : line ≠ "") (h : '\n' ∉ line.toList) :
    lines line = [line] := by
  have hpiece : ∀ c ∈ line.toList, (c == '\n') = false := beq_eq_false_of_not_mem h
  have hchars : line.toList.isEmpty = false := by simpa using hne
  rw [lines, linesBy, splitWhere_eq_singleton hpiece, linesOfPieces, hchars]
  simp

theorem lines_feed {written : String} (h : '\n' ∉ written.toList) :
    ∃ line, lines (written ++ "\n") = [line] ∧ ReadAs line written := by
  have hpiece : ∀ c ∈ written.toList, (c == '\n') = false := beq_eq_false_of_not_mem h
  have hchars : (written ++ "\n").toList = written.toList ++ '\n' :: [] := by simp
  refine ⟨String.ofList (dropReturn '\r' written.toList), ?_, ?_⟩
  · rw [lines, hchars, linesBy_append_feed, splitWhere_eq_singleton hpiece]
    simp [linesBy, linesOfPieces]
  · unfold dropReturn
    split
    · next hreturn =>
        right
        apply String.toList_injective
        rw [String.toList_append, String.toList_ofList]
        exact (List.dropLast_append_getLast? _ hreturn).symm
    · exact .inl String.ofList_toList.symm

theorem endsLine_terminated (texts : List String) :
    EndsLine (String.join (texts.map (· ++ "\n"))) := by
  rcases List.eq_nil_or_concat' texts with rfl | ⟨front, last, rfl⟩
  · exact .inl rfl
  · right
    refine ⟨String.join (front.map (· ++ "\n")) ++ last, ?_⟩
    rw [List.map_append, String.join_append]
    simp [String.append_assoc]

theorem lines_terminated {written : List String} (h : ∀ line ∈ written, '\n' ∉ line.toList) :
    List.Forall₂ ReadAs (lines (String.join (written.map (· ++ "\n")))) written := by
  induction written with
  | nil => exact .nil
  | cons first written ih =>
      obtain ⟨hfirst, hwritten⟩ := List.forall_mem_cons.1 h
      obtain ⟨line, hline, hread⟩ := lines_feed hfirst
      rw [List.map_cons, String.join_cons, lines_append (.inr ⟨first, rfl⟩), hline]
      exact .cons hread (ih hwritten)

/-- The lines of a text are those it consists of, up to the carriage returns at their ends. -/
theorem HasLines.lines {text : String} {written : List String} (h : HasLines text written) :
    List.Forall₂ ReadAs (lines text) written := by
  obtain ⟨hfree, rfl | ⟨front, last, hne, rfl, rfl⟩⟩ := h
  · exact lines_terminated hfree
  · -- the carriage return at the end of a last line without a line feed stays
    obtain ⟨hfront, hlast⟩ := List.forall_mem_append.1 hfree
    rw [lines_append (endsLine_terminated front),
      lines_of_not_mem hne (hlast last List.mem_cons_self)]
    exact List.rel_append (lines_terminated hfront) (.cons (.inl rfl) .nil)

/-! ## Bytes -/

theorem toList_byteArray (bytes : ByteArray) : bytes.toList = bytes.data.toList := by
  have hloop : ∀ i front, ByteArray.toList.loop bytes i front =
      front.reverse ++ bytes.data.toList.drop i := by
    intro i front
    fun_induction ByteArray.toList.loop bytes i front with
    | case1 i front hi ih =>
        have hlt : i < bytes.data.toList.length := by simpa using hi
        rw [ih, List.drop_eq_getElem_cons hlt]
        simp [ByteArray.get!, hi]
    | case2 i front hi =>
        rw [List.drop_eq_nil_of_le (by simpa using Nat.le_of_not_lt hi)]
        simp
  rw [ByteArray.toList, hloop]
  rfl

theorem toList_toUTF8 (s : String) : s.toUTF8.toList = s.toList.flatMap String.utf8EncodeChar := by
  rw [toList_byteArray, String.toUTF8_eq_toByteArray, ← String.utf8Encode_toList, List.utf8Encode,
    List.toList_data_toByteArray]

/-- The bytes of a character are its code point, or they lie above the characters of one
    byte. -/
theorem toNat_of_mem_utf8EncodeChar {c : Char} {b : UInt8} (h : b ∈ String.utf8EncodeChar c) :
    b.toNat = c.toNat ∨ 128 ≤ b.toNat := by
  have hnat : c.val.toNat = c.toNat := rfl
  unfold String.utf8EncodeChar at h
  simp only [hnat] at h
  split at h
  · rw [List.mem_singleton.1 h, UInt8.toNat_ofNat']
    omega
  · right
    split at h
    · simp only [List.mem_cons, List.not_mem_nil, or_false] at h
      rcases h with rfl | rfl <;> rw [UInt8.toNat_ofNat'] <;> omega
    · split at h
      · simp only [List.mem_cons, List.not_mem_nil, or_false] at h
        rcases h with rfl | rfl | rfl <;> rw [UInt8.toNat_ofNat'] <;> omega
      · simp only [List.mem_cons, List.not_mem_nil, or_false] at h
        rcases h with rfl | rfl | rfl | rfl <;> rw [UInt8.toNat_ofNat'] <;> omega

/-- A byte of one of the low characters is there only if the character is. -/
theorem mem_of_mem_toUTF8 {s : String} {c : Char} {b : UInt8} (h : b ∈ s.toUTF8.toList)
    (hc : b.toNat = c.toNat) (hlow : c.toNat < 128) : c ∈ s.toList := by
  rw [toList_toUTF8] at h
  obtain ⟨d, hd, hb⟩ := List.mem_flatMap.1 h
  rcases toNat_of_mem_utf8EncodeChar hb with hsame | hhigh
  · rwa [← Char.toNat_inj.1 (hsame.symm.trans hc)]
  · omega

/-- The bytes at the beginning of a text tell what its first character is. -/
theorem eq_of_utf8EncodeChar_append {c d : Char} {s r : List UInt8}
    (h : String.utf8EncodeChar c ++ s = String.utf8EncodeChar d ++ r) : c = d := by
  have hdecode : ∀ (a : Char) (tail : List UInt8),
      (String.utf8EncodeChar a ++ tail).toByteArray.utf8DecodeChar? 0 = some a := by
    intro a tail
    have hone : (String.utf8EncodeChar a).toByteArray = [a].utf8Encode := by
      rw [List.utf8Encode, List.flatMap_singleton]
    rw [List.toByteArray_append, hone]
    exact List.utf8DecodeChar?_utf8Encode_singleton_append
  have hc := hdecode c s
  rw [h, hdecode d r] at hc
  exact (Option.some.inj hc).symm

/-- A text begins with another if its bytes do. -/
theorem flatMap_utf8EncodeChar_isPrefix_iff {lead s : List Char} :
    lead.flatMap String.utf8EncodeChar <+: s.flatMap String.utf8EncodeChar ↔ lead <+: s := by
  constructor
  · intro h
    induction lead generalizing s with
    | nil => exact List.nil_prefix
    | cons c lead ih =>
        obtain ⟨rest, hrest⟩ := h
        cases s with
        | nil =>
            rw [List.flatMap_cons, List.append_assoc, List.flatMap_nil] at hrest
            exact absurd (List.append_eq_nil_iff.1 hrest).1 String.utf8EncodeChar_ne_nil
        | cons d s =>
            rw [List.flatMap_cons, List.flatMap_cons, List.append_assoc] at hrest
            obtain rfl := eq_of_utf8EncodeChar_append hrest
            exact List.cons_prefix_cons.2 ⟨rfl, ih ⟨rest, List.append_cancel_left hrest⟩⟩
  · rintro ⟨rest, rfl⟩
    rw [List.flatMap_append]
    exact List.prefix_append _ _

theorem toList_toUTF8_terminated (texts : List String) :
    (String.join (texts.map (· ++ "\n"))).toUTF8.toList =
      (texts.map fun t => t.toUTF8.toList).flatMap (· ++ [10]) := by
  have hfeed : "\n".toList.flatMap String.utf8EncodeChar = [10] := by decide
  simp only [toList_toUTF8, String.toList_join, List.flatMap_map, List.flatMap_assoc,
    String.toList_append, List.flatMap_append, hfeed]

theorem fromUTF8?_toUTF8 (s : String) : String.fromUTF8? s.toUTF8 = some s := by
  have hvalid : s.toUTF8.IsValidUTF8 := s.isValidUTF8
  rw [String.fromUTF8?, dif_pos hvalid]
  rfl

theorem fromUTF8?_toList_toUTF8 (s : String) :
    String.fromUTF8? ⟨s.toUTF8.toList.toArray⟩ = some s := by
  rw [toList_byteArray, Array.toArray_toList]
  exact fromUTF8?_toUTF8 s

/-- A byte of one of the low characters is in the bytes of a character only if it is this
    character. -/
theorem eq_of_mem_utf8EncodeChar {c : Char} {b : UInt8} (h : b ∈ String.utf8EncodeChar c)
    (low : Char) (hb : b.toNat = low.toNat) (hlow : low.toNat < 128) : c = low := by
  rcases toNat_of_mem_utf8EncodeChar h with hsame | hhigh
  · exact Char.toNat_inj.1 (hsame.symm.trans hb)
  · omega

/-- The bytes are cut at the line feeds of the text. -/
theorem splitWhere_utf8 (s : List Char) :
    splitWhere (· == (10 : UInt8)) (s.flatMap String.utf8EncodeChar) =
      (splitWhere (· == '\n') s).map (·.flatMap String.utf8EncodeChar) := by
  induction s with
  | nil => rfl
  | cons c s ih =>
      rw [List.flatMap_cons]
      by_cases hc : c = '\n'
      · have hfeed : String.utf8EncodeChar c = [10] := by
          rw [hc]
          decide
        rw [hfeed, List.singleton_append, splitWhere_cons_sep (by decide),
          splitWhere_cons_sep (by simp [hc]), ih]
        rfl
      · have hbytes : ∀ b ∈ String.utf8EncodeChar c, (b == (10 : UInt8)) = false := by
          intro b hb
          rw [beq_eq_false_iff_ne]
          rintro rfl
          exact hc (eq_of_mem_utf8EncodeChar hb '\n' (by decide) (by decide))
        obtain ⟨first, rest, hsplit, hwhole⟩ :=
          splitWhere_append hbytes (s.flatMap String.utf8EncodeChar)
        have hchar : ∀ d ∈ [c], (d == '\n') = false := by simpa using hc
        obtain ⟨piece, pieces, hs, hwhole'⟩ := splitWhere_append hchar s
        rw [ih, hs] at hsplit
        obtain ⟨rfl, rfl⟩ := List.cons.inj hsplit
        rw [List.singleton_append] at hwhole'
        rw [hwhole, hwhole']
        rfl

/-- A carriage return at the end of a line is one at the end of its bytes. -/
theorem dropReturn_utf8 (line : List Char) :
    dropReturn (13 : UInt8) (line.flatMap String.utf8EncodeChar) =
      (dropReturn '\r' line).flatMap String.utf8EncodeChar := by
  induction line using List.reverseRecOn with
  | nil => rfl
  | append_singleton line c _ =>
      rw [List.flatMap_append, List.flatMap_singleton]
      by_cases hc : c = '\r'
      · have hreturn : String.utf8EncodeChar c = [13] := by
          rw [hc]
          decide
        rw [hreturn, hc]
        simp [dropReturn]
      · have hlast : ¬ (line.flatMap String.utf8EncodeChar ++ String.utf8EncodeChar c).getLast? =
            some 13 := by
          rw [List.getLast?_append_of_ne_nil _ String.utf8EncodeChar_ne_nil]
          intro hend
          have hmem := List.mem_of_getLast? hend
          exact hc (eq_of_mem_utf8EncodeChar hmem '\r' (by decide) (by decide))
        rw [dropReturn, if_neg hlast, dropReturn, if_neg (by simpa using hc), List.flatMap_append,
          List.flatMap_singleton]

theorem linesOfPieces_utf8 (pieces : List (List Char)) :
    linesOfPieces (13 : UInt8) (pieces.map (·.flatMap String.utf8EncodeChar)) =
      (linesOfPieces '\r' pieces).map (·.flatMap String.utf8EncodeChar) := by
  induction pieces with
  | nil => rfl
  | cons piece pieces ih =>
      by_cases hlast : pieces = []
      · rw [hlast]
        cases piece with
        | nil => rfl
        | cons c piece => simp [linesOfPieces]
      · rw [List.map_cons, linesOfPieces_cons (by simpa using hlast), linesOfPieces_cons hlast,
          List.map_cons, ih, dropReturn_utf8]

/-- The lines of the bytes of a text are its lines. -/
theorem byteLines_toUTF8 (s : String) : byteLines s.toUTF8 = (lines s).map some := by
  have hback : ∀ line : List Char,
      String.fromUTF8? ⟨(line.flatMap String.utf8EncodeChar).toArray⟩ =
        some (String.ofList line) := by
    intro line
    have hbytes := fromUTF8?_toList_toUTF8 (String.ofList line)
    rwa [toList_toUTF8, String.toList_ofList] at hbytes
  rw [byteLines, toList_toUTF8, linesBy, splitWhere_utf8, linesOfPieces_utf8, lines, linesBy,
    List.map_map, List.map_map]
  exact List.map_congr_left fun line _ => hback line

/-- Texts without line feeds and carriage returns, each with a line feed after it, are the
    lines of their file. -/
theorem byteLines_terminated {texts : List String}
    (h : ∀ t ∈ texts, '\n' ∉ t.toList ∧ '\r' ∉ t.toList) :
    byteLines (String.join (texts.map (· ++ "\n"))).toUTF8 = texts.map some := by
  have hlines : ∀ line ∈ texts.map fun t => t.toUTF8.toList,
      (10 : UInt8) ∉ line ∧ (13 : UInt8) ∉ line := by
    refine List.forall_mem_map.2 fun t ht => ⟨fun hfeed => ?_, fun hret => ?_⟩
    · exact (h t ht).1 (mem_of_mem_toUTF8 hfeed (by decide) (by decide))
    · exact (h t ht).2 (mem_of_mem_toUTF8 hret (by decide) (by decide))
  rw [byteLines, toList_toUTF8_terminated, linesBy_terminated hlines, List.map_map]
  exact List.map_congr_left fun t _ => fromUTF8?_toList_toUTF8 t

end ParseBench.Text
