/-
  ParseBench.Proofs.Text.Split

  Cutting and joining. The cut at separators is that of the library
  (`splitWhere_eq_splitOnP`), so pieces without separators come back when they have been
  joined (`splitOn_join`), and a text is joined from its pieces in one way only
  (`splitOn_eq_iff`). The words of a text are pieces that are not empty, and none of
  their characters is blank (`mem_words`). Words that have been joined come back
  (`AreWords.words_join`). What a text begins with is a prefix of its characters
  (`startsWith_iff`), and the last separator of a list has none after it
  (`beforeLast?_eq_some_iff`). What is replaced is the first occurrence
  (`replaceFirst_append`). A text that was trimmed is not trimmed any further
  (`trimWhere_trimWhere`). A number is known by its numeral (`toString_injective`), which is
  nothing but digits (`not_mem_toString`).
-/

import Mathlib.Data.List.DropRight
import ParseBench.Text.Split

namespace ParseBench.Text

/-! ## Pieces -/

section Pieces

variable {α : Type} {p q : α → Bool}

theorem splitWhere_eq_splitOnP (s : List α) : splitWhere p s = s.splitOnP p := by
  induction s with
  | nil => rw [splitWhere_nil, List.splitOnP_nil]
  | cons a s ih =>
      rw [splitWhere, List.splitOnP_cons_eq_if_modifyHead, ← ih]
      split
      · rfl
      · cases h : splitWhere p s with
        | nil => exact absurd h (splitWhere_ne_nil p s)
        | cons piece rest => rfl

/-- No piece has a separator in it. -/
theorem eq_false_of_mem_splitWhere {s piece : List α} (h : piece ∈ splitWhere p s) :
    ∀ c ∈ piece, p c = false := by
  induction s generalizing piece with
  | nil =>
      rw [splitWhere_nil, List.mem_singleton] at h
      rw [h]
      exact fun c hc => absurd hc List.not_mem_nil
  | cons a s ih =>
      unfold splitWhere at h
      split at h
      · rcases List.mem_cons.1 h with rfl | h
        · exact fun c hc => absurd hc List.not_mem_nil
        · exact ih h
      · next ha =>
          cases hsplit : splitWhere p s with
          | nil => exact absurd hsplit (splitWhere_ne_nil p s)
          | cons first rest =>
              rw [hsplit] at h ih
              rcases List.mem_cons.1 h with rfl | h
              · refine List.forall_mem_cons.2 ⟨by simpa using ha, ih List.mem_cons_self⟩
              · exact ih (List.mem_cons_of_mem _ h)

/-- The pieces hold nothing but what is in the list. -/
theorem mem_of_mem_splitWhere {s piece : List α} (h : piece ∈ splitWhere p s) :
    ∀ c ∈ piece, c ∈ s := by
  induction s generalizing piece with
  | nil =>
      rw [splitWhere_nil, List.mem_singleton] at h
      rw [h]
      exact fun c hc => hc
  | cons a s ih =>
      unfold splitWhere at h
      split at h
      · rcases List.mem_cons.1 h with rfl | h
        · exact fun c hc => absurd hc List.not_mem_nil
        · exact fun c hc => List.mem_cons_of_mem _ (ih h c hc)
      · cases hsplit : splitWhere p s with
        | nil => exact absurd hsplit (splitWhere_ne_nil p s)
        | cons first rest =>
            rw [hsplit] at h ih
            intro c hc
            rcases List.mem_cons.1 h with rfl | h
            · rcases List.mem_cons.1 hc with rfl | hc
              · exact List.mem_cons_self
              · exact List.mem_cons_of_mem _ (ih List.mem_cons_self c hc)
            · exact List.mem_cons_of_mem _ (ih (List.mem_cons_of_mem _ h) c hc)

theorem splitWhere_cons_sep {sep : α} (hsep : p sep = true) (s : List α) :
    splitWhere p (sep :: s) = [] :: splitWhere p s := by
  rw [splitWhere, if_pos hsep]

/-- What a list has not in it separates nothing in it. -/
theorem beq_eq_false_of_not_mem [BEq α] [LawfulBEq α] {sep : α} {s : List α} (h : sep ∉ s) :
    ∀ c ∈ s, (c == sep) = false := by
  intro c hc
  rw [beq_eq_false_iff_ne]
  rintro rfl
  exact h hc

/-- A piece ends at the first separator. -/
theorem splitWhere_append_cons {piece : List α} {sep : α} (hpiece : ∀ c ∈ piece, p c = false)
    (hsep : p sep = true) (rest : List α) :
    splitWhere p (piece ++ sep :: rest) = piece :: splitWhere p rest := by
  rw [splitWhere_eq_splitOnP, splitWhere_eq_splitOnP,
    List.splitOnP_append_cons_of_forall_mem hpiece sep hsep]

/-- A beginning without separators belongs to the first piece. -/
theorem splitWhere_append {lead : List α} (h : ∀ c ∈ lead, p c = false) (s : List α) :
    ∃ first rest, splitWhere p s = first :: rest ∧
      splitWhere p (lead ++ s) = (lead ++ first) :: rest := by
  obtain ⟨first, rest, hs⟩ := List.exists_cons_of_ne_nil (splitWhere_ne_nil p s)
  refine ⟨first, rest, hs, ?_⟩
  induction lead with
  | nil => exact hs
  | cons c lead ih =>
      obtain ⟨hc, hlead⟩ := List.forall_mem_cons.1 h
      rw [List.cons_append, splitWhere, hc, ih hlead]
      rfl

/-- The pieces before a separator and those after it. -/
theorem splitWhere_append_sep {sep : α} (hsep : p sep = true) (s rest : List α) :
    splitWhere p (s ++ sep :: rest) = splitWhere p s ++ splitWhere p rest := by
  induction s with
  | nil => exact splitWhere_cons_sep hsep rest
  | cons a s ih =>
      by_cases ha : p a = true
      · rw [List.cons_append, splitWhere_cons_sep ha, splitWhere_cons_sep ha, ih]
        rfl
      · -- the element begins the first piece, with the separator behind it or without
        have hlead : ∀ c ∈ [a], p c = false := by simpa using ha
        obtain ⟨first, pieces, hs, halone⟩ := splitWhere_append hlead s
        obtain ⟨first', pieces', hs', hwhole⟩ := splitWhere_append hlead (s ++ sep :: rest)
        rw [ih, hs, List.cons_append] at hs'
        obtain ⟨rfl, rfl⟩ := List.cons.inj hs'
        rw [List.singleton_append] at halone hwhole
        rw [List.cons_append, hwhole, halone]
        rfl

theorem splitWhere_eq_singleton {piece : List α} (h : ∀ c ∈ piece, p c = false) :
    splitWhere p piece = [piece] := by
  rw [splitWhere_eq_splitOnP, List.splitOnP_eq_singleton h]

theorem splitWhere_congr {s : List α} (h : ∀ c ∈ s, p c = q c) :
    splitWhere p s = splitWhere q s := by
  induction s with
  | nil => rfl
  | cons a s ih =>
      obtain ⟨ha, hs⟩ := List.forall_mem_cons.1 h
      rw [splitWhere, splitWhere, ha, ih hs]

/-- An end without separators belongs to the last piece. -/
theorem exists_splitWhere_append {tail : List α} (h : ∀ c ∈ tail, p c = false) (s : List α) :
    ∃ front last, splitWhere p s = front ++ [last] ∧
      splitWhere p (s ++ tail) = front ++ [last ++ tail] := by
  induction s with
  | nil => exact ⟨[], [], rfl, splitWhere_eq_singleton h⟩
  | cons a s ih =>
      obtain ⟨front, last, hs, hwhole⟩ := ih
      by_cases ha : p a = true
      · refine ⟨[] :: front, last, ?_, ?_⟩
        · rw [splitWhere_cons_sep ha, hs, List.cons_append]
        · rw [List.cons_append, splitWhere_cons_sep ha, hwhole, List.cons_append]
      · -- the element is put in front of the first piece, which may be the last one, too
        cases front with
        | nil =>
            exact ⟨[], a :: last, by simp [splitWhere, ha, hs], by simp [splitWhere, ha, hwhole]⟩
        | cons first front =>
            exact ⟨(a :: first) :: front, last, by simp [splitWhere, ha, hs],
              by simp [splitWhere, ha, hwhole]⟩

end Pieces

/-- Joined pieces come back when none has the separator in it. -/
theorem splitOn_join {sep : Char} {pieces : List String} (hne : pieces ≠ [])
    (h : ∀ piece ∈ pieces, sep ∉ piece.toList) :
    splitOn sep (join (String.singleton sep) pieces) = pieces := by
  have hback : ([sep].intercalate (pieces.map String.toList)).splitOn sep =
      pieces.map String.toList :=
    List.splitOn_intercalate sep (List.forall_mem_map.2 h) (by simpa using hne)
  rw [List.splitOn_eq_splitOnP] at hback
  rw [splitOn, join, splitWhere_eq_splitOnP, String.toList_intercalate, String.toList_singleton,
    hback, List.map_map]
  exact List.map_id'' (fun piece => String.ofList_toList) pieces

theorem join_splitOn (sep : Char) (s : String) :
    join (String.singleton sep) (splitOn sep s) = s := by
  have hback : [sep].intercalate (splitWhere (· == sep) s.toList) = s.toList := by
    rw [splitWhere_eq_splitOnP]
    exact List.intercalate_splitOn sep
  apply String.toList_injective
  rw [splitOn, join, String.toList_intercalate, String.toList_singleton, List.map_map]
  exact (congrArg _ (List.map_id'' (fun _ => String.toList_ofList) _)).trans hback

/-- The pieces of a text are those without the separator that it is joined from. -/
theorem splitOn_eq_iff {sep : Char} {s : String} {pieces : List String} (hne : pieces ≠ []) :
    splitOn sep s = pieces ↔
      s = join (String.singleton sep) pieces ∧ ∀ piece ∈ pieces, sep ∉ piece.toList := by
  constructor
  · rintro rfl
    refine ⟨(join_splitOn sep s).symm, fun piece hpiece hmem => ?_⟩
    obtain ⟨chars, hchars, rfl⟩ := List.mem_map.1 hpiece
    rw [String.toList_ofList] at hmem
    simpa using eq_false_of_mem_splitWhere hchars sep hmem
  · rintro ⟨rfl, hpieces⟩
    exact splitOn_join hne hpieces

theorem exists_splitOn_append {sep : Char} {tail : String} (h : sep ∉ tail.toList) (s : String) :
    ∃ front last, splitOn sep s = front ++ [last] ∧
      splitOn sep (s ++ tail) = front ++ [last ++ tail] := by
  have htail : ∀ c ∈ tail.toList, (c == sep) = false := beq_eq_false_of_not_mem h
  obtain ⟨front, last, hs, hwhole⟩ := exists_splitWhere_append htail s.toList
  refine ⟨front.map String.ofList, String.ofList last, ?_, ?_⟩
  · rw [splitOn, hs, List.map_append, List.map_singleton]
  · rw [splitOn, String.toList_append, hwhole, List.map_append, List.map_singleton,
      String.ofList_append, String.ofList_toList]

/-- Behind the first piece each piece has a separator before it. -/
theorem toList_join_cons (sep first : String) (pieces : List String) :
    (join sep (first :: pieces)).toList =
      first.toList ++ pieces.flatMap fun piece => sep.toList ++ piece.toList := by
  induction pieces generalizing first with
  | nil => rw [join, String.intercalate_singleton, List.flatMap_nil, List.append_nil]
  | cons piece pieces ih =>
      have hrest : (String.intercalate sep (piece :: pieces)).toList = _ := ih piece
      rw [join, String.intercalate_cons_of_ne_nil (List.cons_ne_nil _ _), String.toList_append,
        String.toList_append, hrest, List.flatMap_cons, List.append_assoc, List.append_assoc]

/-- Before the last piece each piece has a separator behind it. -/
theorem join_concat (sep : String) (front : List String) (last : String) :
    join sep (front ++ [last]) = String.join (front.map (· ++ sep)) ++ last := by
  induction front with
  | nil => rw [List.nil_append, join, String.intercalate_singleton]; simp
  | cons piece front ih =>
      have hne : front ++ [last] ≠ [] := by simp
      have hrest : String.intercalate sep (front ++ [last]) = _ := ih
      rw [List.cons_append, join, String.intercalate_cons_of_ne_nil hne, hrest, List.map_cons]
      simp [String.append_assoc]

/-- The characters of joined pieces are those of the pieces and of the separator. -/
theorem mem_join {sep : String} {pieces : List String} {c : Char}
    (h : c ∈ (join sep pieces).toList) :
    c ∈ sep.toList ∨ ∃ piece ∈ pieces, c ∈ piece.toList := by
  induction pieces with
  | nil => exact absurd h List.not_mem_nil
  | cons piece pieces ih =>
      by_cases hnil : pieces = []
      · rw [hnil, join, String.intercalate_singleton] at h
        exact .inr ⟨piece, List.mem_cons_self, h⟩
      · rw [join, String.intercalate_cons_of_ne_nil hnil, String.toList_append,
          String.toList_append, List.mem_append, List.mem_append] at h
        rcases h with (hfirst | hsep) | hlater
        · exact .inr ⟨piece, List.mem_cons_self, hfirst⟩
        · exact .inl hsep
        · rcases ih hlater with hsep | ⟨other, hother, hin⟩
          · exact .inl hsep
          · exact .inr ⟨other, List.mem_cons_of_mem _ hother, hin⟩

/-! ## Beginnings -/

theorem after?_isSome_iff {α : Type} [DecidableEq α] {lead s : List α} :
    (after? lead s).isSome ↔ lead <+: s := by
  rw [Option.isSome_iff_exists]
  constructor
  · rintro ⟨rest, h⟩
    exact ⟨rest, (eq_append_of_after? h).symm⟩
  · rintro ⟨rest, rfl⟩
    exact ⟨rest, after?_append lead rest⟩

theorem dropLead?_eq_some_iff {lead s rest : String} :
    dropLead? lead s = some rest ↔ s = lead ++ rest := by
  rw [dropLead?, Option.map_eq_some_iff]
  constructor
  · rintro ⟨back, hback, rfl⟩
    rw [← String.ofList_toList (s := s), eq_append_of_after? hback, String.ofList_append,
      String.ofList_toList]
  · rintro rfl
    exact ⟨rest.toList, by rw [String.toList_append, after?_append], String.ofList_toList⟩

theorem startsWith_iff {s lead : String} : startsWith s lead = true ↔ lead.toList <+: s.toList :=
  after?_isSome_iff

theorem startsWith_trans {s lead longer : String} (h : startsWith s longer = true)
    (hlead : startsWith longer lead = true) : startsWith s lead = true :=
  startsWith_iff.2 ((startsWith_iff.1 hlead).trans (startsWith_iff.1 h))

theorem startsWith_append (lead rest : String) : startsWith (lead ++ rest) lead = true := by
  rw [startsWith_iff, String.toList_append]
  exact List.prefix_append _ _

/-- What precedes the last separator is what precedes a separator with none after it. -/
theorem beforeLast?_eq_some_iff {α : Type} [DecidableEq α] {sep : α} {s front : List α} :
    beforeLast? sep s = some front ↔ ∃ back, s = front ++ sep :: back ∧ sep ∉ back := by
  unfold beforeLast?
  constructor
  · intro h
    split at h
    · cases h
    · next b rest hdrop =>
        cases h
        have hb : b = sep := by
          have hhead := List.head?_dropWhile_not (· ≠ sep) s.reverse
          rw [hdrop] at hhead
          simpa using hhead
        have hs := List.takeWhile_append_dropWhile (p := (· ≠ sep)) (l := s.reverse)
        rw [hdrop, hb] at hs
        refine ⟨(s.reverse.takeWhile (· ≠ sep)).reverse, ?_, ?_⟩
        · simpa using (congrArg List.reverse hs).symm
        · intro hmem
          simpa using List.mem_takeWhile_imp (List.mem_reverse.1 hmem)
  · rintro ⟨back, rfl, hback⟩
    have hdrop : (front ++ sep :: back).reverse.dropWhile (· ≠ sep) = sep :: front.reverse := by
      rw [List.reverse_append, List.reverse_cons, List.append_assoc,
        List.dropWhile_append_of_pos]
      · simp
      · intro a ha
        simpa using fun (h : a = sep) => hback (h ▸ List.mem_reverse.1 ha)
    rw [hdrop]
    simp

/-! ## Replacing -/

/-- What begins with an element that does not come again cannot begin before it is there. -/
theorem isPrefix_of_isPrefix_append {α : Type} {a : α} {tail front rest : List α} (ha : a ∉ tail)
    (h : tail <+: front ++ a :: rest) : tail <+: front := by
  rcases List.prefix_or_prefix_of_prefix h (List.prefix_append front _) with hfront | ⟨more, hmore⟩
  · exact hfront
  · -- the rest of `tail` after `front` would have to begin with `a`
    rw [← hmore, List.prefix_append_right_inj] at h
    cases more with
    | nil =>
        have hsame : front = tail := (List.append_nil front).symm.trans hmore
        exact hsame ▸ List.prefix_refl front
    | cons b more =>
        obtain ⟨rfl, -⟩ := List.cons_prefix_cons.1 h
        exact absurd (hmore ▸ List.mem_append_right _ List.mem_cons_self) ha

section Replacing

variable {α : Type} [DecidableEq α]

theorem replaceFirst_cases (old new s : List α) :
    replaceFirst old new s = s ∨
      ∃ front back, s = front ++ old ++ back ∧ replaceFirst old new s = front ++ new ++ back := by
  induction s with
  | nil => exact .inl rfl
  | cons a s ih =>
      rw [replaceFirst]
      split
      · next rest hafter =>
          exact .inr ⟨[], rest, eq_append_of_after? hafter, rfl⟩
      · rcases ih with hsame | ⟨front, back, hs, hreplaced⟩
        · exact .inl (by rw [hsame])
        · exact .inr ⟨a :: front, back, by rw [hs]; rfl, by rw [hreplaced]; rfl⟩

/-- The occurrence after a text in which there is none is the first one, if it cannot overlap
    with others. -/
theorem replaceFirst_append {a : α} {tail new front rest : List α} (ha : a ∉ tail)
    (h : ¬ a :: tail <:+: front) :
    replaceFirst (a :: tail) new (front ++ (a :: tail ++ rest)) = front ++ (new ++ rest) := by
  induction front with
  | nil =>
      have hafter : after? (a :: tail) (a :: (tail ++ rest)) = some rest :=
        after?_append (a :: tail) rest
      rw [List.nil_append, List.cons_append, replaceFirst, hafter]
      rfl
  | cons c front ih =>
      rw [List.infix_cons_iff, not_or] at h
      obtain ⟨hhead, hlater⟩ := h
      have hafter : after? (a :: tail) (c :: (front ++ (a :: tail ++ rest))) = none := by
        rw [← Option.not_isSome_iff_eq_none, after?_isSome_iff, List.cons_prefix_cons]
        rintro ⟨rfl, hbegins⟩
        exact hhead (List.cons_prefix_cons.2 ⟨rfl, isPrefix_of_isPrefix_append ha hbegins⟩)
      rw [List.cons_append, replaceFirst, hafter]
      exact congrArg (c :: ·) (ih hlater)

/-- A part of a list has a first occurrence in it. -/
theorem exists_first_infix {old s : List α} (hne : old ≠ []) (h : old <:+: s) :
    ∃ front back, s = front ++ (old ++ back) ∧ ¬ old <:+: front := by
  induction s with
  | nil => exact absurd (List.infix_nil.1 h) hne
  | cons c s ih =>
      by_cases hhead : old <+: c :: s
      · obtain ⟨back, hback⟩ := hhead
        exact ⟨[], back, hback.symm, fun hnil => hne (List.infix_nil.1 hnil)⟩
      · obtain ⟨front, back, rfl, hfirst⟩ := ih ((List.infix_cons_iff.1 h).resolve_left hhead)
        refine ⟨c :: front, back, rfl, fun hin => ?_⟩
        rcases List.infix_cons_iff.1 hin with hbegins | hinfix
        · exact hhead (hbegins.trans (List.prefix_append (c :: front) (old ++ back)))
        · exact hfirst hinfix

end Replacing

/-! ## Numerals -/

theorem toString_injective : Function.Injective (toString : Nat → String) := by
  intro m n h
  have hrepr : m.repr = n.repr := h
  have hdigits : Nat.toDigits 10 m = Nat.toDigits 10 n := by
    rw [← Nat.toList_repr, ← Nat.toList_repr, hrepr]
  calc m = Nat.ofDigitChars 10 (Nat.toDigits 10 m) 0 := (Nat.ofDigitChars_ten_toDigits).symm
    _ = n := by rw [hdigits, Nat.ofDigitChars_ten_toDigits]

/-- The numeral of a number has nothing but digits in it. -/
theorem not_mem_toString {c : Char} (hc : c.isDigit = false) (n : Nat) :
    c ∉ (toString n).toList := by
  intro hmem
  have hdigits : (toString n).toList = Nat.toDigits 10 n := Nat.toList_repr
  rw [hdigits] at hmem
  rw [Nat.isDigit_of_mem_toDigits (by decide) (by decide) hmem] at hc
  cases hc

/-! ## Words -/

theorem mem_words {s word : String} (h : word ∈ words s) :
    word ≠ "" ∧ ∀ c ∈ word.toList, isBlank c = false := by
  obtain ⟨piece, hpiece, rfl⟩ := List.mem_map.1 h
  obtain ⟨hmem, hne⟩ := List.mem_filter.1 hpiece
  rw [String.toList_ofList]
  refine ⟨?_, eq_false_of_mem_splitWhere hmem⟩
  intro hempty
  rw [← String.ofList_nil, String.ofList_inj] at hempty
  rw [hempty] at hne
  cases hne

/-- A blank at the end begins no word. -/
theorem words_append_singleton {c : Char} (hc : isBlank c = true) (s : String) :
    words (s ++ String.singleton c) = words s := by
  have hcut : splitWhere isBlank (s.toList ++ [c]) = splitWhere isBlank s.toList ++ [[]] :=
    splitWhere_append_sep hc s.toList []
  rw [words, String.toList_append, String.toList_singleton, hcut, List.filter_append, words]
  simp

theorem words_append_return (s : String) : words (s ++ "\r") = words s := by
  have hreturn : "\r" = String.singleton '\r' := rfl
  rw [hreturn, words_append_singleton (by decide)]

/-- The words are the pieces between blanks that are not empty. -/
theorem words_eq_filter (s : String) :
    words s = ((splitWhere isBlank s.toList).map String.ofList).filter (· ≠ "") := by
  rw [words, List.filter_map]
  congr 1
  refine List.filter_congr fun piece _ => ?_
  cases piece with
  | nil => rfl
  | cons c piece => simp

/-- Tokens that are not empty and have no blank characters in them. -/
def AreWords (tokens : List String) : Prop :=
  ∀ token ∈ tokens, token ≠ "" ∧ ∀ c ∈ token.toList, isBlank c = false

theorem areWords_words (s : String) : AreWords (words s) :=
  fun _ h => mem_words h

/-- The only blanks between joined words are the spaces. -/
theorem AreWords.eq_space_or_not_blank {tokens : List String} (h : AreWords tokens) {c : Char}
    (hc : c ∈ (join " " tokens).toList) : c = ' ' ∨ isBlank c = false := by
  rcases mem_join hc with hspace | ⟨token, htoken, hin⟩
  · exact .inl (List.mem_singleton.1 hspace)
  · exact .inr ((h token htoken).2 c hin)

theorem AreWords.not_mem_join {tokens : List String} (h : AreWords tokens) {c : Char}
    (hc : c ≠ ' ') (hblank : isBlank c = true) : c ∉ (join " " tokens).toList := by
  intro hmem
  rcases h.eq_space_or_not_blank hmem with hspace | hnot
  · exact hc hspace
  · rw [hblank] at hnot
    cases hnot

/-- Joined words are cut apart at the spaces again. No words are one empty piece. -/
theorem AreWords.splitOn_join {tokens : List String} (h : AreWords tokens) :
    splitOn ' ' (join " " tokens) = if tokens = [] then [""] else tokens := by
  split
  · next hnil =>
      rw [hnil]
      rfl
  · next hne =>
      refine Text.splitOn_join hne fun token htoken hspace => ?_
      have hblank := (h token htoken).2 ' ' hspace
      revert hblank
      decide

/-- Words that have been joined are the words of the text. -/
theorem AreWords.words_join {tokens : List String} (h : AreWords tokens) :
    words (join " " tokens) = tokens := by
  -- only the spaces between the tokens are blanks
  have hcut : splitWhere isBlank (join " " tokens).toList =
      splitWhere (· == ' ') (join " " tokens).toList := by
    refine splitWhere_congr fun c hc => ?_
    rcases h.eq_space_or_not_blank hc with rfl | hnot
    · rfl
    · rw [hnot, eq_comm, beq_eq_false_iff_ne]
      rintro rfl
      cases hnot
  have hpieces : words (join " " tokens) = (splitOn ' ' (join " " tokens)).filter (· ≠ "") := by
    rw [words_eq_filter, hcut, splitOn]
  rw [hpieces, h.splitOn_join]
  split
  · next hnil =>
      rw [hnil]
      rfl
  · rw [List.filter_eq_self]
    intro token htoken
    simpa using (h token htoken).1

/-! ## Trimming -/

variable {α : Type} {p : α → Bool}

/-- What is trimmed from the right end of two lists goes on into the first one only if nothing of
    the second is left. -/
theorem rdropWhile_append (p : α → Bool) (s t : List α) :
    (s ++ t).rdropWhile p =
      if t.rdropWhile p = [] then s.rdropWhile p else s ++ t.rdropWhile p := by
  unfold List.rdropWhile
  rw [List.reverse_append, List.dropWhile_append]
  cases hrest : t.reverse.dropWhile p with
  | nil => simp
  | cons a rest => simp

theorem exists_trimRightWhere_append (p : α → Bool) (s : List α) :
    ∃ back, (∀ a ∈ back, p a = true) ∧ s = trimRightWhere p s ++ back :=
  ⟨s.rtakeWhile p, fun _ => List.mem_rtakeWhile_imp, List.rdropWhile_append_rtakeWhile.symm⟩

theorem trimRightWhere_append {s back : List α} (h : ∀ a ∈ back, p a = true) :
    trimRightWhere p (s ++ back) = trimRightWhere p s :=
  (rdropWhile_append p s back).trans (if_pos (List.rdropWhile_eq_nil_iff.2 h))

theorem dropWhile_trimWhere (p : α → Bool) (s : List α) :
    (trimWhere p s).dropWhile p = trimWhere p s := by
  have hfront : trimWhere p s <+: s.dropWhile p := List.rdropWhile_prefix p _
  rw [List.dropWhile_eq_self_iff]
  intro hlength
  -- the first element that is left is also the first after trimming on the left only
  rw [hfront.getElem hlength]
  exact List.dropWhile_get_zero_not p s _

theorem trimWhere_trimWhere (p : α → Bool) (s : List α) :
    trimWhere p (trimWhere p s) = trimWhere p s :=
  calc trimWhere p (trimWhere p s)
      = ((trimWhere p s).dropWhile p).rdropWhile p := rfl
    _ = (trimWhere p s).rdropWhile p := by rw [dropWhile_trimWhere]
    _ = trimWhere p s := List.rdropWhile_idempotent p _

/-- What is trimmed away satisfies the predicate everywhere. -/
theorem forall_of_trimWhere_eq_nil {s : List α} (h : trimWhere p s = []) : ∀ a ∈ s, p a = true := by
  rw [trimWhere, List.reverse_eq_nil_iff, List.dropWhile_eq_nil_iff] at h
  intro a ha
  rw [← List.takeWhile_append_dropWhile (p := p) (l := s), List.mem_append] at ha
  rcases ha with hfront | hback
  · exact List.mem_takeWhile_imp hfront
  · exact h a (List.mem_reverse.2 hback)

/-- A text that is trimmed away is blank. -/
theorem isBlank_of_isEmpty_trim {s : String} (h : (trim s).isEmpty = true) :
    ∀ c ∈ s.toList, isBlank c = true := by
  rw [String.isEmpty_iff, trim, ← String.ofList_nil, String.ofList_inj] at h
  exact forall_of_trimWhere_eq_nil h

/-- Of a blank text nothing is left. -/
theorem isEmpty_trim_iff {s : String} :
    (trim s).isEmpty = true ↔ ∀ c ∈ s.toList, isBlank c = true := by
  constructor
  · exact isBlank_of_isEmpty_trim
  · intro h
    rw [trim, trimWhere, List.dropWhile_eq_nil_iff.2 h]
    rfl

end ParseBench.Text
