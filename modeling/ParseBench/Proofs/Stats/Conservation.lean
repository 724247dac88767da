/-
  ParseBench.Proofs.Stats.Conservation

  What the counts of parameters add up to. Every parameter of a program stands inside of a
  filter or outside of one, so the two totals together are the parameters of the program
  (`Counts.conserved`), whatever device is selected. The selected ones are among them, and they
  are listed in the order of the program. A selection takes a parameter for the tokens before
  it (`selects`), so a selection that takes more takes it too, and no number gets smaller
  (`Counts.atMost`). The filter a parameter stands in was begun by a keyword before it that
  nothing has ended since (`inFilter_eq_true_iff`).
-/

import ParseBench.Proofs.Stats.ParameterCount

namespace ParseBench

namespace ParameterCount

open Program

variable {c d : ParameterCount} {p front : Program} {counted narrow wide : Program → Bool}

/-! ## Parameters in their places -/

/-- The parameters in order are the parameter tokens of the program. -/
theorem map_snd_parameters (p : Program) : (parameters p).map (·.2) = p.filter isParameter := by
  induction p with
  | nil => rfl
  | cons token p ih =>
      have hrest : ((parameters p).map (Prod.map (token :: ·) id)).map (·.2) =
          p.filter isParameter := by
        rw [List.map_map, ← ih]
        rfl
      rw [parameters_cons, List.map_append, hrest, List.filter_cons]
      by_cases htoken : isParameter token = true
      · rw [if_pos htoken, if_pos htoken]
        rfl
      · rw [if_neg htoken, if_neg htoken]
        rfl

theorem length_parameters (p : Program) : (parameters p).length = p.countP isParameter := by
  rw [List.countP_eq_length_filter, ← map_snd_parameters, List.length_map]

/-- A filter was begun before, and no function, no device and no closing parenthesis came
    after that. -/
def Filtered (front : Program) : Prop :=
  ∃ before between, front = before ++ "filter" :: between ∧
    ∀ token ∈ between, Text.startsWith token "@" = false ∧ token ≠ ")"

theorem filtered_concat {token : String} :
    Filtered (front ++ [token]) ↔
      token = "filter" ∨ (Text.startsWith token "@" = false ∧ token ≠ ")") ∧ Filtered front := by
  constructor
  · rintro ⟨before, between, hsplit, hbetween⟩
    -- the last token is the keyword itself, or it is the last one after the keyword
    rcases List.eq_nil_or_concat between with rfl | ⟨middle, last, rfl⟩
    · have hlast := List.append_inj_right' hsplit rfl
      left
      exact List.singleton_inj.1 hlast
    · rw [List.concat_eq_append] at hsplit hbetween
      rw [← List.cons_append, ← List.append_assoc] at hsplit
      obtain ⟨hfront, hlast⟩ := List.append_inj' hsplit rfl
      obtain rfl := List.singleton_inj.1 hlast
      have hmiddle : ∀ t ∈ middle, Text.startsWith t "@" = false ∧ t ≠ ")" :=
        fun t ht => hbetween t (List.mem_append_left _ ht)
      right
      exact ⟨hbetween token (by simp), before, middle, hfront, hmiddle⟩
  · rintro (rfl | ⟨hquiet, before, between, rfl, hbetween⟩)
    · exact ⟨front, [], rfl, by simp⟩
    · refine ⟨before, between ++ [token], by simp, ?_⟩
      intro t ht
      rcases List.mem_append.1 ht with hmem | hlast
      · exact hbetween t hmem
      · rw [List.mem_singleton.1 hlast]
        exact hquiet

/-- Only a keyword that nothing has ended since has its filter open. By induction on the tokens
    from the last one backwards, as the places are. -/
theorem inFilter_eq_true_iff : inFilter front = true ↔ Filtered front := by
  induction front using List.reverseRecOn with
  | nil =>
      constructor
      · intro h
        cases h
      · rintro ⟨before, between, hnil, -⟩
        exact absurd hnil (by simp)
  | append_singleton front token ih =>
      rw [inFilter_concat, filtered_concat, ← ih]
      by_cases hend : (Text.startsWith token "@" || token == ")") = true
      · -- the keyword is no such token, so nothing is left of the filter
        have hkeyword : token ≠ "filter" := by
          rintro rfl
          revert hend
          decide
        have hnot : ¬ (Text.startsWith token "@" = false ∧ token ≠ ")") := by
          rintro ⟨hat, hclose⟩
          simp [hat, hclose] at hend
        rw [if_pos hend]
        simp [hkeyword, hnot]
      · have hquiet : Text.startsWith token "@" = false ∧ token ≠ ")" := by simpa using hend
        rw [if_neg hend]
        by_cases hkeyword : token = "filter"
        · simp [hkeyword]
        · simp [hkeyword, hquiet]

instance : DecidablePred Filtered := fun _ => decidable_of_iff _ inFilter_eq_true_iff

/-! ## Sums -/

/-- The numbers are those of the program's parameters: together the totals count each of them
    once, and the selected ones are among them. -/
structure Conserved (c : ParameterCount) (p : Program) : Prop where
  total : c.totalParams + c.totalFilters = p.countP isParameter
  totalFilters : c.totalFilters = (parameters p).countP fun t => decide (Filtered t.1)
  params_le : c.params ≤ c.totalParams
  filters_le : c.filters ≤ c.totalFilters
  combination_sublist : c.combination.Sublist (p.filter isParameter)
  length_combination : c.combination.length = c.params + c.filters

/-- No number is greater than that of `d`, and what is listed is listed there in the same
    order. -/
structure AtMost (c d : ParameterCount) : Prop where
  params_le : c.params ≤ d.params
  filters_le : c.filters ≤ d.filters
  combination_sublist : c.combination.Sublist d.combination

theorem Counts.conserved (h : c.Counts p counted) : c.Conserved p := by
  constructor
  case total =>
    have hsplit := List.length_eq_countP_add_countP (fun t : Program × String => inFilter t.1)
      (l := parameters p)
    simp only [Bool.not_eq_true, Bool.decide_eq_false] at hsplit
    rw [h.totalParams, h.totalFilters, ← length_parameters]
    omega
  case totalFilters =>
    rw [h.totalFilters]
    apply List.countP_congr
    intro t _
    rw [decide_eq_true_iff]
    exact inFilter_eq_true_iff
  case params_le =>
    rw [h.params, h.totalParams]
    apply List.countP_mono_left
    intro t _ ht
    exact (Bool.and_eq_true_iff.1 ht).2
  case filters_le =>
    rw [h.filters, h.totalFilters]
    apply List.countP_mono_left
    intro t _ ht
    exact (Bool.and_eq_true_iff.1 ht).2
  case combination_sublist =>
    rw [h.combination, ← map_snd_parameters]
    exact List.filter_sublist.map _
  case length_combination =>
    -- of those that are listed, some stand in filters and the others do not
    have hsplit := List.length_eq_countP_add_countP (fun t : Program × String => inFilter t.1)
      (l := (parameters p).filter fun t => counted t.1)
    simp only [Bool.not_eq_true, Bool.decide_eq_false, List.countP_filter] at hsplit
    rw [h.combination, List.length_map, h.params, h.filters, hsplit, Nat.add_comm]
    simp only [Bool.and_comm]

/-- A selection that takes whatever another one takes has no smaller numbers. -/
theorem Counts.atMost (himp : ∀ front, narrow front = true → wide front = true)
    (h : c.Counts p narrow) (h' : d.Counts p wide) : c.AtMost d := by
  constructor
  case params_le =>
    rw [h.params, h'.params]
    apply List.countP_mono_left
    intro t _ ht
    obtain ⟨hcounted, houtside⟩ := Bool.and_eq_true_iff.1 ht
    exact Bool.and_eq_true_iff.2 ⟨himp t.1 hcounted, houtside⟩
  case filters_le =>
    rw [h.filters, h'.filters]
    apply List.countP_mono_left
    intro t _ ht
    obtain ⟨hcounted, hinside⟩ := Bool.and_eq_true_iff.1 ht
    exact Bool.and_eq_true_iff.2 ⟨himp t.1 hcounted, hinside⟩
  case combination_sublist =>
    rw [h.combination, h'.combination]
    have hsub : ((parameters p).filter fun t => narrow t.1).Sublist
        ((parameters p).filter fun t => wide t.1) :=
      List.monotone_filter_right _ fun t => himp t.1
    exact hsub.map _

theorem Counts.totals_eq (h : c.Counts p narrow) (h' : d.Counts p wide) :
    c.totalParams = d.totalParams ∧ c.totalFilters = d.totalFilters :=
  ⟨h.totalParams.trans h'.totalParams.symm, h.totalFilters.trans h'.totalFilters.symm⟩

/-! ## Selections -/

variable {device wider : Option String}

/-- The selection by `wider` takes in that by `device`: it is by a beginning of the latter, or
    nothing is selected. -/
def Widens (device wider : Option String) : Prop :=
  ∀ lead ∈ wider, ∃ longer ∈ device, Text.startsWith longer lead = true

/-- What begins like the longer one begins like the shorter one. -/
theorem selects_of_widens (h : Widens device wider) {front : Program}
    (hselects : selects device front = true) : selects wider front = true := by
  cases wider with
  | none => rfl
  | some lead =>
      obtain ⟨longer, rfl, hbegins⟩ := h lead rfl
      obtain ⟨owner, howner, hlonger⟩ := (Option.any_eq_true _ _).1 hselects
      have hlead := Text.startsWith_trans hlonger hbegins
      rw [selects, howner, Option.any_some, hlead]

/-- Every parameter is counted once in the totals, as one inside of a filter if a filter was
    begun before it and has not ended; the totals are the same for all selections. What is
    selected is a part of that, all of it where no device is selected, and it only grows when
    the selection is by a shorter beginning. -/
theorem counts_conserved (p : Program) :
    (∀ device, (∀ lead ∈ device, Text.startsWith lead "@" = true) →
      (ofProgram p device).Conserved p ∧
      (ofProgram p device).totalParams = (ofProgram p none).totalParams ∧
      (ofProgram p device).totalFilters = (ofProgram p none).totalFilters) ∧
    (ofProgram p none).params = (ofProgram p none).totalParams ∧
    (ofProgram p none).filters = (ofProgram p none).totalFilters ∧
    ∀ device wider, (∀ lead ∈ device, Text.startsWith lead "@" = true) →
      (∀ lead ∈ wider, Text.startsWith lead "@" = true) → Widens device wider →
      (ofProgram p device).AtMost (ofProgram p wider) := by
  have hall : (ofProgram p none).Counts p (selects none) :=
    counts_ofProgram (fun lead hnone => by cases hnone) p
  refine ⟨?conserved, ?params, ?filters, ?grows⟩
  case conserved =>
    intro device hlead
    have hcounts := counts_ofProgram hlead p
    exact ⟨hcounts.conserved, hcounts.totals_eq hall⟩
  case params =>
    rw [hall.params, hall.totalParams]
    rfl
  case filters =>
    rw [hall.filters, hall.totalFilters]
    rfl
  case grows =>
    intro device wider hlead hlead' hwidens
    have hcounts := counts_ofProgram hlead p
    have hcounts' := counts_ofProgram hlead' p
    exact hcounts.atMost (fun front => selects_of_widens hwidens) hcounts'

theorem counts_conserved_comicTweet :
    (ofProgram comicTweet (some "@twitter")).Conserved comicTweet ∧
      (ofProgram comicTweet (some "@twitter")).totalFilters = 2 ∧
      Widens (some "@twitter") (some "@") ∧
      (ofProgram comicTweet (some "@twitter")).AtMost (ofProgram comicTweet (some "@")) := by
  obtain ⟨hconserved, -, -, hgrows⟩ := counts_conserved comicTweet
  have hlead : ∀ lead ∈ some "@twitter", Text.startsWith lead "@" = true := by decide
  have hshorter : ∀ lead ∈ some "@", Text.startsWith lead "@" = true := by decide
  have hwidens : Widens (some "@twitter") (some "@") := by
    intro lead hmem
    cases hmem
    exact ⟨"@twitter", rfl, by decide⟩
  refine ⟨(hconserved _ hlead).1, ?_, hwidens, hgrows _ _ hlead hshorter hwidens⟩
  rw [(hconserved _ hlead).1.totalFilters]
  decide +kernel

end ParameterCount

end ParseBench
