/-
  ParseBench.Proofs.Score.Reordering

  The order of the data has no part in a score. Lists are shuffled by a permutation of places
  (`Shuffles`); where it shuffles gold examples and predictions alike, the pairs are the same
  ones in another order. Metrics depend on the programs of the pairs and of the gold examples
  only, each as often as it is there (`metrics_congr`), so they stay, and the lines are shuffled
  as the data is. Ids and sentences have no part in them either.
-/

import ParseBench.Proofs.Score.Levels

namespace ParseBench.Score

/-! ## Shuffled lists -/

section Shuffles

variable {α β : Type} {σ : Equiv.Perm Nat} {s t : List α}

/-- The second list has at each place what the first one has at the place that `σ` leads to.
    So `σ` leads the places of the lists to places of the lists. -/
def Shuffles (σ : Equiv.Perm Nat) (s t : List α) : Prop :=
  ∀ i : Nat, t[i]? = s[σ i]?

/-- A list is what it has at its places, one after the other. -/
theorem filterMap_range (s : List α) : (List.range s.length).filterMap (fun i => s[i]?) = s := by
  induction s with
  | nil => rfl
  | cons a s ih =>
      have hfirst : (a :: s)[0]? = some a := rfl
      rw [List.length_cons, List.range_succ_eq_map, List.filterMap_cons_some hfirst,
        List.filterMap_map]
      exact congrArg (a :: ·) ih

namespace Shuffles

theorem lt_iff (h : Shuffles σ s t) (i : Nat) : i < t.length ↔ σ i < s.length := by
  rw [← not_iff_not, Nat.not_lt, Nat.not_lt, ← List.getElem?_eq_none_iff,
    ← List.getElem?_eq_none_iff, h i]

theorem map (h : Shuffles σ s t) (f : α → β) : Shuffles σ (s.map f) (t.map f) := by
  intro i
  rw [List.getElem?_map, List.getElem?_map, h i]

theorem zip {u v : List β} (h : Shuffles σ s t) (h' : Shuffles σ u v) :
    Shuffles σ (s.zip u) (t.zip v) := by
  intro i
  ext pair
  rw [List.getElem?_zip_eq_some, List.getElem?_zip_eq_some, h i, h' i]

/-- The places in the other order. -/
theorem range_perm (h : Shuffles σ s t) :
    ((List.range t.length).map σ).Perm (List.range s.length) := by
  rw [List.perm_ext_iff_of_nodup (List.nodup_range.map σ.injective) List.nodup_range]
  intro j
  rw [List.mem_map, List.mem_range]
  constructor
  · rintro ⟨i, hi, rfl⟩
    exact (h.lt_iff i).1 (List.mem_range.1 hi)
  · intro hj
    -- the place that `σ` leads to `j` from is one of the second list
    refine ⟨σ.symm j, List.mem_range.2 ((h.lt_iff _).2 ?_), σ.apply_symm_apply j⟩
    rwa [σ.apply_symm_apply]

theorem perm (h : Shuffles σ s t) : t.Perm s :=
  calc t = (List.range t.length).filterMap (fun i => t[i]?) := (filterMap_range t).symm
    _ = ((List.range t.length).map σ).filterMap (fun i => s[i]?) := by
        rw [List.filterMap_map]
        exact List.filterMap_congr fun i _ => h i
    _ |>.Perm ((List.range s.length).filterMap (fun i => s[i]?)) := h.range_perm.filterMap _
    _ = s := filterMap_range s

end Shuffles

end Shuffles

/-! ## Metrics -/

variable {g : ProgramGrammar} {gold gold' : List Example} {predictions predictions' : List Program}
variable {pairs pairs' : List Pair}

/-- The gold program and the prediction of a pair. -/
def programs (pair : Pair) : Program × Program :=
  (pair.1.program, pair.2)

/-- An outcome depends on the two programs only. -/
def judgePrograms (g : ProgramGrammar) (both : Program × Program) : Outcome :=
  .judge both.1 both.2 (!both.2.isEmpty && g.compare both.1 both.2)

theorem map_outcome (pairs : List Pair) :
    pairs.map (outcome g) = (pairs.map programs).map (judgePrograms g) := by
  rw [List.map_map]
  rfl

theorem map_exact (pairs : List Pair) :
    (pairs.filter fun pair => (outcome g pair).full).map (·.2) =
      ((pairs.map programs).filter fun both => (judgePrograms g both).full).map (·.2) := by
  rw [List.filter_map, List.map_map]
  rfl

theorem length_eraseDups_congr {l l' : List Program} (h : l.Perm l') :
    l.eraseDups.length = l'.eraseDups.length := by
  rw [length_eraseDups, length_eraseDups, List.toFinset_eq_of_perm l l' h]

/-- Metrics count programs: the order of examples and pairs, ids and sentences have no part. -/
theorem metrics_congr (hgold : (gold.map Example.program).Perm (gold'.map Example.program))
    (hpairs : (pairs.map programs).Perm (pairs'.map programs)) :
    metrics g gold pairs = metrics g gold' pairs' := by
  have hlength : pairs.length = pairs'.length := by
    simpa using hpairs.length_eq
  have hpassing : ∀ level : Outcome → Bool,
      passing level (pairs.map (outcome g)) = passing level (pairs'.map (outcome g)) := by
    intro level
    rw [map_outcome, map_outcome]
    exact (hpairs.map _).countP_eq level
  have hexact : (correctPrograms g pairs).length = (correctPrograms g pairs').length := by
    rw [correctPrograms, correctPrograms, map_exact, map_exact]
    exact length_eraseDups_congr ((hpairs.filter _).map _)
  have hdistinct : (goldPrograms gold).length = (goldPrograms gold').length :=
    length_eraseDups_congr hgold
  simp only [metrics, hlength, hpassing, hexact, hdistinct]

/-- A score without its lines: lengths and metrics decide it. -/
theorem map_metrics_score (g : ProgramGrammar) (gold : List Example) (predictions : List Program) :
    (score g gold predictions).map Prod.snd =
      if predictions.length = 0 then .error Cause.noPredictions
      else if gold.length < predictions.length then
        .error (Cause.tooManyPredictions predictions.length gold.length)
      else .ok (metrics g gold (gold.zip predictions)) := by
  have hempty : predictions.isEmpty = true ↔ predictions.length = 0 := by
    rw [List.isEmpty_iff, List.length_eq_zero_iff]
  unfold score
  by_cases hzero : predictions.length = 0
  · rw [if_pos hzero, if_pos (hempty.2 hzero)]
    rfl
  · rw [if_neg hzero, if_neg (mt hempty.1 hzero)]
    split <;> rfl

theorem score_congr (hpredictions : predictions.length = predictions'.length)
    (hlength : gold.length = gold'.length)
    (hmetrics : metrics g gold (gold.zip predictions) = metrics g gold' (gold'.zip predictions')) :
    (score g gold predictions).map Prod.snd = (score g gold' predictions').map Prod.snd := by
  rw [map_metrics_score, map_metrics_score, hpredictions, hlength, hmetrics]

/-- Shuffling the gold examples and the predictions alike leaves the score as it is, an error
    included, and shuffles the lines in the same way. Other ids and sentences leave it as it is
    as well. -/
theorem score_shuffled {σ : Equiv.Perm Nat} (hgold : Shuffles σ gold gold')
    (hpredictions : Shuffles σ predictions predictions') :
    (score g gold' predictions').map Prod.snd = (score g gold predictions).map Prod.snd ∧
    (∀ lines m lines' m', score g gold predictions = .ok (lines, m) →
      score g gold' predictions' = .ok (lines', m') → Shuffles σ lines lines') ∧
    ∀ relabelled : List Example, relabelled.map Example.program = gold.map Example.program →
      (score g relabelled predictions).map Prod.snd = (score g gold predictions).map Prod.snd := by
  have hzip := hgold.zip hpredictions
  refine ⟨?_, ?_, ?_⟩
  · apply score_congr hpredictions.perm.length_eq hgold.perm.length_eq
    exact metrics_congr (hgold.map _).perm (hzip.map _).perm
  · intro lines m lines' m' hscore hscore'
    obtain ⟨-, -, rfl, -⟩ := score_eq_ok_iff.1 hscore
    obtain ⟨-, -, rfl, -⟩ := score_eq_ok_iff.1 hscore'
    exact hzip.map _
  · intro relabelled hrelabelled
    have hlength : relabelled.length = gold.length := by
      simpa using congrArg List.length hrelabelled
    have hprograms : ∀ gold : List Example, (gold.zip predictions).map programs =
        (gold.map Example.program).zip predictions := by
      intro gold
      rw [List.zip_map_left]
      rfl
    apply score_congr rfl hlength
    refine metrics_congr (.of_eq hrelabelled) (.of_eq ?_)
    rw [hprograms, hprograms, hrelabelled]

/-! ## Comics and tweets in another order -/

/-- Exchanges the first two of four places, and the last two. -/
def exchange : Equiv.Perm Nat :=
  (Equiv.swap 0 1).trans (Equiv.swap 2 3)

theorem exchange_add_four (i : Nat) : exchange (i + 4) = i + 4 := by
  have hfirst : Equiv.swap 0 1 (i + 4) = i + 4 :=
    Equiv.swap_apply_of_ne_of_ne (by omega) (by omega)
  have hlast : Equiv.swap 2 3 (i + 4) = i + 4 :=
    Equiv.swap_apply_of_ne_of_ne (by omega) (by omega)
  rw [exchange, Equiv.trans_apply, hfirst, hlast]

theorem shuffles_exchange {α : Type} {s t : List α} (hs : s.length ≤ 4) (ht : t.length ≤ 4)
    (h : ∀ i < 4, t[i]? = s[exchange i]?) : Shuffles exchange s t := by
  intro i
  by_cases hi : i < 4
  · exact h i hi
  · obtain ⟨j, rfl⟩ := Nat.exists_eq_add_of_le' (Nat.not_lt.1 hi)
    rw [exchange_add_four, List.getElem?_eq_none (by omega), List.getElem?_eq_none (by omega)]

/-- Gold examples for two predictions, and two more. -/
def moreGold : List Example :=
  comicsGold ++ [⟨"4", ["stop"], ["now"]⟩]

def exchangedGold : List Example :=
  [⟨"2", ["look", "for", "tweets"], ["@twitter.search", "notify"]⟩,
    ⟨"1", ["search", "twitter"], ["@twitter.search", "notify"]⟩, ⟨"4", ["stop"], ["now"]⟩,
    ⟨"3", ["get", "a", "comic"], ["@xkcd.get_comic", "notify"]⟩]

theorem score_shuffled_comics :
    ∃ predictions' lines lines' m m', Shuffles exchange moreGold exchangedGold ∧
      Shuffles exchange (comicsPredictions.take 2) predictions' ∧
      score default moreGold (comicsPredictions.take 2) = .ok (lines, m) ∧
      score default exchangedGold predictions' = .ok (lines', m') ∧ m' = m ∧
      Shuffles exchange lines lines' ∧
      (score default (moreGold.map fun e => ⟨"", [], e.program⟩) (comicsPredictions.take 2)).map
        Prod.snd = .ok m := by
  have hgold : Shuffles exchange moreGold exchangedGold :=
    shuffles_exchange (by decide) (by decide) (by decide +kernel)
  have hpredictions : Shuffles exchange (comicsPredictions.take 2)
      [["@twitter.search", "monitor"], ["@twitter.search", "notify"]] :=
    shuffles_exchange (by decide) (by decide) (by decide +kernel)
  obtain ⟨hsame, hlines, hrelabelled⟩ := score_shuffled (g := default) hgold hpredictions
  exact ⟨_, _, _, _, _, hgold, hpredictions, rfl, rfl, Except.ok.inj hsame,
    hlines _ _ _ _ rfl rfl, hrelabelled _ (by rw [List.map_map]; rfl)⟩

end ParseBench.Score
