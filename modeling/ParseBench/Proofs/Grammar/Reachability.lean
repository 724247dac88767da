/-
  ParseBench.Proofs.Grammar.Reachability

  What the search for reachable left-hand sides finds. It is described without the
  bound on its steps (`Visits`), and ends before that is used up because every visit
  takes the symbols in the alternatives of a left-hand side out of what is still to
  come (`visits_visit`).

  Only the alternatives of the last group of a left-hand side are searched (`Shows`).
  A search that ends well has visited all that these show (`Visits.closed`), and where
  no left-hand side is given twice it visits exactly what the start symbol reaches
  (`Visits.mem_iff`). One that fails has found a rule of a reached left-hand side that
  mentions an undefined non-terminal (`Visits.reached`).
-/

import ParseBench.Proofs.Grammar.Cleaning

namespace ParseBench.Grammar

open Relation (ReflTransGen)

variable {g : RuleSet} {start : Symbol}

/-! ## The search without a bound -/

/-- Depth first search until nothing is pending. -/
inductive Visits (g : RuleSet) :
    List Symbol → List Symbol → Except GrammarError (List Symbol) → Prop
  | finished {visited : List Symbol} : Visits g visited [] (.ok visited)
  | seen {visited pending : List Symbol} {s : Symbol} {result : Except GrammarError (List Symbol)}
      (hs : s ∈ visited) (hrest : Visits g visited pending result) :
      Visits g visited (s :: pending) result
  | failed {visited pending : List Symbol} {s : Symbol} {e : GrammarError} (hs : s ∉ visited)
      (he : mentionedBy g (s :: visited) s ((alternativesOf? g s).getD []) = .error e) :
      Visits g visited (s :: pending) (.error e)
  | entered {visited pending found : List Symbol} {s : Symbol}
      {result : Except GrammarError (List Symbol)} (hs : s ∉ visited)
      (hfound : mentionedBy g (s :: visited) s ((alternativesOf? g s).getD []) = .ok found)
      (hrest : Visits g (s :: visited) (found.reverse ++ pending) result) :
      Visits g visited (s :: pending) result

/-- The number of symbols in the alternatives. -/
def occurrences (alternatives : List (List Symbol)) : Nat :=
  (alternatives.map List.length).foldr (· + ·) 0

/-- The number of symbols in the alternatives of left-hand sides that were not visited. -/
def unvisitedWeight (visited : List Symbol) : RuleSet → Nat
  | [] => 0
  | group :: rest =>
    (if group.lhs ∈ visited then 0 else occurrences group.alternatives) +
      unvisitedWeight visited rest

theorem length_flatMap_fresh_le (visited : List Symbol) (alternatives : List (List Symbol)) :
    (alternatives.flatMap (fresh visited)).length ≤ occurrences alternatives := by
  induction alternatives with
  | nil => exact Nat.le_refl _
  | cons rhs alternatives ih =>
      have hle : (fresh visited rhs).length ≤ rhs.length := List.length_filter_le _ _
      simp only [occurrences, List.flatMap_cons, List.length_append, List.map_cons,
        List.foldr_cons] at ih ⊢
      omega

theorem unvisitedWeight_cons_le (visited : List Symbol) (s : Symbol) (g : RuleSet) :
    unvisitedWeight (s :: visited) g ≤ unvisitedWeight visited g := by
  induction g with
  | nil => exact Nat.le_refl _
  | cons group g ih =>
      have hgroup : (if group.lhs ∈ s :: visited then 0 else occurrences group.alternatives) ≤
          (if group.lhs ∈ visited then 0 else occurrences group.alternatives) := by
        by_cases hmem : group.lhs ∈ s :: visited
        · rw [if_pos hmem]
          exact Nat.zero_le _
        · have hold : group.lhs ∉ visited := fun h => hmem (List.mem_cons_of_mem _ h)
          simp only [if_neg hmem, if_neg hold, Nat.le_refl]
      simp only [unvisitedWeight]
      omega

/-- Visiting a left-hand side takes its alternatives out of the weight. -/
theorem unvisitedWeight_visit {visited : List Symbol} {s : Symbol} (hs : s ∉ visited) :
    unvisitedWeight (s :: visited) g + occurrences ((alternativesOf? g s).getD []) ≤
      unvisitedWeight visited g := by
  cases halternatives : alternativesOf? g s with
  | none => exact unvisitedWeight_cons_le visited s g
  | some alternatives =>
      obtain ⟨group, hgroup, rfl, rfl⟩ := alternativesOf?_eq_some halternatives
      rw [Option.getD_some]
      clear halternatives
      induction g with
      | nil => cases hgroup
      | cons first g ih =>
          have hrest := unvisitedWeight_cons_le visited group.lhs g
          have hfirst := unvisitedWeight_cons_le visited group.lhs [first]
          simp only [unvisitedWeight, Nat.add_zero] at hfirst ⊢
          rcases List.mem_cons.1 hgroup with rfl | hgroup
          · rw [if_pos (List.mem_cons_self ..), if_neg hs]
            omega
          · have hlater := ih hgroup
            omega

/-- The bound on the number of visits is never reached. -/
theorem visits_visit {bound : Nat} {visited pending : List Symbol}
    (hbound : pending.length + unvisitedWeight visited g ≤ bound) :
    Visits g visited pending (visit g bound visited pending) := by
  induction bound generalizing visited pending with
  | zero =>
      have hnil : pending = [] := List.eq_nil_of_length_eq_zero (by omega)
      subst hnil
      exact .finished
  | succ bound ih =>
      cases pending with
      | nil => exact .finished
      | cons s pending =>
          rw [List.length_cons] at hbound
          unfold visit
          split
          · next hs => exact .seen hs (ih (by omega))
          · next hs =>
              split
              · next e he => exact .failed hs he
              · next found hfound =>
                  refine .entered hs hfound (ih ?_)
                  obtain ⟨rfl, -⟩ := mentionedBy_ok_iff.1 hfound
                  have hlen := length_flatMap_fresh_le (s :: visited)
                    ((alternativesOf? g s).getD [])
                  have hweight := unvisitedWeight_visit (g := g) hs
                  rw [List.length_append, List.length_reverse]
                  omega

theorem unvisitedWeight_nil (g : RuleSet) :
    unvisitedWeight [] g = (g.rules.map fun r => r.rhs.length).foldr (· + ·) 0 := by
  induction g with
  | nil => rfl
  | cons group g ih =>
      rw [unvisitedWeight, if_neg (by simp), ih, RuleSet.rules_cons, List.map_append,
        List.map_map, ← List.sum_eq_foldr, ← List.sum_eq_foldr, List.sum_append, occurrences,
        ← List.sum_eq_foldr]
      rfl

/-- The search from the start symbol ends within its bound. -/
theorem visits_reachable (hstart : start ∈ g.lefts) :
    Visits g [] [start] (reachable g start) := by
  have hdefined := Option.isSome_iff_ne_none.1 (alternativesOf?_isSome.2 hstart)
  rw [reachable, if_neg (by simpa using hdefined)]
  refine visits_visit ?_
  rw [unvisitedWeight_nil, List.length_singleton]
  omega

/-! ## What the search finds -/

/-- An alternative that counts for `a` shows the non-terminal `b`. -/
def Shows (g : RuleSet) (a b : Symbol) : Prop :=
  isNonterminal b = true ∧ ∃ rhs ∈ (alternativesOf? g a).getD [], b ∈ rhs

theorem mem_rules_of_alternativesOf? {s : Symbol} {rhs : List Symbol}
    (h : rhs ∈ (alternativesOf? g s).getD []) : ⟨s, rhs⟩ ∈ g.rules := by
  cases halternatives : alternativesOf? g s with
  | none =>
      rw [halternatives] at h
      cases h
  | some alternatives =>
      rw [halternatives] at h
      obtain ⟨group, hgroup, hlhs, rfl⟩ := alternativesOf?_eq_some halternatives
      exact RuleSet.mem_rules.2 ⟨group, hgroup, hlhs, h⟩

theorem Shows.mentions {s t : Symbol} (h : Shows g s t) : Mentions g s t := by
  obtain ⟨hnt, rhs, hrhs, ht⟩ := h
  exact ⟨⟨s, rhs⟩, mem_rules_of_alternativesOf? hrhs, rfl, ht, hnt⟩

/-- Where no left-hand side is given twice, all alternatives count. -/
theorem mentions_iff (hg : g.lefts.Nodup) {s t : Symbol} : Mentions g s t ↔ Shows g s t := by
  refine ⟨?_, Shows.mentions⟩
  rintro ⟨r, hr, rfl, ht, hnt⟩
  obtain ⟨group, hgroup, hlhs, hrhs⟩ := RuleSet.mem_rules.1 hr
  rw [Shows, ← hlhs, alternativesOf?_of_mem hg hgroup]
  exact ⟨hnt, r.rhs, hrhs, ht⟩

/-- A search that ends well has visited all that is pending and all that is shown by what
    it has visited. -/
theorem Visits.closed {visited pending result : List Symbol}
    (h : Visits g visited pending (.ok result))
    (hvisited : ∀ s ∈ visited, ∀ t, Shows g s t → t ∈ visited ∨ t ∈ pending) :
    (∀ s ∈ pending, s ∈ result) ∧ (∀ s ∈ visited, s ∈ result) ∧
      ∀ s ∈ result, ∀ t, Shows g s t → t ∈ result := by
  generalize hresult : Except.ok result = answer at h
  induction h with
  | finished =>
      cases hresult
      refine ⟨by simp, fun _ hs => hs, fun s hs t ht => ?_⟩
      exact (hvisited s hs t ht).resolve_right (by simp)
  | @seen visited pending s _ hs _ ih =>
      have hvisited' : ∀ x ∈ visited, ∀ t, Shows g x t → t ∈ visited ∨ t ∈ pending := by
        intro x hx t ht
        rcases hvisited x hx t ht with hmem | hmem
        · exact .inl hmem
        · rcases List.mem_cons.1 hmem with rfl | hmem
          · exact .inl hs
          · exact .inr hmem
      obtain ⟨hpending, hsub, hclosed⟩ := ih hvisited' hresult
      exact ⟨List.forall_mem_cons.2 ⟨hsub s hs, hpending⟩, hsub, hclosed⟩
  | failed _ _ => cases hresult
  | @entered visited pending found s _ hs hfound _ ih =>
      obtain ⟨rfl, -⟩ := mentionedBy_ok_iff.1 hfound
      have hvisited' : ∀ x ∈ s :: visited, ∀ t, Shows g x t → t ∈ s :: visited ∨
          t ∈ (((alternativesOf? g s).getD []).flatMap (fresh (s :: visited))).reverse ++
            pending := by
        intro x hx t ht
        rcases List.mem_cons.1 hx with rfl | hx
        · -- what is shown here was visited before or is found now
          obtain ⟨hnt, rhs, hrhs, htr⟩ := ht
          by_cases hmem : t ∈ x :: visited
          · exact .inl hmem
          · right
            refine List.mem_append_left _ (List.mem_reverse.2 (List.mem_flatMap.2 ?_))
            exact ⟨rhs, hrhs, mem_fresh.2 ⟨htr, hnt, hmem⟩⟩
        · rcases hvisited x hx t ht with hmem | hmem
          · exact .inl (List.mem_cons_of_mem _ hmem)
          · rcases List.mem_cons.1 hmem with rfl | hmem
            · exact .inl (List.mem_cons_self ..)
            · exact .inr (List.mem_append_right _ hmem)
      obtain ⟨hpending, hsub, hclosed⟩ := ih hvisited' hresult
      refine ⟨List.forall_mem_cons.2 ⟨hsub s (List.mem_cons_self ..), fun x hx => ?_⟩,
        fun x hx => hsub x (List.mem_cons_of_mem _ hx), hclosed⟩
      exact hpending x (List.mem_append_right _ hx)

/-- A left-hand side that the start symbol reaches. -/
structure Reached (g : RuleSet) (start s : Symbol) : Prop where
  path : ReflTransGen (Mentions g) start s
  mem_lefts : s ∈ g.lefts

/-- A search from left-hand sides that are reached visits only such, and where it fails one of
    them mentions a non-terminal that no group defines. -/
theorem Visits.reached {visited pending : List Symbol}
    {result : Except GrammarError (List Symbol)} (h : Visits g visited pending result)
    (hvisited : ∀ s ∈ visited, Reached g start s) (hpending : ∀ s ∈ pending, Reached g start s) :
    (∀ found, result = .ok found → ∀ s ∈ found, Reached g start s) ∧
      ∀ e, result = .error e → ∃ r ∈ g.rules, Reached g start r.lhs ∧ ∃ s ∈ r.rhs,
        e = .undefinedNonterminal s r ∧ isNonterminal s = true ∧ s ∉ g.lefts := by
  induction h with
  | finished =>
      refine ⟨fun found h => ?_, by simp⟩
      cases h
      exact hvisited
  | seen _ _ ih => exact ih hvisited (List.forall_mem_cons.1 hpending).2
  | @failed visited pending s e hs he =>
      refine ⟨by simp, fun e' h => ?_⟩
      cases h
      obtain ⟨rhs, hrhs, t, ht, rfl, hnt, hundefined⟩ := mentionedBy_error he
      have hreached := (List.forall_mem_cons.1 hpending).1
      exact ⟨⟨s, rhs⟩, mem_rules_of_alternativesOf? hrhs, hreached, t, ht, rfl, hnt, hundefined⟩
  | @entered visited pending found s result hs hfound _ ih =>
      obtain ⟨hreached, hpending⟩ := List.forall_mem_cons.1 hpending
      obtain ⟨rfl, hlefts⟩ := mentionedBy_ok_iff.1 hfound
      refine ih (List.forall_mem_cons.2 ⟨hreached, hvisited⟩) fun x hx => ?_
      rcases List.mem_append.1 hx with hx | hx
      · have hx := List.mem_reverse.1 hx
        obtain ⟨rhs, hrhs, hfresh⟩ := List.mem_flatMap.1 hx
        obtain ⟨hxr, hnt, -⟩ := mem_fresh.1 hfresh
        have hshows : Shows g s x := ⟨hnt, rhs, hrhs, hxr⟩
        exact ⟨hreached.path.tail hshows.mentions, hlefts x hx⟩
      · exact hpending x hx

/-- A search from the start symbol that ends well visits exactly what is reached. -/
theorem Visits.mem_iff (hg : g.lefts.Nodup) (hstart : start ∈ g.lefts) {found : List Symbol}
    (h : Visits g [] [start] (.ok found)) {s : Symbol} :
    s ∈ found ↔ ReflTransGen (Mentions g) start s := by
  have hpending : ∀ s ∈ [start], Reached g start s := by simpa using ⟨.refl, hstart⟩
  obtain ⟨hpending', -, hclosed⟩ := h.closed (by simp)
  constructor
  · exact fun hs => ((h.reached (by simp) hpending).1 found rfl s hs).path
  · intro hs
    induction hs with
    | refl => exact hpending' start (List.mem_singleton.2 rfl)
    | tail _ hedge ih => exact hclosed _ ih _ ((mentions_iff hg).1 hedge)

end ParseBench.Grammar
