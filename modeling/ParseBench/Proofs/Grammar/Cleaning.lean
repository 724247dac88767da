/-
  ParseBench.Proofs.Grammar.Cleaning

  What one step of the cleaning does. Rule sets that are cut down keep their rules
  and left-hand sides in order (`Refines`, `Shrinks`), a sweep that reports something
  makes a rule set lighter or marks a left-hand side (`Swept`), and so a pass that
  deletes something makes it lighter (`weight_pass_lt`). The search for undefined
  non-terminals fails on one that is undefined and otherwise finds exactly those not
  visited before (`mentionedBy_ok_iff`).
-/

import Mathlib.Data.List.Forall2
import Mathlib.Data.List.Nodup
import Mathlib.Logic.Relation
import ParseBench.Grammar.Cleaning

namespace ParseBench.Grammar

open Relation (ReflTransGen)

/-! ## Rules of a rule set -/

namespace RuleSet

theorem mem_rules {g : RuleSet} {r : Rule} :
    r ∈ g.rules ↔ ∃ group ∈ g, group.lhs = r.lhs ∧ r.rhs ∈ group.alternatives := by
  rw [RuleSet.rules, List.mem_flatMap]
  constructor
  · rintro ⟨group, hgroup, h⟩
    obtain ⟨rhs, hrhs, rfl⟩ := List.mem_map.1 h
    exact ⟨group, hgroup, rfl, hrhs⟩
  · rintro ⟨group, hgroup, hlhs, hrhs⟩
    exact ⟨group, hgroup, List.mem_map.2 ⟨r.rhs, hrhs, by rw [hlhs]⟩⟩

/-- The left-hand sides in the order of definition. -/
def lefts (g : RuleSet) : List Symbol := g.map RuleGroup.lhs

/-- Every left-hand side and every rule of `h` is one of `g`, and in the same order. -/
structure Refines (h g : RuleSet) : Prop where
  lefts : h.lefts.Sublist g.lefts
  rules : h.rules.Sublist g.rules

/-! ## Weight -/

@[simp] theorem weight_cons (group : RuleGroup) (g : RuleSet) :
    RuleSet.weight (group :: g) = group.alternatives.length + 1 + g.weight := by
  simp [RuleSet.weight]

theorem weight_filter_le (p : RuleGroup → Bool) (g : RuleSet) :
    RuleSet.weight (g.filter p) ≤ g.weight := by
  induction g with
  | nil => exact Nat.le_refl _
  | cons group g ih =>
      rw [List.filter_cons]
      split
      · rw [weight_cons, weight_cons]
        omega
      · rw [weight_cons]
        omega

theorem weight_filter_lt {p : RuleGroup → Bool} {g : RuleSet} {group : RuleGroup}
    (hgroup : group ∈ g) (hp : p group = false) : RuleSet.weight (g.filter p) < g.weight := by
  induction g with
  | nil => cases hgroup
  | cons first g ih =>
      rw [List.filter_cons]
      rcases List.mem_cons.1 hgroup with rfl | hgroup
      · have hle := weight_filter_le p g
        rw [hp, weight_cons]
        simp only [Bool.false_eq_true, if_false]
        omega
      · have hlt := ih hgroup
        split
        · rw [weight_cons, weight_cons]
          omega
        · rw [weight_cons]
          omega

end RuleSet

/-! ## Left-hand sides without alternatives -/

/-- The groups of `h` are those of `g`, each with some of its alternatives. -/
def Shrinks (h g : RuleSet) : Prop :=
  List.Forall₂ (fun a b => a.lhs = b.lhs ∧ a.alternatives.Sublist b.alternatives) h g

theorem Shrinks.refl (g : RuleSet) : Shrinks g g := by
  induction g with
  | nil => exact .nil
  | cons group g ih => exact .cons ⟨rfl, List.Sublist.refl _⟩ ih

theorem Shrinks.trans {g h k : RuleSet} (hgh : Shrinks g h) (hhk : Shrinks h k) :
    Shrinks g k := by
  induction hgh generalizing k with
  | nil =>
      cases hhk
      exact .nil
  | cons hab _ ih =>
      cases hhk with
      | cons hbc hrest => exact .cons ⟨hab.1.trans hbc.1, hab.2.trans hbc.2⟩ (ih hrest)

theorem Shrinks.lefts_eq {h g : RuleSet} (hs : Shrinks h g) : h.lefts = g.lefts := by
  induction hs with
  | nil => rfl
  | cons hab _ ih =>
      simp only [RuleSet.lefts, List.map_cons, hab.1] at ih ⊢
      rw [ih]

theorem Shrinks.weight_le {h g : RuleSet} (hs : Shrinks h g) : h.weight ≤ g.weight := by
  induction hs with
  | nil => exact Nat.le_refl _
  | cons hab _ ih =>
      have hlen := hab.2.length_le
      rw [RuleSet.weight_cons, RuleSet.weight_cons]
      omega

/-- What a sweep, or a row of sweeps, leads to: it shortens groups, it only adds to the
    deleted left-hand sides, and when it reports something then the groups became
    lighter or one of them is marked. -/
structure Swept (deleted : List Symbol) (g : RuleSet)
    (result : RuleSet × List Symbol × List Notice) : Prop where
  shrinks : Shrinks result.1 g
  deleted_subset : ∀ s ∈ deleted, s ∈ result.2.1
  progress : result.2.2 ≠ [] → result.1.weight < g.weight ∨ ∃ s ∈ g.lefts, s ∈ result.2.1

theorem keptAlternatives_sublist (deleted : List Symbol) (alternatives : List (List Symbol)) :
    (keptAlternatives deleted alternatives).Sublist alternatives :=
  List.filter_sublist

theorem swept_sweep (deleted : List Symbol) (g : RuleSet) : Swept deleted g (sweep deleted g) := by
  induction g generalizing deleted with
  | nil => exact ⟨.nil, fun _ h => h, fun h => absurd rfl h⟩
  | cons group g ih =>
      -- a group without alternatives stays as it is; `marked` is what is deleted after it
      have hkeep : ∀ marked, Swept marked g (sweep marked g) →
          Shrinks (group :: (sweep marked g).1) (group :: g) :=
        fun marked h => .cons ⟨rfl, List.Sublist.refl _⟩ h.shrinks
      unfold sweep
      split
      · split
        · have h := ih deleted
          refine ⟨hkeep _ h, h.deleted_subset, fun hne => ?_⟩
          rcases h.progress hne with hlt | ⟨s, hs, hmem⟩
          · left
            simp only [RuleSet.weight_cons]
            omega
          · exact .inr ⟨s, List.mem_cons_of_mem _ hs, hmem⟩
        · have h := ih (group.lhs :: deleted)
          refine ⟨hkeep _ h, fun s hs => h.deleted_subset s (List.mem_cons_of_mem _ hs), ?_⟩
          exact fun _ => .inr ⟨group.lhs, List.mem_cons_self ..,
            h.deleted_subset _ (List.mem_cons_self ..)⟩
      · have h := ih deleted
        have hsub := keptAlternatives_sublist deleted group.alternatives
        have hle := hsub.length_le
        have hrest := h.shrinks.weight_le
        refine ⟨.cons ⟨rfl, hsub⟩ h.shrinks, h.deleted_subset, ?_⟩
        intro hne
        simp only [RuleSet.weight_cons] at hne ⊢
        split at hne
        · rcases h.progress hne with hlt | ⟨s, hs, hmem⟩
          · left
            omega
          · exact .inr ⟨s, List.mem_cons_of_mem _ hs, hmem⟩
        · left
          omega

theorem sweepAll_succ (bound : Nat) (deleted : List Symbol) (g : RuleSet) :
    sweepAll (bound + 1) deleted g =
      if (sweep deleted g).2.2.isEmpty then ((sweep deleted g).1, (sweep deleted g).2.1, [])
      else
        let later := sweepAll bound (sweep deleted g).2.1 (sweep deleted g).1
        (later.1, later.2.1, (sweep deleted g).2.2 ++ later.2.2) := rfl

theorem swept_sweepAll (bound : Nat) (deleted : List Symbol) (g : RuleSet) :
    Swept deleted g (sweepAll bound deleted g) := by
  induction bound generalizing deleted g with
  | zero => exact ⟨Shrinks.refl g, fun _ h => h, fun h => absurd rfl h⟩
  | succ bound ih =>
      have hfirst := swept_sweep deleted g
      rw [sweepAll_succ]
      split
      · exact ⟨hfirst.shrinks, hfirst.deleted_subset, fun h => absurd rfl h⟩
      · next hne =>
          have hlater := ih (sweep deleted g).2.1 (sweep deleted g).1
          refine ⟨hlater.shrinks.trans hfirst.shrinks,
            fun s hs => hlater.deleted_subset s (hfirst.deleted_subset s hs), fun _ => ?_⟩
          rcases hfirst.progress (by simpa using hne) with hlt | ⟨s, hs, hmem⟩
          · exact .inl (Nat.lt_of_le_of_lt hlater.shrinks.weight_le hlt)
          · exact .inr ⟨s, hs, hlater.deleted_subset s hmem⟩

theorem removeEmpty_eq (g : RuleSet) :
    removeEmpty g =
      let swept := sweepAll (g.weight + 1) [] g
      (swept.1.filter fun group => group.lhs ∉ swept.2.1, swept.2.2) := rfl

theorem removeEmpty_weight_le (g : RuleSet) : (removeEmpty g).1.weight ≤ g.weight := by
  rw [removeEmpty_eq]
  exact Nat.le_trans (RuleSet.weight_filter_le _ _) (swept_sweepAll _ [] g).shrinks.weight_le

theorem removeEmpty_weight_lt {g : RuleSet} (h : (removeEmpty g).2 ≠ []) :
    (removeEmpty g).1.weight < g.weight := by
  have hswept := swept_sweepAll (g.weight + 1) [] g
  rw [removeEmpty_eq] at h ⊢
  rcases hswept.progress h with hlt | ⟨s, hs, hmem⟩
  · exact Nat.lt_of_le_of_lt (RuleSet.weight_filter_le _ _) hlt
  · rw [← hswept.shrinks.lefts_eq] at hs
    obtain ⟨group, hgroup, rfl⟩ := List.mem_map.1 hs
    exact Nat.lt_of_lt_of_le (RuleSet.weight_filter_lt hgroup (by simpa using hmem))
      hswept.shrinks.weight_le

/-! ## Reachable left-hand sides -/

/-- A rule of `a` mentions the non-terminal `b`. -/
def Mentions (g : RuleSet) (a b : Symbol) : Prop :=
  ∃ r ∈ g.rules, r.lhs = a ∧ b ∈ r.rhs ∧ isNonterminal b = true

theorem alternativesOf?_eq_some {g : RuleSet} {s : Symbol} {alternatives : List (List Symbol)}
    (h : alternativesOf? g s = some alternatives) :
    ∃ group ∈ g, group.lhs = s ∧ group.alternatives = alternatives := by
  obtain ⟨group, hfind, halts⟩ := Option.map_eq_some_iff.1 h
  have hlhs := List.find?_some hfind
  exact ⟨group, List.mem_reverse.1 (List.mem_of_find?_eq_some hfind), by simpa using hlhs, halts⟩

theorem alternativesOf?_isSome {g : RuleSet} {s : Symbol} :
    (alternativesOf? g s).isSome = true ↔ s ∈ g.lefts := by
  simp [alternativesOf?, RuleSet.lefts]

/-- Where no left-hand side is given twice, each has the alternatives of its group. -/
theorem alternativesOf?_of_mem {g : RuleSet} (hg : g.lefts.Nodup) {group : RuleGroup}
    (hgroup : group ∈ g) : alternativesOf? g group.lhs = some group.alternatives := by
  have hsome : (alternativesOf? g group.lhs).isSome = true :=
    alternativesOf?_isSome.2 (List.mem_map.2 ⟨group, hgroup, rfl⟩)
  obtain ⟨alternatives, halts⟩ := Option.isSome_iff_exists.1 hsome
  obtain ⟨other, hother, hlhs, rfl⟩ := alternativesOf?_eq_some halts
  rw [halts, List.inj_on_of_nodup_map hg hother hgroup hlhs]

/-- The non-terminals of an alternative that were not visited. -/
def fresh (visited rhs : List Symbol) : List Symbol :=
  rhs.filter fun s => isNonterminal s && s ∉ visited

theorem mem_fresh {visited rhs : List Symbol} {s : Symbol} :
    s ∈ fresh visited rhs ↔ s ∈ rhs ∧ isNonterminal s = true ∧ s ∉ visited := by
  simp [fresh]

/-- The first non-terminal of an alternative that was not visited and is not defined. -/
def undefined? (g : RuleSet) (visited rhs : List Symbol) : Option Symbol :=
  (fresh visited rhs).find? fun s => s ∉ g.lefts

theorem mentioned_eq (g : RuleSet) (visited : List Symbol) (rule : Rule) (symbols : List Symbol) :
    mentioned g visited rule symbols =
      match undefined? g visited symbols with
      | some s => .error (.undefinedNonterminal s rule)
      | none => .ok (fresh visited symbols) := by
  induction symbols with
  | nil => rfl
  | cons s symbols ih =>
      rw [mentioned, undefined?]
      by_cases hskip : (!isNonterminal s || decide (s ∈ visited)) = true
      · have hfresh : fresh visited (s :: symbols) = fresh visited symbols :=
          List.filter_cons_of_neg (by simpa [imp_iff_not_or] using hskip)
        rw [if_pos hskip, hfresh, ih, undefined?]
      · have hfresh : fresh visited (s :: symbols) = s :: fresh visited symbols :=
          List.filter_cons_of_pos (by simpa using hskip)
        rw [if_neg hskip, hfresh]
        by_cases hs : s ∈ g.lefts
        · have hsome := alternativesOf?_isSome.2 hs
          rw [if_neg (by simpa using Option.isSome_iff_ne_none.1 hsome), ih,
            List.find?_cons_of_neg (by simpa using hs), undefined?]
          cases (fresh visited symbols).find? fun s => s ∉ g.lefts with
          | some x => rfl
          | none => rfl
        · have hnone : (alternativesOf? g s).isNone = true := by
            rw [← alternativesOf?_isSome] at hs
            simpa using hs
          rw [if_pos hnone, List.find?_cons_of_pos (by simpa using hs)]

theorem undefined?_eq_none {g : RuleSet} {visited rhs : List Symbol} :
    undefined? g visited rhs = none ↔ ∀ s ∈ fresh visited rhs, s ∈ g.lefts := by
  simp [undefined?]

theorem mentionedBy_ok_iff {g : RuleSet} {visited : List Symbol} {lhs : Symbol}
    {alternatives : List (List Symbol)} {found : List Symbol} :
    mentionedBy g visited lhs alternatives = .ok found ↔
      found = alternatives.flatMap (fresh visited) ∧ ∀ s ∈ found, s ∈ g.lefts := by
  induction alternatives generalizing found with
  | nil =>
      simp only [mentionedBy, Except.ok.injEq, List.flatMap_nil]
      constructor
      · rintro rfl
        simp
      · exact fun h => h.1.symm
  | cons rhs alternatives ih =>
      rw [mentionedBy, mentioned_eq, List.flatMap_cons]
      cases hrhs : undefined? g visited rhs with
      | some s =>
          simp only [reduceCtorEq, false_iff]
          rintro ⟨rfl, hall⟩
          obtain ⟨x, hx, hundefined⟩ : ∃ x ∈ fresh visited rhs, x ∉ g.lefts := by
            have hne : undefined? g visited rhs ≠ none := by simp [hrhs]
            simpa [undefined?_eq_none] using hne
          exact hundefined (hall x (List.mem_append_left _ hx))
      | none =>
          simp only
          cases hrest : mentionedBy g visited lhs alternatives with
          | error e =>
              simp only [Except.map, reduceCtorEq, false_iff]
              rintro ⟨rfl, hall⟩
              have hok := (@ih (alternatives.flatMap (fresh visited))).2
                ⟨rfl, fun s hs => hall s (List.mem_append_right _ hs)⟩
              rw [hrest] at hok
              cases hok
          | ok later =>
              obtain ⟨rfl, hall⟩ := ih.1 hrest
              simp only [Except.map, Except.ok.injEq]
              constructor
              · rintro rfl
                refine ⟨rfl, fun s hs => ?_⟩
                rcases List.mem_append.1 hs with hs | hs
                · exact undefined?_eq_none.1 hrhs s hs
                · exact hall s hs
              · exact fun h => h.1.symm

/-- What cannot be mentioned is a non-terminal that no group defines. -/
theorem mentionedBy_error {g : RuleSet} {visited : List Symbol} {lhs : Symbol}
    {alternatives : List (List Symbol)} {e : GrammarError}
    (h : mentionedBy g visited lhs alternatives = .error e) :
    ∃ rhs ∈ alternatives, ∃ s ∈ rhs, e = .undefinedNonterminal s ⟨lhs, rhs⟩ ∧
      isNonterminal s = true ∧ s ∉ g.lefts := by
  induction alternatives with
  | nil => cases h
  | cons rhs alternatives ih =>
      rw [mentionedBy, mentioned_eq] at h
      cases hrhs : undefined? g visited rhs with
      | some s =>
          rw [hrhs] at h
          cases h
          obtain ⟨hs, hnt, -⟩ := mem_fresh.1 (List.mem_of_find?_eq_some hrhs)
          exact ⟨rhs, List.mem_cons_self .., s, hs, rfl, hnt, by simpa using List.find?_some hrhs⟩
      | none =>
          rw [hrhs] at h
          cases hrest : mentionedBy g visited lhs alternatives with
          | ok found =>
              rw [hrest] at h
              cases h
          | error e' =>
              rw [hrest] at h
              cases h
              obtain ⟨rhs', hrhs', hmentions⟩ := ih hrest
              exact ⟨rhs', List.mem_cons_of_mem _ hrhs', hmentions⟩

/-! ## Both -/

/-- A pass that removes something makes the rule set lighter. -/
theorem weight_pass_lt {g : RuleSet} {visited : List Symbol}
    (h : (removeEmpty g).2 = [] → ∃ group ∈ (removeEmpty g).1, group.lhs ∉ visited) :
    RuleSet.weight ((removeEmpty g).1.filter fun group => group.lhs ∈ visited) < g.weight := by
  by_cases hquiet : (removeEmpty g).2 = []
  · obtain ⟨group, hgroup, hmem⟩ := h hquiet
    have hlt := RuleSet.weight_filter_lt
      (p := fun group => decide (group.lhs ∈ visited)) hgroup (by simpa using hmem)
    exact Nat.lt_of_lt_of_le hlt (removeEmpty_weight_le g)
  · have hle := RuleSet.weight_filter_le
      (fun group => decide (group.lhs ∈ visited)) (removeEmpty g).1
    exact Nat.lt_of_le_of_lt hle (removeEmpty_weight_lt hquiet)

end ParseBench.Grammar
