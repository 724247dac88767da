/-
  ParseBench.Proofs.Grammar.Survivors

  What cleaning leaves of a rule set. An alternative survives when neither its
  left-hand side nor a symbol it mentions is barren and the start symbol leads to its
  left-hand side through such alternatives (`Survives`). `CleanAnswer` says what the
  answer is: the start symbol has no rules, or an alternative that survives mentions
  an undefined non-terminal, or the groups are those of the survivors.

  The passes are described without a bound (`Cleans`) and end before that of the
  definition is used up (`cleans_clean`). A first pass leaves the survivors. In them
  no symbol is barren and all is reached, so a second pass finds nothing
  (`Cleans.answer`).
-/

import ParseBench.Proofs.Grammar.Barren
import ParseBench.Proofs.Grammar.Reachability

namespace ParseBench.Grammar

open Relation (ReflTransGen)

variable {g : RuleSet} {start : Symbol}

/-! ## Survivors -/

/-- A rule without barren symbols. -/
structure FertileRule (g : RuleSet) (r : Rule) : Prop where
  mem : r ∈ g.rules
  lhs : ¬ Barren g r.lhs
  rhs : ∀ s ∈ r.rhs, ¬ Barren g s

/-- Rules without barren symbols lead from the first symbol to the second. -/
def Linked (g : RuleSet) : Symbol → Symbol → Prop :=
  ReflTransGen fun a b => ∃ r, FertileRule g r ∧ r.lhs = a ∧ b ∈ r.rhs

/-- A rule without barren symbols to which such rules lead from the start symbol. -/
structure Survives (g : RuleSet) (start : Symbol) (r : Rule) : Prop extends FertileRule g r where
  linked : Linked g start r.lhs

open Classical in
/-- The groups that survive, with their alternatives that mention no barren symbol. -/
noncomputable def survivors (g : RuleSet) (start : Symbol) : RuleSet :=
  (g.filter fun group => ¬ Barren g group.lhs ∧ Linked g start group.lhs).map fun group =>
    ⟨group.lhs, fertile g group.alternatives⟩

theorem mem_fertilePart {group : RuleGroup} :
    group ∈ fertilePart g g ↔ ∃ whole ∈ g, ¬ Barren g whole.lhs ∧
      group = ⟨whole.lhs, fertile g whole.alternatives⟩ := by
  classical
  rw [fertilePart, List.mem_map]
  constructor
  · rintro ⟨whole, hwhole, rfl⟩
    obtain ⟨hmem, hbarren⟩ := List.mem_filter.1 hwhole
    exact ⟨whole, hmem, of_decide_eq_true hbarren, rfl⟩
  · rintro ⟨whole, hwhole, hbarren, rfl⟩
    exact ⟨whole, List.mem_filter.2 ⟨hwhole, decide_eq_true hbarren⟩, rfl⟩

theorem mem_rules_fertilePart {r : Rule} : r ∈ (fertilePart g g).rules ↔ FertileRule g r := by
  rw [RuleSet.mem_rules]
  constructor
  · rintro ⟨group, hgroup, hlhs, hrhs⟩
    obtain ⟨whole, hwhole, hbarren, rfl⟩ := mem_fertilePart.1 hgroup
    obtain ⟨hrhs, hfertile⟩ := mem_fertile.1 hrhs
    simp only at hlhs
    rw [hlhs] at hbarren
    exact ⟨RuleSet.mem_rules.2 ⟨whole, hwhole, hlhs, hrhs⟩, hbarren, hfertile⟩
  · rintro ⟨hr, hlhs, hrhs⟩
    obtain ⟨whole, hwhole, hwholeLhs, hmem⟩ := RuleSet.mem_rules.1 hr
    rw [← hwholeLhs] at hlhs
    exact ⟨_, mem_fertilePart.2 ⟨whole, hwhole, hlhs, rfl⟩, hwholeLhs, mem_fertile.2 ⟨hmem, hrhs⟩⟩

theorem mem_lefts_fertilePart {s : Symbol} :
    s ∈ (fertilePart g g).lefts ↔ s ∈ g.lefts ∧ ¬ Barren g s := by
  simp only [RuleSet.lefts, List.mem_map, mem_fertilePart]
  constructor
  · rintro ⟨group, ⟨whole, hwhole, hbarren, rfl⟩, rfl⟩
    exact ⟨⟨whole, hwhole, rfl⟩, hbarren⟩
  · rintro ⟨⟨whole, hwhole, rfl⟩, hbarren⟩
    exact ⟨_, ⟨whole, hwhole, hbarren, rfl⟩, rfl⟩

theorem nodup_lefts_fertilePart (hg : g.lefts.Nodup) : (fertilePart g g).lefts.Nodup := by
  have hlefts : (fertilePart g g).lefts.Sublist g.lefts := by
    rw [fertilePart, RuleSet.lefts, List.map_map]
    exact List.filter_sublist.map _
  exact hg.sublist hlefts

/-- Links to a non-terminal are mentions in the groups without barren symbols. -/
theorem linked_iff (hlhs : ∀ s ∈ g.lefts, isNonterminal s = true) {s : Symbol}
    (hs : isNonterminal s = true) :
    Linked g start s ↔ ReflTransGen (Mentions (fertilePart g g)) start s := by
  constructor
  · intro h
    induction h with
    | refl => exact .refl
    | tail _ hedge ih =>
        obtain ⟨r, hr, rfl, hmem⟩ := hedge
        have hmention : Mentions (fertilePart g g) r.lhs _ :=
          ⟨r, mem_rules_fertilePart.2 hr, rfl, hmem, hs⟩
        obtain ⟨group, hgroup, hgroupLhs, -⟩ := RuleSet.mem_rules.1 hr.mem
        exact (ih (hlhs _ (List.mem_map.2 ⟨group, hgroup, hgroupLhs⟩))).tail hmention
  · refine fun h => h.lift id ?_
    rintro a b ⟨r, hr, hrlhs, hb, -⟩
    exact ⟨r, mem_rules_fertilePart.1 hr, hrlhs, hb⟩

theorem survivors_eq_filter (hlhs : ∀ s ∈ g.lefts, isNonterminal s = true) {found : List Symbol}
    (hfound : ∀ s, s ∈ found ↔ ReflTransGen (Mentions (fertilePart g g)) start s) :
    ((fertilePart g g).filter fun group => group.lhs ∈ found) = survivors g start := by
  classical
  rw [fertilePart, List.filter_map, List.filter_filter, survivors]
  congr 1
  refine List.filter_congr fun group hgroup => ?_
  have hnt := hlhs group.lhs (List.mem_map.2 ⟨group, hgroup, rfl⟩)
  rw [Bool.eq_iff_iff, Bool.and_eq_true, Function.comp_apply, decide_eq_true_eq,
    decide_eq_true_eq, decide_eq_true_eq, linked_iff hlhs hnt, ← hfound]
  exact And.comm

theorem mem_survivors {group : RuleGroup} :
    group ∈ survivors g start ↔ ∃ whole ∈ g, ¬ Barren g whole.lhs ∧ Linked g start whole.lhs ∧
      group = ⟨whole.lhs, fertile g whole.alternatives⟩ := by
  classical
  rw [survivors, List.mem_map]
  constructor
  · rintro ⟨whole, hwhole, rfl⟩
    obtain ⟨hmem, hsurvives⟩ := List.mem_filter.1 hwhole
    obtain ⟨hbarren, hlinked⟩ := of_decide_eq_true hsurvives
    exact ⟨whole, hmem, hbarren, hlinked, rfl⟩
  · rintro ⟨whole, hwhole, hbarren, hlinked, rfl⟩
    exact ⟨whole, List.mem_filter.2 ⟨hwhole, decide_eq_true ⟨hbarren, hlinked⟩⟩, rfl⟩

open Classical in
/-- The rules that survive stand in the order in which they were given. -/
theorem rules_survivors (g : RuleSet) (start : Symbol) :
    (survivors g start).rules = g.rules.filter fun r => Survives g start r := by
  suffices h : ∀ groups : RuleSet, (∀ r ∈ groups.rules, r ∈ g.rules) →
      RuleSet.rules ((groups.filter fun group =>
        ¬ Barren g group.lhs ∧ Linked g start group.lhs).map fun group =>
          ⟨group.lhs, fertile g group.alternatives⟩) =
        groups.rules.filter fun r => Survives g start r from h g fun _ h => h
  intro groups hgroups
  induction groups with
  | nil => rfl
  | cons group groups ih =>
      rw [RuleSet.rules_cons, List.forall_mem_append] at hgroups
      obtain ⟨hfirst, hrest⟩ := hgroups
      rw [RuleSet.rules_cons, List.filter_append, ← ih hrest, List.filter_map, List.filter_cons]
      split
      · next hgroup =>
          obtain ⟨hbarren, hlinked⟩ := decide_eq_true_eq.mp hgroup
          rw [List.map_cons, RuleSet.rules_cons, fertile]
          congr 2
          refine List.filter_congr fun rhs hrhs => decide_eq_decide.2 ?_
          have hmem := hfirst _ (List.mem_map.2 ⟨rhs, hrhs, rfl⟩)
          exact ⟨fun h => ⟨⟨hmem, hbarren, h⟩, hlinked⟩, fun h => h.rhs⟩
      · next hgroup =>
          have hnone : group.alternatives.filter
              ((fun r => decide (Survives g start r)) ∘ fun rhs => ⟨group.lhs, rhs⟩) = [] := by
            refine List.filter_eq_nil_iff.2 fun rhs _ hsurvives => hgroup ?_
            have hsurvives : Survives g start ⟨group.lhs, rhs⟩ := by simpa using hsurvives
            exact decide_eq_true ⟨hsurvives.lhs, hsurvives.linked⟩
          rw [hnone]
          rfl

theorem mem_rules_survivors {r : Rule} : r ∈ (survivors g start).rules ↔ Survives g start r := by
  classical
  rw [rules_survivors, List.mem_filter, decide_eq_true_eq]
  exact ⟨fun h => h.2, fun h => ⟨h.mem, h⟩⟩

/-- The rules keep their order, and so do the left-hand sides. -/
theorem survivors_refines (g : RuleSet) (start : Symbol) : (survivors g start).Refines g := by
  classical
  refine ⟨?_, ?_⟩
  · rw [survivors, RuleSet.lefts, List.map_map]
    exact List.filter_sublist.map _
  · rw [rules_survivors]
    exact List.filter_sublist

theorem mem_lefts_survivors {s : Symbol} :
    s ∈ (survivors g start).lefts ↔ s ∈ g.lefts ∧ ¬ Barren g s ∧ Linked g start s := by
  simp only [RuleSet.lefts, List.mem_map, mem_survivors]
  constructor
  · rintro ⟨group, ⟨whole, hwhole, hbarren, hlinked, rfl⟩, rfl⟩
    exact ⟨⟨whole, hwhole, rfl⟩, hbarren, hlinked⟩
  · rintro ⟨⟨whole, hwhole, rfl⟩, hbarren, hlinked⟩
    exact ⟨_, ⟨whole, hwhole, hbarren, hlinked, rfl⟩, rfl⟩

/-- Every group that survives has an alternative. -/
theorem alternatives_ne_nil_of_survivors {group : RuleGroup} (h : group ∈ survivors g start) :
    group.alternatives ≠ [] := by
  obtain ⟨whole, hwhole, hbarren, -, rfl⟩ := mem_survivors.1 h
  exact fertile_ne_nil hwhole hbarren

/-- Nothing is barren among the survivors. -/
theorem not_barren_survivors (s : Symbol) : ¬ Barren (survivors g start) s := by
  refine fun h => h ∅ fun group hgroup hall => ?_
  obtain ⟨rhs, hrhs⟩ := List.exists_mem_of_ne_nil _ (alternatives_ne_nil_of_survivors hgroup)
  obtain ⟨x, -, hx⟩ := hall rhs hrhs
  exact hx

theorem fertileRule_survivors {r : Rule} :
    FertileRule (survivors g start) r ↔ Survives g start r := by
  refine ⟨fun h => mem_rules_survivors.1 h.mem, fun h => ⟨mem_rules_survivors.2 h, ?_, ?_⟩⟩
  · exact not_barren_survivors _
  · exact fun _ _ => not_barren_survivors _

/-- The survivors are linked among themselves as they were before. -/
theorem linked_survivors {s : Symbol} : Linked (survivors g start) start s ↔ Linked g start s := by
  constructor
  · refine fun h => h.lift id ?_
    rintro a b ⟨r, hr, hlhs, hb⟩
    exact ⟨r, (fertileRule_survivors.1 hr).toFertileRule, hlhs, hb⟩
  · intro h
    induction h with
    | refl => exact .refl
    | tail hab hedge ih =>
        obtain ⟨r, hr, rfl, hb⟩ := hedge
        exact ih.tail ⟨r, fertileRule_survivors.2 ⟨hr, hab⟩, rfl, hb⟩

/-- Nothing is left to be cleaned among the survivors. -/
theorem survivors_survivors : survivors (survivors g start) start = survivors g start := by
  classical
  have hall : (survivors g start).filter (fun group => ¬ Barren (survivors g start) group.lhs ∧
      Linked (survivors g start) start group.lhs) = survivors g start := by
    refine List.filter_eq_self.2 fun group hgroup => decide_eq_true ⟨not_barren_survivors _, ?_⟩
    have hlefts : group.lhs ∈ (survivors g start).lefts := List.mem_map.2 ⟨group, hgroup, rfl⟩
    exact linked_survivors.2 (mem_lefts_survivors.1 hlefts).2.2
  rw [survivors, hall]
  refine (List.map_congr_left fun group _ => ?_).trans (List.map_id _)
  rw [fertile_eq_self fun _ _ _ _ => not_barren_survivors _]
  rfl

/-! ## The answer of the cleaning -/

/-- What cleaning a rule set answers. -/
inductive CleanAnswer (g : RuleSet) (start : Symbol) : Except GrammarError RuleSet → Prop
  | unknown (h : start ∉ g.lefts ∨ Barren g start) :
      CleanAnswer g start (.error (.unknownStartSymbol start))
  | undefined {r : Rule} {s : Symbol} (hstart : start ∈ g.lefts) (hbarren : ¬ Barren g start)
      (hr : Survives g start r) (hs : s ∈ r.rhs) (hnt : isNonterminal s = true)
      (hundefined : s ∉ g.lefts) : CleanAnswer g start (.error (.undefinedNonterminal s r))
  | cleaned (hstart : start ∈ g.lefts) (hbarren : ¬ Barren g start)
      (hdefined : ∀ r, Survives g start r → ∀ s ∈ r.rhs, isNonterminal s = true → s ∈ g.lefts) :
      CleanAnswer g start (.ok (survivors g start))

/-- The groups that sweeps leave: those that are not marked. -/
def remaining (swept : RuleSet × List Symbol × List Notice) : RuleSet :=
  swept.1.filter fun group => group.lhs ∉ swept.2.1

/-- Passes of sweeps and a search are repeated until one of them deletes nothing. -/
inductive Cleans (start : Symbol) : RuleSet → Except GrammarError RuleSet → Prop
  | unknown {g : RuleSet} {swept : RuleSet × List Symbol × List Notice} (hs : Sweeps [] g swept)
      (hstart : start ∉ (remaining swept).lefts) :
      Cleans start g (.error (.unknownStartSymbol start))
  | failed {g : RuleSet} {swept : RuleSet × List Symbol × List Notice} {e : GrammarError}
      (hs : Sweeps [] g swept) (hstart : start ∈ (remaining swept).lefts)
      (hv : Visits (remaining swept) [] [start] (.error e)) : Cleans start g (.error e)
  | finished {g : RuleSet} {swept : RuleSet × List Symbol × List Notice} {found : List Symbol}
      (hs : Sweeps [] g swept) (hstart : start ∈ (remaining swept).lefts)
      (hv : Visits (remaining swept) [] [start] (.ok found)) (hquiet : swept.2.2 = [])
      (hall : ∀ group ∈ remaining swept, group.lhs ∈ found) :
      Cleans start g (.ok ((remaining swept).filter fun group => group.lhs ∈ found))
  | again {g : RuleSet} {swept : RuleSet × List Symbol × List Notice} {found : List Symbol}
      {result : Except GrammarError RuleSet} (hs : Sweeps [] g swept)
      (hstart : start ∈ (remaining swept).lefts)
      (hv : Visits (remaining swept) [] [start] (.ok found))
      (hloud : swept.2.2 = [] → ∃ group ∈ remaining swept, group.lhs ∉ found)
      (hrest : Cleans start ((remaining swept).filter fun group => group.lhs ∈ found) result) :
      Cleans start g result

/-- What a search leaves when it ends well: the survivors, and they mention defined
    non-terminals only. -/
theorem Visits.survivors_eq (hg : g.lefts.Nodup) (hlhs : ∀ s ∈ g.lefts, isNonterminal s = true)
    (hstart : start ∈ (fertilePart g g).lefts) {found : List Symbol}
    (h : Visits (fertilePart g g) [] [start] (.ok found)) :
    ((fertilePart g g).filter fun group => group.lhs ∈ found) = survivors g start ∧
      ∀ r, Survives g start r → ∀ s ∈ r.rhs, isNonterminal s = true → s ∈ g.lefts := by
  have hmem : ∀ s, s ∈ found ↔ ReflTransGen (Mentions (fertilePart g g)) start s :=
    fun s => h.mem_iff (nodup_lefts_fertilePart hg) hstart
  refine ⟨survivors_eq_filter hlhs hmem, fun r hr s hs hnt => ?_⟩
  have hlinked : Linked g start s := hr.linked.tail ⟨r, hr.toFertileRule, rfl, hs⟩
  have hpending : ∀ s ∈ [start], Reached (fertilePart g g) start s := by
    simpa using ⟨.refl, hstart⟩
  have hreached := (h.reached (by simp) hpending).1 found rfl s
    ((hmem s).2 ((linked_iff hlhs hnt).1 hlinked))
  exact (mem_lefts_fertilePart.1 hreached.mem_lefts).1

/-- Cleaning gives the answer that the survivors determine. -/
theorem Cleans.answer {result : Except GrammarError RuleSet} (h : Cleans start g result)
    (hg : g.lefts.Nodup) (hlhs : ∀ s ∈ g.lefts, isNonterminal s = true) :
    CleanAnswer g start result := by
  induction h with
  | @unknown g swept hs hstart =>
      rw [remaining, hs.remaining_eq, mem_lefts_fertilePart] at hstart
      refine .unknown ?_
      by_cases hmem : start ∈ g.lefts
      · right
        by_contra hbarren
        exact hstart ⟨hmem, hbarren⟩
      · exact .inl hmem
  | @failed g swept e hs hstart hv =>
      rw [remaining, hs.remaining_eq] at hstart hv
      obtain ⟨hmem, hbarren⟩ := mem_lefts_fertilePart.1 hstart
      have hpending : ∀ s ∈ [start], Reached (fertilePart g g) start s := by
        simpa using ⟨.refl, hstart⟩
      obtain ⟨r, hr, hreached, s, hs, rfl, hnt, hundefined⟩ :=
        (hv.reached (by simp) hpending).2 e rfl
      have hfertile := mem_rules_fertilePart.1 hr
      have hlinked : Linked g start r.lhs :=
        (linked_iff hlhs (hlhs _ (mem_lefts_fertilePart.1 hreached.mem_lefts).1)).2 hreached.path
      refine .undefined hmem hbarren ⟨hfertile, hlinked⟩ hs hnt fun hdefined => ?_
      exact hundefined (mem_lefts_fertilePart.2 ⟨hdefined, hfertile.rhs s hs⟩)
  | @finished g swept found hs hstart hv _ _ =>
      rw [remaining, hs.remaining_eq] at hstart hv ⊢
      obtain ⟨hmem, hbarren⟩ := mem_lefts_fertilePart.1 hstart
      obtain ⟨heq, hdefined⟩ := hv.survivors_eq hg hlhs hstart
      rw [heq]
      exact .cleaned hmem hbarren hdefined
  | @again g swept found result hs hstart hv _ _ ih =>
      rw [remaining, hs.remaining_eq] at hstart hv ih
      obtain ⟨hmem, hbarren⟩ := mem_lefts_fertilePart.1 hstart
      obtain ⟨heq, hdefined⟩ := hv.survivors_eq hg hlhs hstart
      rw [heq] at ih
      have hsub := (survivors_refines g start).lefts
      -- the next pass is about the survivors, which are their own survivors
      cases ih (hg.sublist hsub) fun s hs => hlhs s (hsub.subset hs) with
      | unknown h =>
          rcases h with h | h
          · exact absurd (mem_lefts_survivors.2 ⟨hmem, hbarren, .refl⟩) h
          · exact absurd h (not_barren_survivors _)
      | @undefined r s _ _ hr hs hnt hundefined =>
          have hr := fertileRule_survivors.1 hr.toFertileRule
          refine absurd (mem_lefts_survivors.2 ⟨hdefined r hr s hs hnt, hr.rhs s hs, ?_⟩) hundefined
          exact hr.linked.tail ⟨r, hr.toFertileRule, rfl, hs⟩
      | cleaned _ _ _ =>
          rw [survivors_survivors]
          exact .cleaned hmem hbarren hdefined

/-- The passes end within their bound. -/
theorem cleans_cleanFrom (bound pass : Nat) (hweight : g.weight < bound) :
    Cleans start g (cleanFrom start bound pass g).1 := by
  induction bound generalizing pass g with
  | zero => omega
  | succ bound ih =>
      have hsweeps : Sweeps [] g (sweepAll (g.weight + 1) [] g) :=
        sweeps_sweepAll (by rw [unmarkedWeight_nil]; exact Nat.lt_succ_self _)
      have hempty : removeEmpty g = (remaining (sweepAll (g.weight + 1) [] g),
        (sweepAll (g.weight + 1) [] g).2.2) := rfl
      generalize sweepAll (g.weight + 1) [] g = swept at hsweeps hempty
      unfold cleanFrom
      simp only [removeUnreachable, hempty]
      by_cases hstart : start ∈ (remaining swept).lefts
      · have hvisits := visits_reachable hstart
        cases hreach : reachable (remaining swept) start with
        | error e =>
            rw [hreach] at hvisits
            exact .failed hsweeps hstart hvisits
        | ok found =>
            rw [hreach] at hvisits
            simp only
            split
            · next hquiet =>
                simp only [Bool.and_eq_true, List.isEmpty_iff, List.map_eq_nil_iff,
                  List.filter_eq_nil_iff, decide_eq_true_eq, not_not] at hquiet
                exact .finished hsweeps hstart hvisits hquiet.1 hquiet.2
            · next hloud =>
                have hunreached :
                    swept.2.2 = [] → ∃ group ∈ remaining swept, group.lhs ∉ found := by
                  intro hquiet
                  by_contra hnone
                  push Not at hnone
                  refine hloud ?_
                  simp only [hquiet, List.isEmpty_nil, Bool.true_and, List.isEmpty_iff,
                    List.map_eq_nil_iff, List.filter_eq_nil_iff, decide_eq_true_eq, not_not]
                  exact hnone
                have hlt := @weight_pass_lt g found (by simpa only [hempty] using hunreached)
                simp only [hempty] at hlt
                exact .again hsweeps hstart hvisits hunreached (ih (pass + 1) (by omega))
      · have hunknown : reachable (remaining swept) start = .error (.unknownStartSymbol start) := by
          rw [reachable, if_pos]
          rw [← alternativesOf?_isSome] at hstart
          simpa using hstart
        rw [hunknown]
        exact .unknown hsweeps hstart

/-- Cleaning ends: it is what the passes without a bound lead to. -/
theorem cleans_clean (g : RuleSet) (start : Symbol) : Cleans start g (clean g start).1 :=
  cleans_cleanFrom _ _ (Nat.lt_succ_self _)

theorem clean_answer (hg : g.lefts.Nodup) (hlhs : ∀ s ∈ g.lefts, isNonterminal s = true) :
    CleanAnswer g start (clean g start).1 :=
  (cleans_clean g start).answer hg hlhs

theorem clean_ok_iff (hg : g.lefts.Nodup) (hlhs : ∀ s ∈ g.lefts, isNonterminal s = true)
    {cleaned : RuleSet} :
    (clean g start).1 = .ok cleaned ↔ cleaned = survivors g start ∧ start ∈ g.lefts ∧
      ¬ Barren g start ∧
        ∀ r, Survives g start r → ∀ s ∈ r.rhs, isNonterminal s = true → s ∈ g.lefts := by
  have hanswer := @clean_answer g start hg hlhs
  generalize (clean g start).1 = result at hanswer
  cases hanswer with
  | unknown h =>
      simp only [reduceCtorEq, false_iff]
      rintro ⟨-, hmem, hbarren, -⟩
      exact h.elim (absurd hmem) (fun h => hbarren h)
  | undefined hstart hbarren hr hs hnt hundefined =>
      simp only [reduceCtorEq, false_iff]
      exact fun h => hundefined (h.2.2.2 _ hr _ hs hnt)
  | cleaned hstart hbarren hdefined =>
      rw [Except.ok.injEq]
      exact ⟨fun h => ⟨h.symm, hstart, hbarren, hdefined⟩, fun h => h.1.symm⟩

/-! ## What a cleaned rule set is -/

/-- A rule set in which the start symbol reaches every left-hand side and every
    non-terminal that a rule mentions is a left-hand side. -/
structure Connected (g : RuleSet) (start : Symbol) : Prop where
  start_mem : start ∈ g.lefts
  reached : ∀ s ∈ g.lefts, ReflTransGen (Mentions g) start s
  defined : ∀ r ∈ g.rules, ∀ s ∈ r.rhs, isNonterminal s = true → s ∈ g.lefts

theorem connected_survivors (hlhs : ∀ s ∈ g.lefts, isNonterminal s = true)
    (hstart : start ∈ g.lefts) (hbarren : ¬ Barren g start)
    (hdefined : ∀ r, Survives g start r → ∀ s ∈ r.rhs, isNonterminal s = true → s ∈ g.lefts) :
    Connected (survivors g start) start := by
  refine ⟨mem_lefts_survivors.2 ⟨hstart, hbarren, .refl⟩, fun s hs => ?_, fun r hr s hs hnt => ?_⟩
  · have hlinked := linked_survivors.2 (mem_lefts_survivors.1 hs).2.2
    have hnt : ∀ t ∈ (survivors g start).lefts, isNonterminal t = true :=
      fun t ht => hlhs t (mem_lefts_survivors.1 ht).1
    rw [linked_iff hnt (hnt s hs)] at hlinked
    refine hlinked.lift id ?_
    rintro a b ⟨r, hr, hmention⟩
    exact ⟨r, (mem_rules_fertilePart.1 hr).mem, hmention⟩
  · have hr := mem_rules_survivors.1 hr
    exact mem_lefts_survivors.2 ⟨hdefined r hr s hs hnt, hr.rhs s hs,
      hr.linked.tail ⟨r, hr.toFertileRule, rfl, hs⟩⟩

end ParseBench.Grammar
