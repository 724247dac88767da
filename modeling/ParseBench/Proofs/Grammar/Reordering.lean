/-
  ParseBench.Proofs.Grammar.Reordering

  Two rule sets that differ in the order of their groups and alternatives only
  (`RuleSet.Reordered`). Which symbols are barren, which rules survive, the alphabet,
  the FIRST and FOLLOW sets, the canonical automaton and its actions depend on what
  rules there are and not on their order, so one of the two compiles exactly when the
  other does (`Reordered.exists_compile_ok`).

  What depends on the order is the ids of the rules and the numbers of the states.
  `Translates` says that two permutations lead from the ones to the others; what a
  state asks for is then asked for under the other numbers (`Translates.asks`).
-/

import Mathlib.Logic.Equiv.Basic
import Mathlib.Data.List.Perm.Basic
import ParseBench.Proofs.Grammar.Conflict
import ParseBench.Proofs.Grammar.Language

namespace ParseBench.Grammar

open Relation (ReflTransGen)

/-! ## Groups and alternatives in another order -/

/-- The same groups in another order, each with the same alternatives in another order. -/
def RuleSet.Reordered (g h : RuleSet) : Prop :=
  ∃ k : RuleSet, g.Perm k ∧
    List.Forall₂ (fun a b => a.lhs = b.lhs ∧ a.alternatives.Perm b.alternatives) k h

variable {g h : RuleSet} {start s t : Symbol}

namespace RuleSet.Reordered

theorem symm (hgh : g.Reordered h) : h.Reordered g := by
  obtain ⟨k, hperm, hforall⟩ := hgh
  obtain ⟨m, hgm, hmh⟩ := List.perm_comp_forall₂ hperm hforall
  refine ⟨m, hmh.symm, ?_⟩
  exact hgm.flip.imp fun _ _ hab => ⟨hab.1.symm, hab.2.symm⟩

theorem exists_group (hgh : g.Reordered h) {group : RuleGroup} (hgroup : group ∈ g) :
    ∃ other ∈ h, other.lhs = group.lhs ∧ other.alternatives.Perm group.alternatives := by
  obtain ⟨k, hperm, hforall⟩ := hgh.symm
  obtain ⟨other, hother, hlhs, halternatives⟩ := exists_left_of_forall₂ hforall hgroup
  exact ⟨other, hperm.mem_iff.2 hother, hlhs, halternatives⟩

theorem rules_perm (hgh : g.Reordered h) : g.rules.Perm h.rules := by
  obtain ⟨k, hperm, hforall⟩ := hgh
  refine (hperm.flatMap_right _).trans ?_
  clear hperm
  induction hforall with
  | nil => exact .nil
  | cons hab _ ih =>
      rw [List.flatMap_cons, RuleSet.rules_cons, hab.1]
      exact (hab.2.map _).append ih

theorem mem_rules (hgh : g.Reordered h) (r : Rule) : r ∈ g.rules ↔ r ∈ h.rules :=
  hgh.rules_perm.mem_iff

theorem mem_lefts_of_mem (hgh : g.Reordered h) (hs : s ∈ g.lefts) : s ∈ h.lefts := by
  obtain ⟨group, hgroup, rfl⟩ := List.mem_map.1 hs
  obtain ⟨other, hother, hlhs, -⟩ := hgh.exists_group hgroup
  exact List.mem_map.2 ⟨other, hother, hlhs⟩

theorem mem_lefts (hgh : g.Reordered h) : s ∈ g.lefts ↔ s ∈ h.lefts :=
  ⟨hgh.mem_lefts_of_mem, hgh.symm.mem_lefts_of_mem⟩

/-! ## Cleaning -/

theorem barren_of_barren (hgh : g.Reordered h) (hs : Barren g s) : Barren h s := by
  intro set hset
  refine hs set fun group hgroup hall => ?_
  obtain ⟨other, hother, hlhs, halternatives⟩ := hgh.exists_group hgroup
  rw [← hlhs]
  exact hset other hother fun rhs hrhs => hall rhs (halternatives.mem_iff.1 hrhs)

theorem barren (hgh : g.Reordered h) : Barren g s ↔ Barren h s :=
  ⟨hgh.barren_of_barren, hgh.symm.barren_of_barren⟩

theorem fertileRule (hgh : g.Reordered h) {r : Rule} (hr : FertileRule g r) : FertileRule h r :=
  ⟨(hgh.mem_rules r).1 hr.mem, fun hs => hr.lhs (hgh.barren.2 hs),
    fun s hs hbarren => hr.rhs s hs (hgh.barren.2 hbarren)⟩

theorem survives_of_survives (hgh : g.Reordered h) {r : Rule} (hr : Survives g start r) :
    Survives h start r := by
  refine ⟨hgh.fertileRule hr.toFertileRule, ReflTransGen.lift id ?_ _ _ hr.linked⟩
  rintro a b ⟨r, hr, hlhs, hb⟩
  exact ⟨r, hgh.fertileRule hr, hlhs, hb⟩

theorem survives (hgh : g.Reordered h) {r : Rule} : Survives g start r ↔ Survives h start r :=
  ⟨hgh.survives_of_survives, hgh.symm.survives_of_survives⟩

/-- The survivors are the same in another order. -/
theorem rules_survivors_perm (hgh : g.Reordered h) :
    (survivors g start).rules.Perm (survivors h start).rules := by
  classical
  rw [rules_survivors, rules_survivors]
  have hsame : g.rules.filter (fun r => Survives g start r) =
      g.rules.filter (fun r => Survives h start r) :=
    List.filter_congr fun r _ => decide_eq_decide.2 hgh.survives
  rw [hsame]
  exact hgh.rules_perm.filter _

theorem clean_ok_of_ok (hgh : g.Reordered h) (hg : g.WellFormed start) (hh : h.WellFormed start)
    (hclean : (clean g start).1 = .ok (survivors g start)) :
    (clean h start).1 = .ok (survivors h start) := by
  obtain ⟨-, hstart, hbarren, hdefined⟩ :=
    (clean_ok_iff hg.nodup_lefts hg.lefts_nonterminal).1 hclean
  refine (clean_ok_iff hh.nodup_lefts hh.lefts_nonterminal).2
    ⟨rfl, hgh.mem_lefts.1 hstart, fun hs => hbarren (hgh.barren.2 hs), fun r hr s hs hnt => ?_⟩
  exact hgh.mem_lefts.1 (hdefined r (hgh.survives.2 hr) s hs hnt)

end RuleSet.Reordered

/-! ## What depends on the rules and not on their order -/

section SameRules

variable {rules more : List Rule} (hsame : ∀ r, r ∈ rules ↔ r ∈ more)

include hsame

theorem Alphabet.ofRules_congr : Alphabet.ofRules rules = Alphabet.ofRules more := by
  have hterminals : (Alphabet.ofRules rules).terminals = (Alphabet.ofRules more).terminals := by
    refine Ordered.eq_of_mem_iff (Ordered.pairwise_ofList _) (Ordered.pairwise_ofList _) fun s => ?_
    show s ∈ (Alphabet.ofRules rules).terminals ↔ s ∈ (Alphabet.ofRules more).terminals
    simp only [Alphabet.mem_terminals_ofRules, hsame]
  have hnonterminals :
      (Alphabet.ofRules rules).nonterminals = (Alphabet.ofRules more).nonterminals := by
    refine Ordered.eq_of_mem_iff (Ordered.pairwise_ofList _) (Ordered.pairwise_ofList _) fun s => ?_
    show s ∈ (Alphabet.ofRules rules).nonterminals ↔ s ∈ (Alphabet.ofRules more).nonterminals
    simp only [Alphabet.mem_nonterminals_ofRules, hsame]
  calc Alphabet.ofRules rules
      = ⟨(Alphabet.ofRules rules).terminals, (Alphabet.ofRules rules).nonterminals⟩ := rfl
    _ = Alphabet.ofRules more := by rw [hterminals, hnonterminals]

theorem Begins.congr (hbegins : Begins rules s t) : Begins more s t := by
  induction hbegins with
  | terminal ht => exact .terminal ht
  | rule hr hlhs hhead _ ih => exact .rule ((hsame _).1 hr) hlhs hhead ih

theorem Follows.congr (hfollows : Follows rules s t) : Follows more s t := by
  induction hfollows with
  | inner hr hs hrhs ht => exact .inner ((hsame _).1 hr) hs hrhs (ht.congr hsame)
  | last hr hs hlast _ ih => exact .last ((hsame _).1 hr) hs hlast ih

theorem firstSet_congr (hs : isNonterminal s = true) : firstSet rules s = firstSet more s := by
  refine Ordered.eq_of_mem_iff (Ordered.pairwise_ofList _) (Ordered.pairwise_ofList _) fun t => ?_
  show t ∈ firstSet rules s ↔ t ∈ firstSet more s
  rw [mem_firstSet hs, mem_firstSet hs]
  exact ⟨.congr hsame, .congr fun r => (hsame r).symm⟩

theorem followSet_congr (s : Symbol) : followSet rules s = followSet more s := by
  refine Ordered.eq_of_mem_iff (Ordered.pairwise_ofList _) (Ordered.pairwise_ofList _) fun t => ?_
  show t ∈ followSet rules s ↔ t ∈ followSet more s
  rw [mem_followSet, mem_followSet]
  exact ⟨.congr hsame, .congr fun r => (hsame r).symm⟩

theorem InFollow.congr (hfollow : InFollow rules s t) : InFollow more s t := by
  obtain ⟨ht, before, after, hrow⟩ := hfollow
  exact ⟨ht, before, after, hrow.mono fun r hr => (hsame r).1 hr⟩

theorem InClosure.congr {kernel : Set Dotted} {i : Dotted} (hi : InClosure rules kernel i) :
    InClosure more kernel i := by
  induction hi with
  | kernel hi => exact .kernel hi
  | brought _ hr hnt hnext ih => exact .brought ih ((hsame _).1 hr) hnt hnext

theorem inClosure_congr {kernel : Set Dotted} {i : Dotted} :
    InClosure rules kernel i ↔ InClosure more kernel i :=
  ⟨.congr hsame, .congr fun r => (hsame r).symm⟩

theorem startState_congr : startState rules = startState more := by
  simp only [startState, hsame, inClosure_congr hsame]

theorem gotoState_congr (state : Set Dotted) (s : Symbol) :
    gotoState rules state s = gotoState more state s := by
  simp only [gotoState, inClosure_congr hsame]

theorem Canonical.congr {state : Set Dotted} (hstate : Canonical rules state) :
    Canonical more state := by
  induction hstate with
  | start =>
      rw [startState_congr hsame]
      exact .start
  | goto _ hs ih =>
      rw [gotoState_congr hsame]
      exact .goto ih hs

theorem Acts.congr {state : Set Dotted} {b : StateAction} (hacts : Acts rules state t b) :
    Acts more state t b := by
  cases hacts with
  | accept ht hi hroot hnext => exact .accept ht hi hroot hnext
  | shift ht hs =>
      rw [gotoState_congr hsame]
      exact .shift ht hs
  | reduce hi ht => exact .reduce hi (ht.congr hsame)

theorem Undecided.congr (hundecided : Undecided rules) : Undecided more := by
  obtain ⟨state, t, a, b, hstate, ha, hb, hne⟩ := hundecided
  exact ⟨state, t, a, b, hstate.congr hsame, ha.congr hsame, hb.congr hsame, hne⟩

/-- Both automata list the canonical states, each of them once. -/
theorem stateItems_perm (hrules : rules.Nodup) (hmore : more.Nodup) :
    (stateItems rules).Perm (stateItems more) := by
  refine (List.perm_ext_iff_of_nodup (nodup_stateItems hrules) (nodup_stateItems hmore)).2
    fun state => ?_
  rw [mem_stateItems, mem_stateItems]
  exact ⟨.congr hsame, .congr fun r => (hsame r).symm⟩

theorem first_ofRules_congr
    (hnt : ∀ s ∈ (Alphabet.ofRules rules).nonterminals, isNonterminal s = true) :
    (Compiled.ofRules start rules (Alphabet.ofRules rules)).first =
      (Compiled.ofRules start more (Alphabet.ofRules more)).first := by
  simp only [Compiled.ofRules, ← Alphabet.ofRules_congr hsame]
  exact List.map_congr_left fun s hs => by rw [firstSet_congr hsame (hnt s hs)]

theorem follow_ofRules_congr :
    (Compiled.ofRules start rules (Alphabet.ofRules rules)).follow =
      (Compiled.ofRules start more (Alphabet.ofRules more)).follow := by
  simp only [Compiled.ofRules, ← Alphabet.ofRules_congr hsame]
  exact List.map_congr_left fun s _ => by rw [followSet_congr hsame]

end SameRules

/-! ## Which rule sets compile -/

/-- A well-formed rule set compiles when it can be cleaned, no rule that survives is empty or
    given twice, the reserved tokens come first and no canonical state is undecided. -/
theorem RuleSet.WellFormed.compile_ok_iff (hg : g.WellFormed start) {c : Compiled} :
    (compile g start).1 = .ok c ↔ (clean g start).1 = .ok (survivors g start) ∧
      ((∀ r ∈ augment (survivors g start).rules start, r.rhs ≠ []) ∧
        (augment (survivors g start).rules start).Nodup) ∧
      (Alphabet.ofRules (augment (survivors g start).rules start)).misplaced? = none ∧
      ¬ Undecided (augment (survivors g start).rules start) ∧
      c = Compiled.ofRules start (augment (survivors g start).rules start)
        (Alphabet.ofRules (augment (survivors g start).rules start)) := by
  rw [Grammar.compile_ok_iff]
  constructor
  · rintro ⟨cleaned, hclean, hcompile⟩
    obtain ⟨rfl, -⟩ := hg.eq_survivors hclean
    rw [compileCleaned_ok_iff, rules_withRoot, tabulate_ok_iff] at hcompile
    obtain ⟨⟨hne, hrules⟩, hplaced, hconflict, hc⟩ := hcompile
    have hnone := (hg.augmentable hclean hne).conflict?_eq_none_iff hrules
    exact ⟨hclean, ⟨hne, hrules⟩, hplaced, hnone.1 hconflict, hc⟩
  · rintro ⟨hclean, ⟨hne, hrules⟩, hplaced, hdecided, hc⟩
    have hnone := (hg.augmentable hclean hne).conflict?_eq_none_iff hrules
    refine ⟨_, hclean, ?_⟩
    rw [compileCleaned_ok_iff, rules_withRoot, tabulate_ok_iff]
    exact ⟨⟨hne, hrules⟩, hplaced, hnone.2 hdecided, hc⟩

theorem RuleSet.Reordered.augment_perm (hgh : g.Reordered h) :
    (augment (survivors g start).rules start).Perm (augment (survivors h start).rules start) :=
  hgh.rules_survivors_perm.append_right _

theorem RuleSet.Reordered.exists_compile_ok (hgh : g.Reordered h) (hg : g.WellFormed start)
    (hh : h.WellFormed start) (hok : ∃ c, (compile g start).1 = .ok c) :
    ∃ c, (compile h start).1 = .ok c := by
  obtain ⟨c, hc⟩ := hok
  obtain ⟨hclean, ⟨hne, hrules⟩, hplaced, hdecided, -⟩ := hg.compile_ok_iff.1 hc
  have hperm := @RuleSet.Reordered.augment_perm g h start hgh
  have hsame : ∀ r, r ∈ augment (survivors h start).rules start ↔
      r ∈ augment (survivors g start).rules start := fun r => hperm.mem_iff.symm
  refine ⟨_, hh.compile_ok_iff.2 ⟨hgh.clean_ok_of_ok hg hh hclean,
    ⟨fun r hr => hne r ((hsame r).1 hr), hperm.nodup_iff.1 hrules⟩, ?_,
    fun hundecided => hdecided (hundecided.congr hsame), rfl⟩⟩
  rw [Alphabet.ofRules_congr hsame]
  exact hplaced

/-! ## Ids and numbers in another order -/

/-- The permutation that keeps the first place and moves the others as `σ` moves them. -/
def afterFirst (σ : Equiv.Perm Nat) : Equiv.Perm Nat where
  toFun
    | 0 => 0
    | i + 1 => σ i + 1
  invFun
    | 0 => 0
    | i + 1 => σ.symm i + 1
  left_inv i := by cases i <;> simp
  right_inv i := by cases i <;> simp

/-- The places of a list in another order. -/
theorem exists_perm_getElem? {α : Type} {l m : List α} (h : l.Perm m) :
    ∃ σ : Equiv.Perm Nat, (∀ i, m[σ i]? = l[i]?) ∧ ∀ i, l.length ≤ i → σ i = i := by
  induction h with
  | nil => exact ⟨Equiv.refl _, fun _ => rfl, fun _ _ => rfl⟩
  | cons a _ ih =>
      obtain ⟨σ, hget, hfix⟩ := ih
      refine ⟨afterFirst σ, fun i => ?_, fun i hi => ?_⟩
      · cases i with
        | zero => rfl
        | succ i => exact hget i
      · cases i with
        | zero => rfl
        | succ i => exact congrArg (· + 1) (hfix i (Nat.le_of_succ_le_succ hi))
  | swap a b l =>
      refine ⟨Equiv.swap 0 1, fun i => ?_, fun i hi => ?_⟩
      · match i with
        | 0 => simp
        | 1 => simp
        | i + 2 => rw [Equiv.swap_apply_of_ne_of_ne (by omega) (by omega)]; rfl
      · simp only [List.length_cons] at hi
        exact Equiv.swap_apply_of_ne_of_ne (by omega) (by omega)
  | trans hlm _ ih₁ ih₂ =>
      obtain ⟨σ, hget₁, hfix₁⟩ := ih₁
      obtain ⟨τ, hget₂, hfix₂⟩ := ih₂
      refine ⟨σ.trans τ, fun i => ?_, fun i hi => ?_⟩
      · rw [Equiv.trans_apply, hget₂, hget₁]
      · rw [Equiv.trans_apply, hfix₁ i hi, hfix₂ i (by rw [← hlm.length_eq]; exact hi)]

/-- The action with other ids of rules and numbers of states. -/
def Action.rename (σ τ : Nat → Nat) : Action → Action
  | .invalid => .invalid
  | .accept => .accept
  | .shift q => .shift (τ q)
  | .reduce id => .reduce (σ id)

/-- The lists have the same rules; `σ` leads from the id of a rule to its id in the other list,
    and `τ` from a state to the state with the same set. -/
structure Translates (rules more : List Rule) (σ τ : Equiv.Perm Nat) : Prop where
  mem : ∀ r, r ∈ rules ↔ r ∈ more
  rule : ∀ id, more[σ id]? = rules[id]?
  state : ∀ q, (stateItems more)[τ q]? = (stateItems rules)[q]?

theorem exists_translates {base other : List Rule} (hperm : base.Perm other)
    (hrules : (augment base start).Nodup) :
    ∃ σ τ : Equiv.Perm Nat, Translates (augment base start) (augment other start) σ τ ∧
      ∀ id, other[σ id]? = base[id]? := by
  have haugment : (augment base start).Perm (augment other start) := hperm.append_right _
  have hsame : ∀ r, r ∈ augment base start ↔ r ∈ augment other start :=
    fun r => haugment.mem_iff
  obtain ⟨σ, hbase, hfix⟩ := exists_perm_getElem? hperm
  obtain ⟨τ, hstate, -⟩ :=
    exists_perm_getElem? (stateItems_perm hsame hrules (haugment.nodup_iff.1 hrules))
  refine ⟨σ, τ, ⟨hsame, fun id => ?_, hstate⟩, hbase⟩
  have hlength := hperm.length_eq
  by_cases hid : id < base.length
  -- a rule before the root rule, in both lists
  · have hget := hbase id
    rw [List.getElem?_eq_getElem hid] at hget
    rw [augment, augment, List.getElem?_append_left hid,
      List.getElem?_append_left (List.getElem?_eq_some_iff.1 hget).1, hbase]
  -- the root rule has the same id in both lists, and there is nothing after it
  · rw [hfix id (by omega), augment, augment, List.getElem?_append_right (by omega),
      List.getElem?_append_right (by omega), hlength]

namespace Translates

variable {rules more base other : List Rule} {σ τ : Equiv.Perm Nat} {q q' : Nat} {a : Action}

theorem symm (h : Translates rules more σ τ) : Translates more rules σ.symm τ.symm := by
  refine ⟨fun r => (h.mem r).symm, fun id => ?_, fun q => ?_⟩
  · rw [← h.rule, Equiv.apply_symm_apply]
  · rw [← h.state, Equiv.apply_symm_apply]

theorem meaning?_rename (h : Translates rules more σ τ) :
    (a.rename σ τ).meaning? (stateItems more) more = a.meaning? (stateItems rules) rules := by
  cases a with
  | invalid => rfl
  | accept => rfl
  | shift q => simp only [Action.rename, Action.meaning?, h.state]
  | reduce id => simp only [Action.rename, Action.meaning?, h.rule]

/-- The first states have the same set. -/
theorem state_zero (h : Translates rules more σ τ) (hmore : more.Nodup) : τ 0 = 0 := by
  have hzero := h.state 0
  rw [getElem?_zero_stateItems, startState_congr h.mem] at hzero
  exact eq_of_getElem?_of_nodup (nodup_stateItems hmore) hzero getElem?_zero_stateItems

theorem leads (h : Translates rules more σ τ) (hrules : rules.Nodup) (hmore : more.Nodup)
    (hleads : Leads rules q s q') : Leads more (τ q) s (τ q') := by
  obtain ⟨set, hset, -⟩ := leads_iff.1 hleads
  have hstate := getElem?_stateItems.2 ⟨set, hset, rfl⟩
  have hstate' := (h.state q).trans hstate
  rw [leads_iff_goto hrules hstate] at hleads
  rw [leads_iff_goto hmore hstate', h.state, ← gotoState_congr h.mem]
  exact hleads

/-- What a state asks for is asked for under the other numbers. -/
theorem asks {start' : Symbol} (h : Translates (augment base start) (augment other start') σ τ)
    (hbase : Augmentable base start) (hother : Augmentable other start')
    (hrules : (augment base start).Nodup) (hmore : (augment other start').Nodup)
    (ht : isNonterminal t = false) (hasks : Asks (augment base start) q t a) :
    Asks (augment other start') (τ q) t (a.rename σ τ) := by
  obtain ⟨set, hset⟩ := hasks.exists_set
  have hstate := getElem?_stateItems.2 ⟨set, hset, rfl⟩
  have hstate' := (h.state q).trans hstate
  obtain ⟨b, hmeaning, hacts⟩ := (hbase.asks_iff_acts hrules hstate ht a).1 hasks
  refine (hother.asks_iff_acts hmore hstate' ht _).2 ⟨b, ?_, hacts.congr h.mem⟩
  rw [h.meaning?_rename]
  exact hmeaning

end Translates

end ParseBench.Grammar
