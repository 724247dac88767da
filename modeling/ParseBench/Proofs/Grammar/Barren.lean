/-
  ParseBench.Proofs.Grammar.Barren

  Which left-hand sides the sweeps delete. A left-hand side is barren when it is in
  the least set of left-hand sides all of whose alternatives mention a member of the
  set (`Barren`); those without alternatives are the first of them.

  The sweeps are described without the bound on their number (`Sweeps`). What they
  keep up is that only barren left-hand sides are marked and only alternatives that
  mention one are dropped (`sweep_spares`). A sweep that finds nothing leaves a set of
  marked left-hand sides that is closed, so all barren ones are marked, and of the
  others exactly the alternatives without barren symbols are left
  (`Sweeps.remaining_eq`). The sweeps end because each one that reports something
  drops an alternative or marks a left-hand side (`sweeps_sweepAll`).
-/

import Mathlib.Data.Set.Basic
import ParseBench.Proofs.Grammar.Cleaning

namespace ParseBench.Grammar

variable {g h : RuleSet} {deleted : List Symbol}

/-! ## Barren left-hand sides -/

/-- The symbol is in the least set of left-hand sides all of whose alternatives mention a
    member of the set. -/
def Barren (g : RuleSet) (s : Symbol) : Prop :=
  ∀ set : Set Symbol,
    (∀ group ∈ g, (∀ rhs ∈ group.alternatives, ∃ x ∈ rhs, x ∈ set) → group.lhs ∈ set) → s ∈ set

/-- A left-hand side all of whose alternatives mention barren ones is barren. -/
theorem Barren.of_group {group : RuleGroup} (hgroup : group ∈ g)
    (h : ∀ rhs ∈ group.alternatives, ∃ x ∈ rhs, Barren g x) : Barren g group.lhs := by
  intro set hset
  refine hset group hgroup fun rhs hrhs => ?_
  obtain ⟨x, hx, hbarren⟩ := h rhs hrhs
  exact ⟨x, hx, hbarren set hset⟩

/-- A barren symbol is a left-hand side all of whose alternatives mention barren ones. -/
theorem Barren.exists_group {s : Symbol} (h : Barren g s) :
    ∃ group ∈ g, group.lhs = s ∧ ∀ rhs ∈ group.alternatives, ∃ x ∈ rhs, Barren g x := by
  refine h {s | ∃ group ∈ g, group.lhs = s ∧ ∀ rhs ∈ group.alternatives, ∃ x ∈ rhs, Barren g x} ?_
  intro group hgroup hall
  refine ⟨group, hgroup, rfl, fun rhs hrhs => ?_⟩
  obtain ⟨x, hx, other, hother, rfl, hmentions⟩ := hall rhs hrhs
  exact ⟨other.lhs, hx, .of_group hother hmentions⟩

theorem Barren.mem_lefts {s : Symbol} (h : Barren g s) : s ∈ g.lefts := by
  obtain ⟨group, hgroup, rfl, -⟩ := h.exists_group
  exact List.mem_map.2 ⟨group, hgroup, rfl⟩

open Classical in
/-- The alternatives that mention no barren symbol. -/
noncomputable def fertile (g : RuleSet) (alternatives : List (List Symbol)) :
    List (List Symbol) :=
  alternatives.filter fun rhs => ∀ s ∈ rhs, ¬ Barren g s

theorem mem_fertile {alternatives : List (List Symbol)} {rhs : List Symbol} :
    rhs ∈ fertile g alternatives ↔ rhs ∈ alternatives ∧ ∀ s ∈ rhs, ¬ Barren g s := by
  simp [fertile]

/-- What is not barren has an alternative without barren symbols. -/
theorem fertile_ne_nil {group : RuleGroup} (hgroup : group ∈ g) (hbarren : ¬ Barren g group.lhs) :
    fertile g group.alternatives ≠ [] := by
  intro hnil
  refine hbarren (.of_group hgroup fun rhs hrhs => ?_)
  by_contra hnone
  push Not at hnone
  have hmem := mem_fertile.2 ⟨hrhs, hnone⟩
  rw [hnil] at hmem
  cases hmem

theorem fertile_eq_self {alternatives : List (List Symbol)}
    (h : ∀ rhs ∈ alternatives, ∀ s ∈ rhs, ¬ Barren g s) : fertile g alternatives = alternatives :=
  List.filter_eq_self.2 fun rhs hrhs => by simpa using h rhs hrhs

open Classical in
/-- The groups of left-hand sides that are not barren in `g`, with their alternatives that
    mention no barren symbol. -/
noncomputable def fertilePart (g groups : RuleSet) : RuleSet :=
  (groups.filter fun group => ¬ Barren g group.lhs).map fun group =>
    ⟨group.lhs, fertile g group.alternatives⟩

/-! ## Sweeps without a bound -/

/-- Sweeps are repeated until one reports nothing. -/
inductive Sweeps : List Symbol → RuleSet → RuleSet × List Symbol × List Notice → Prop
  | quiet {deleted : List Symbol} {g : RuleSet} (h : (sweep deleted g).2.2 = []) :
      Sweeps deleted g (sweep deleted g)
  | again {deleted : List Symbol} {g : RuleSet} {later : RuleSet × List Symbol × List Notice}
      (h : (sweep deleted g).2.2 ≠ [])
      (hlater : Sweeps (sweep deleted g).2.1 (sweep deleted g).1 later) :
      Sweeps deleted g (later.1, later.2.1, (sweep deleted g).2.2 ++ later.2.2)

/-- The number of alternatives and of left-hand sides that are not marked. -/
def unmarkedWeight (deleted : List Symbol) : RuleSet → Nat
  | [] => 0
  | group :: rest =>
    group.alternatives.length + (if group.lhs ∈ deleted then 0 else 1) +
      unmarkedWeight deleted rest

theorem unmarkedWeight_nil (g : RuleSet) : unmarkedWeight [] g = g.weight := by
  induction g with
  | nil => rfl
  | cons group g ih => simp [unmarkedWeight, ih]

theorem unmarkedWeight_le {more : List Symbol} (hs : Shrinks h g)
    (hmarked : ∀ s ∈ deleted, s ∈ more) : unmarkedWeight more h ≤ unmarkedWeight deleted g := by
  induction hs with
  | nil => exact Nat.le_refl _
  | @cons a b _ _ hab _ ih =>
      have hlen := hab.2.length_le
      have hmark : (if a.lhs ∈ more then 0 else 1) ≤ (if b.lhs ∈ deleted then 0 else 1) := by
        by_cases hmem : b.lhs ∈ deleted
        · rw [hab.1, if_pos (hmarked _ hmem)]
          exact Nat.zero_le _
        · rw [if_neg hmem]
          split <;> omega
      simp only [unmarkedWeight]
      omega

theorem sweep_cons (deleted : List Symbol) (group : RuleGroup) (g : RuleSet) :
    sweep deleted (group :: g) =
      if group.alternatives.isEmpty then
        if group.lhs ∈ deleted then
          (group :: (sweep deleted g).1, (sweep deleted g).2.1, (sweep deleted g).2.2)
        else
          (group :: (sweep (group.lhs :: deleted) g).1, (sweep (group.lhs :: deleted) g).2.1,
            .emptied group.lhs :: (sweep (group.lhs :: deleted) g).2.2)
      else
        let kept := keptAlternatives deleted group.alternatives
        let dropped := group.alternatives.length - kept.length
        (⟨group.lhs, kept⟩ :: (sweep deleted g).1, (sweep deleted g).2.1,
          if dropped = 0 then (sweep deleted g).2.2
          else .alternativesDropped dropped group.lhs :: (sweep deleted g).2.2) := rfl

/-- A sweep that reports something drops an alternative or marks a left-hand side. -/
theorem unmarkedWeight_sweep_lt (hloud : (sweep deleted g).2.2 ≠ []) :
    unmarkedWeight (sweep deleted g).2.1 (sweep deleted g).1 < unmarkedWeight deleted g := by
  induction g generalizing deleted with
  | nil => exact absurd rfl hloud
  | cons group g ih =>
      rw [sweep_cons] at hloud ⊢
      by_cases hempty : group.alternatives.isEmpty
      · rw [if_pos hempty] at hloud ⊢
        by_cases hmem : group.lhs ∈ deleted
        · rw [if_pos hmem] at hloud ⊢
          have hkept := (swept_sweep deleted g).deleted_subset _ hmem
          have hlt := ih hloud
          simp only [unmarkedWeight, if_pos hmem, if_pos hkept]
          omega
        · rw [if_neg hmem] at hloud ⊢
          have hswept := swept_sweep (group.lhs :: deleted) g
          have hmarked := hswept.deleted_subset _ (List.mem_cons_self ..)
          have hle : unmarkedWeight (sweep (group.lhs :: deleted) g).2.1
              (sweep (group.lhs :: deleted) g).1 ≤ unmarkedWeight deleted g :=
            unmarkedWeight_le hswept.shrinks
              fun s hs => hswept.deleted_subset s (List.mem_cons_of_mem _ hs)
          simp only [unmarkedWeight, if_neg hmem, if_pos hmarked]
          omega
      · rw [if_neg hempty] at hloud ⊢
        have hswept := swept_sweep deleted g
        have hkept := (keptAlternatives_sublist deleted group.alternatives).length_le
        have hmark : (if group.lhs ∈ (sweep deleted g).2.1 then 0 else 1) ≤
            (if group.lhs ∈ deleted then 0 else 1) := by
          by_cases hmem : group.lhs ∈ deleted
          · rw [if_pos (hswept.deleted_subset _ hmem)]
            exact Nat.zero_le _
          · rw [if_neg hmem]
            split <;> omega
        have hle := unmarkedWeight_le hswept.shrinks hswept.deleted_subset
        simp only [unmarkedWeight] at hloud ⊢
        split at hloud
        · have hlt := ih hloud
          omega
        · omega

/-- The bound on the number of sweeps is never reached. -/
theorem sweeps_sweepAll {bound : Nat} (hbound : unmarkedWeight deleted g < bound) :
    Sweeps deleted g (sweepAll bound deleted g) := by
  induction bound generalizing deleted g with
  | zero => omega
  | succ bound ih =>
      rw [sweepAll_succ]
      by_cases hquiet : (sweep deleted g).2.2 = []
      · have hresult : ((sweep deleted g).1, (sweep deleted g).2.1, ([] : List Notice)) =
            sweep deleted g := by
          rw [← hquiet]
        rw [if_pos (List.isEmpty_iff.2 hquiet), hresult]
        exact .quiet hquiet
      · rw [if_neg (by simpa using hquiet)]
        have hlt := unmarkedWeight_sweep_lt hquiet
        exact .again hquiet (ih (by omega))

/-! ## What sweeps leave -/

/-- The groups of `h` are those of `g`, each with some of its alternatives and with all that
    mention no barren symbol of `whole`. -/
def Spares (whole : RuleSet) (h g : RuleSet) : Prop :=
  List.Forall₂ (fun a b => a.lhs = b.lhs ∧ a.alternatives.Sublist b.alternatives ∧
    fertile whole a.alternatives = fertile whole b.alternatives) h g

theorem Spares.refl (whole g : RuleSet) : Spares whole g g := by
  induction g with
  | nil => exact .nil
  | cons group g ih => exact .cons ⟨rfl, List.Sublist.refl _, rfl⟩ ih

/-- Dropping alternatives that mention barren symbols leaves the others. -/
theorem fertile_keptAlternatives {whole : RuleSet} (hdeleted : ∀ s ∈ deleted, Barren whole s)
    (alternatives : List (List Symbol)) :
    fertile whole (keptAlternatives deleted alternatives) = fertile whole alternatives := by
  rw [fertile, keptAlternatives, List.filter_filter, fertile]
  refine List.filter_congr fun rhs _ => ?_
  rw [Bool.and_eq_left_iff_imp]
  intro hfertile
  have hfertile : ∀ s ∈ rhs, ¬ Barren whole s := by simpa using hfertile
  simp only [Bool.not_eq_true', List.any_eq_false, decide_eq_true_eq]
  exact fun s hs hmem => hfertile s hs (hdeleted s hmem)

/-- What a sweep of `h` keeps up when `h` came from sweeping `whole`. -/
theorem sweep_spares {whole rest : RuleSet} (hrest : ∀ group ∈ rest, group ∈ whole)
    (hdeleted : ∀ s ∈ deleted, Barren whole s) (hs : Spares whole h rest) :
    (∀ s ∈ (sweep deleted h).2.1, Barren whole s) ∧ Spares whole (sweep deleted h).1 rest := by
  induction hs generalizing deleted with
  | nil => exact ⟨hdeleted, .nil⟩
  | @cons a b h rest hab _ ih =>
      have hrest' : ∀ group ∈ rest, group ∈ whole :=
        fun group hgroup => hrest group (List.mem_cons_of_mem _ hgroup)
      rw [sweep_cons]
      by_cases hempty : a.alternatives.isEmpty
      · rw [if_pos hempty]
        by_cases hmem : a.lhs ∈ deleted
        · rw [if_pos hmem]
          obtain ⟨hmarked, hspares⟩ := ih hrest' hdeleted
          exact ⟨hmarked, .cons hab hspares⟩
        · rw [if_neg hmem]
          -- nothing is left of the group, so it had no alternative without barren symbols
          have hbarren : Barren whole a.lhs := by
            rw [hab.1]
            refine .of_group (hrest b (List.mem_cons_self ..)) fun rhs hrhs => ?_
            by_contra hnone
            push Not at hnone
            have hrhs' : rhs ∈ fertile whole a.alternatives := by
              rw [hab.2.2]
              exact mem_fertile.2 ⟨hrhs, hnone⟩
            rw [List.isEmpty_iff.1 hempty] at hrhs'
            exact absurd (mem_fertile.1 hrhs').1 (by simp)
          obtain ⟨hmarked, hspares⟩ := ih hrest' (List.forall_mem_cons.2 ⟨hbarren, hdeleted⟩)
          exact ⟨hmarked, .cons hab hspares⟩
      · rw [if_neg hempty]
        obtain ⟨hmarked, hspares⟩ := ih hrest' hdeleted
        refine ⟨hmarked, .cons ⟨hab.1, ?_, ?_⟩ hspares⟩
        · exact (keptAlternatives_sublist deleted a.alternatives).trans hab.2.1
        · exact (fertile_keptAlternatives hdeleted a.alternatives).trans hab.2.2

/-- A sweep that reports nothing found groups without alternatives among the marked ones, and
    no alternative that mentions a marked left-hand side. -/
theorem sweep_of_quiet (hquiet : (sweep deleted g).2.2 = []) :
    sweep deleted g = (g, deleted, []) ∧ ∀ group ∈ g,
      (group.alternatives = [] → group.lhs ∈ deleted) ∧
        ∀ rhs ∈ group.alternatives, ∀ s ∈ rhs, s ∉ deleted := by
  induction g with
  | nil => exact ⟨rfl, by simp⟩
  | cons group g ih =>
      rw [sweep_cons] at hquiet ⊢
      by_cases hempty : group.alternatives.isEmpty
      · rw [if_pos hempty] at hquiet ⊢
        by_cases hmem : group.lhs ∈ deleted
        · rw [if_pos hmem] at hquiet ⊢
          obtain ⟨heq, hall⟩ := ih hquiet
          rw [heq]
          refine ⟨rfl, List.forall_mem_cons.2 ⟨⟨fun _ => hmem, ?_⟩, hall⟩⟩
          rw [List.isEmpty_iff.1 hempty]
          simp
        · rw [if_neg hmem] at hquiet
          cases hquiet
      · rw [if_neg hempty] at hquiet ⊢
        simp only at hquiet ⊢
        split at hquiet
        · next hdropped =>
            obtain ⟨heq, hall⟩ := ih hquiet
            have hle := (keptAlternatives_sublist deleted group.alternatives).length_le
            have hkept : keptAlternatives deleted group.alternatives = group.alternatives :=
              (keptAlternatives_sublist deleted group.alternatives).eq_of_length (by omega)
            rw [heq, hkept, if_pos (Nat.sub_self _)]
            refine ⟨rfl, List.forall_mem_cons.2
              ⟨⟨fun hnil => ?_, fun rhs hrhs s hs hmem => ?_⟩, hall⟩⟩
            · exact absurd (List.isEmpty_iff.2 hnil) hempty
            · have hself := List.filter_eq_self.1 hkept rhs hrhs
              simp only [Bool.not_eq_true', List.any_eq_false, decide_eq_true_eq] at hself
              exact hself s hs hmem
        · cases hquiet

theorem exists_left_of_forall₂ {α β : Type} {R : α → β → Prop} {l : List α} {m : List β}
    (hlm : List.Forall₂ R l m) {b : β} (hb : b ∈ m) : ∃ a ∈ l, R a b := by
  induction hlm with
  | nil => cases hb
  | @cons a b' l m hab _ ih =>
      rcases List.mem_cons.1 hb with rfl | hb
      · exact ⟨a, List.mem_cons_self .., hab⟩
      · obtain ⟨a', ha', hab'⟩ := ih hb
        exact ⟨a', List.mem_cons_of_mem _ ha', hab'⟩

theorem Spares.eq_fertilePart {whole rest : RuleSet} (hs : Spares whole h rest)
    (hdeleted : ∀ s, s ∈ deleted ↔ Barren whole s)
    (hclean : ∀ group ∈ h, ∀ rhs ∈ group.alternatives, ∀ s ∈ rhs, s ∉ deleted) :
    (h.filter fun group => group.lhs ∉ deleted) = fertilePart whole rest := by
  induction hs with
  | nil => rfl
  | @cons a b h rest hab _ ih =>
      obtain ⟨ha, hh⟩ := List.forall_mem_cons.1 hclean
      rw [fertilePart, List.filter_cons, List.filter_cons, ← hab.1]
      by_cases hbarren : Barren whole a.lhs
      · rw [if_neg (by simpa using (hdeleted a.lhs).2 hbarren), if_neg (by simpa using hbarren)]
        exact ih hh
      · rw [if_pos (by simpa [hdeleted] using hbarren), if_pos (by simpa using hbarren),
          List.map_cons, ih hh]
        have hself : fertile whole a.alternatives = a.alternatives :=
          fertile_eq_self fun rhs hrhs s hs hb => ha rhs hrhs s hs ((hdeleted s).2 hb)
        rw [← hab.1, ← hab.2.2, hself]
        rfl

/-- Sweeps mark exactly the barren left-hand sides, and leave of the other groups exactly the
    alternatives without barren symbols. -/
theorem Sweeps.filter_eq {whole : RuleSet} {result : RuleSet × List Symbol × List Notice}
    (h : Sweeps deleted g result) (hdeleted : ∀ s ∈ deleted, Barren whole s)
    (hs : Spares whole g whole) :
    (result.1.filter fun group => group.lhs ∉ result.2.1) = fertilePart whole whole := by
  induction h with
  | @quiet deleted g hquiet =>
      obtain ⟨heq, hall⟩ := sweep_of_quiet hquiet
      rw [heq]
      -- what is left mentions no marked left-hand side, so the marked ones are a closed set
      have hbarren : ∀ s, Barren whole s → s ∈ deleted := by
        intro s hs'
        refine hs' {s | s ∈ deleted} fun b hb hmentions => ?_
        obtain ⟨a, ha, hlhs, hsub, -⟩ := exists_left_of_forall₂ hs hb
        obtain ⟨hempty, hnone⟩ := hall a ha
        rw [← hlhs]
        refine hempty (List.eq_nil_iff_forall_not_mem.2 fun rhs hrhs => ?_)
        obtain ⟨x, hx, hmem⟩ := hmentions rhs (hsub.subset hrhs)
        exact hnone rhs hrhs x hx hmem
      exact hs.eq_fertilePart (fun s => ⟨hdeleted s, hbarren s⟩) fun a ha => (hall a ha).2
  | @again deleted g later hloud _ ih =>
      obtain ⟨hmarked, hspares⟩ := sweep_spares (fun _ h => h) hdeleted hs
      exact ih hmarked hspares

theorem Sweeps.remaining_eq {result : RuleSet × List Symbol × List Notice}
    (h : Sweeps [] g result) :
    (result.1.filter fun group => group.lhs ∉ result.2.1) = fertilePart g g :=
  h.filter_eq (by simp) (Spares.refl g g)

end ParseBench.Grammar
