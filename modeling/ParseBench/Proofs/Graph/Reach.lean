/-
  ParseBench.Proofs.Graph.Reach

  The breadth first search finds exactly the nodes that a chain of edges leads
  to (`mem_reach_iff`), each once (`nodup_reach`).

  Soundness needs nothing of the bound. Completeness needs a list of nodes that
  no edge leaves and that is no longer than the bound: a node is put into the
  queue when it is first met, so the search cannot expand more nodes than there
  are.
-/

import Mathlib.Data.List.Nodup
import Mathlib.Data.List.Perm.Subperm
import Mathlib.Logic.Relation
import ParseBench.Graph.Reach

namespace ParseBench.Graph

open Relation (ReflTransGen)

variable {α : Type}

/-- There is an edge from `a` to `b`. -/
def Edge (next : α → List α) (a b : α) : Prop := b ∈ next a

/-- A list that contains `starts` and that no edge leaves. -/
structure Closed (next : α → List α) (starts nodes : List α) : Prop where
  starts : ∀ a ∈ starts, a ∈ nodes
  step : ∀ a ∈ nodes, ∀ b ∈ next a, b ∈ nodes

theorem Closed.reached {next : α → List α} {starts nodes : List α}
    (hc : Closed next starts nodes) {s a : α} (hs : s ∈ starts)
    (h : ReflTransGen (Edge next) s a) : a ∈ nodes := by
  induction h with
  | refl => exact hc.starts s hs
  | tail _ hab ih => exact hc.step _ ih _ hab

variable [DecidableEq α]

/-! ## Unseen elements -/

theorem unseen_congr {seen seen' : List α} (h : ∀ a, a ∈ seen ↔ a ∈ seen') (l : List α) :
    unseen seen l = unseen seen' l := by
  induction l generalizing seen seen' with
  | nil => rfl
  | cons b l ih =>
      by_cases hb : b ∈ seen
      · rw [unseen, if_pos hb, unseen, if_pos ((h b).1 hb), ih h]
      · have hcons : ∀ a, a ∈ b :: seen ↔ a ∈ b :: seen' := by simp [h]
        rw [unseen, if_neg hb, unseen, if_neg (fun hb' => hb ((h b).2 hb')), ih hcons]

/-- What is new in a list, element by element. -/
theorem unseen_cons (seen : List α) (a : α) (l : List α) :
    unseen seen (a :: l) = unseen seen [a] ++ unseen (seen ++ unseen seen [a]) l := by
  by_cases ha : a ∈ seen
  · simp [unseen, ha]
  · have hlast : ∀ b, b ∈ a :: seen ↔ b ∈ seen ++ [a] := by simp [or_comm]
    simp [unseen, ha, unseen_congr hlast]

theorem nodup_append_unseen {seen l : List α} (h : seen.Nodup) :
    (seen ++ unseen seen l).Nodup := by
  induction l generalizing seen with
  | nil => simpa using h
  | cons b l ih =>
      by_cases hb : b ∈ seen
      · rw [unseen, if_pos hb]
        exact ih h
      · rw [unseen, if_neg hb]
        have hcons : (b :: seen).Nodup := List.nodup_cons.2 ⟨hb, h⟩
        have hperm : (seen ++ b :: unseen (b :: seen) l).Perm
            ((b :: seen) ++ unseen (b :: seen) l) := List.perm_middle
        exact hperm.nodup_iff.2 (ih hcons)

theorem nodup_unseen {seen l : List α} (h : seen.Nodup) : (unseen seen l).Nodup :=
  (List.nodup_append.1 (nodup_append_unseen h)).2.1

/-! ## Soundness -/

/-- What holds of the nodes met so far and passes along edges holds of all nodes the
    search meets. -/
theorem explore_forall {next : α → List α} {P : α → Prop}
    (hstep : ∀ a, P a → ∀ b ∈ next a, P b) (bound : Nat) (seen pending : List α)
    (hseen : ∀ a ∈ seen, P a) (hpending : ∀ a ∈ pending, P a) :
    ∀ a ∈ explore next bound seen pending, P a := by
  induction bound generalizing seen pending with
  | zero => exact hseen
  | succ bound ih =>
      cases pending with
      | nil => exact hseen
      | cons b pending =>
          have hnew : ∀ a ∈ unseen seen (next b), P a := fun a ha =>
            hstep b (hpending b (List.mem_cons_self ..)) a (mem_unseen.1 ha).1
          rw [explore]
          apply ih
          · intro a ha
            rcases List.mem_append.1 ha with h | h
            · exact hseen a h
            · exact hnew a h
          · intro a ha
            rcases List.mem_append.1 ha with h | h
            · exact hpending a (List.mem_cons_of_mem _ h)
            · exact hnew a h

theorem reach_sound {next : α → List α} {bound : Nat} {starts : List α} {a : α}
    (h : a ∈ reach next bound starts) : ∃ s ∈ starts, ReflTransGen (Edge next) s a := by
  have hstarts : ∀ b ∈ unseen [] starts, ∃ s ∈ starts, ReflTransGen (Edge next) s b :=
    fun b hb => ⟨b, (mem_unseen.1 hb).1, .refl⟩
  refine explore_forall (P := fun b => ∃ s ∈ starts, ReflTransGen (Edge next) s b)
    ?_ bound _ _ hstarts hstarts a h
  rintro b ⟨s, hs, hsb⟩ c hc
  exact ⟨s, hs, hsb.tail hc⟩

/-! ## The list of met nodes -/

theorem prefix_explore {next : α → List α} (bound : Nat) (seen pending : List α) :
    seen <+: explore next bound seen pending := by
  induction bound generalizing seen pending with
  | zero => exact List.prefix_refl seen
  | succ bound ih =>
      cases pending with
      | nil => exact List.prefix_refl seen
      | cons b pending =>
          rw [explore]
          exact (List.prefix_append seen _).trans (ih _ _)

@[simp] theorem explore_nil {next : α → List α} (bound : Nat) (seen : List α) :
    explore next bound seen [] = seen := by
  cases bound with
  | zero => rfl
  | succ _ => rfl

theorem nodup_explore {next : α → List α} (bound : Nat) (seen pending : List α)
    (h : seen.Nodup) : (explore next bound seen pending).Nodup := by
  induction bound generalizing seen pending with
  | zero => exact h
  | succ bound ih =>
      cases pending with
      | nil => exact h
      | cons b pending =>
          rw [explore]
          exact ih _ _ (nodup_append_unseen h)

theorem nodup_reach {next : α → List α} {bound : Nat} {starts : List α} :
    (reach next bound starts).Nodup :=
  nodup_explore bound _ _ (nodup_unseen List.nodup_nil)

theorem getElem?_zero_reach {next : α → List α} {bound : Nat} {start : α} :
    (reach next bound [start])[0]? = some start := by
  obtain ⟨rest, hrest⟩ := @prefix_explore _ _ next bound [start] [start]
  show (explore next bound [start] [start])[0]? = some start
  rw [← hrest]
  rfl

/-! ## Completeness -/

/-- The invariant behind completeness: a met node is still in the queue or all its
    edges lead to met nodes. When the bound covers what `nodes` holds besides the
    nodes expanded so far, the queue runs empty. -/
theorem explore_closed {next : α → List α} {nodes : List α}
    (hnodes : ∀ a ∈ nodes, ∀ b ∈ next a, b ∈ nodes) (bound : Nat) (seen pending : List α)
    (hnodup : seen.Nodup) (hseen : ∀ a ∈ seen, a ∈ nodes) (hpending : ∀ a ∈ pending, a ∈ seen)
    (hdone : ∀ a ∈ seen, a ∈ pending ∨ ∀ b ∈ next a, b ∈ seen)
    (hbound : nodes.length + pending.length ≤ bound + seen.length) :
    ∀ a ∈ explore next bound seen pending, ∀ b ∈ next a,
      b ∈ explore next bound seen pending := by
  induction bound generalizing seen pending with
  | zero =>
      have hle : seen.length ≤ nodes.length :=
        (List.subperm_of_subset hnodup hseen).length_le
      have hempty : pending = [] := List.length_eq_zero_iff.1 (by omega)
      subst hempty
      intro a ha
      exact (hdone a ha).resolve_left (by simp)
  | succ bound ih =>
      cases pending with
      | nil =>
          intro a ha
          exact (hdone a ha).resolve_left (by simp)
      | cons c pending =>
          have hc : c ∈ seen := hpending c (List.mem_cons_self ..)
          rw [explore]
          apply ih
          · exact nodup_append_unseen hnodup
          · intro a ha
            rcases List.mem_append.1 ha with h | h
            · exact hseen a h
            · exact hnodes c (hseen c hc) a (mem_unseen.1 h).1
          · intro a ha
            rcases List.mem_append.1 ha with h | h
            · exact List.mem_append_left _ (hpending a (List.mem_cons_of_mem _ h))
            · exact List.mem_append_right _ h
          · intro a ha
            rcases List.mem_append.1 ha with h | h
            · rcases hdone a h with hq | hall
              · rcases List.mem_cons.1 hq with rfl | hq
                -- the node that is expanded now
                · refine .inr fun b hb => ?_
                  by_cases hbs : b ∈ seen
                  · exact List.mem_append_left _ hbs
                  · exact List.mem_append_right _ (mem_unseen.2 ⟨hb, hbs⟩)
                · exact .inl (List.mem_append_left _ hq)
              · exact .inr fun b hb => List.mem_append_left _ (hall b hb)
            · exact .inl (List.mem_append_right _ h)
          · simp only [List.length_append, List.length_cons] at hbound ⊢
            omega

theorem mem_reach_iff {next : α → List α} {bound : Nat} {starts nodes : List α}
    (hc : Closed next starts nodes) (hbound : nodes.length ≤ bound) {a : α} :
    a ∈ reach next bound starts ↔ ∃ s ∈ starts, ReflTransGen (Edge next) s a := by
  refine ⟨reach_sound, ?_⟩
  rintro ⟨s, hs, hsa⟩
  have hfresh : ∀ b, b ∈ unseen [] starts ↔ b ∈ starts := fun b => by simp [mem_unseen]
  have hclosed := explore_closed hc.step bound (unseen [] starts) (unseen [] starts)
    (nodup_unseen List.nodup_nil) (fun b hb => hc.starts b ((hfresh b).1 hb))
    (fun _ hb => hb) (fun _ hb => .inl hb) (by omega)
  induction hsa with
  | refl => exact (prefix_explore bound _ _).subset ((hfresh s).2 hs)
  | tail _ hab ih => exact hclosed _ ih _ hab

end ParseBench.Graph
