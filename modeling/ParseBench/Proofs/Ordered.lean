/-
  ParseBench.Proofs.Ordered

  The lists that stand for sets are strictly ascending (`pairwise_ofList`). So
  each element stands in them once, and the subsets of an ascending list are its
  sublists (`sublist_of_subset`). The keys of a table are such a list
  (`pairwise_keys_table`), so the first binding of a table with some property is
  the one with the least key (`find?_eq_some_iff_least`).
-/

import Mathlib.Data.List.Nodup
import Mathlib.Data.List.Sort
import Mathlib.Data.String.Basic
import ParseBench.Ordered

namespace ParseBench.Ordered

variable {α : Type} [LT α] [DecidableLT α] [DecidableEq α]
variable [IsTrans α (· < ·)] [Std.Trichotomous (α := α) (· < ·)]

theorem pairwise_insert {a : α} {l : List α} (h : l.Pairwise (· < ·)) :
    (insert a l).Pairwise (· < ·) := by
  induction l with
  | nil => simp [insert]
  | cons b l ih =>
      obtain ⟨hb, hl⟩ := List.pairwise_cons.1 h
      unfold insert
      split
      · exact h
      · next hab =>
          split
          · next hlt =>
              refine List.pairwise_cons.2 ⟨fun c hc => ?_, h⟩
              rcases List.mem_cons.1 hc with rfl | hc
              · exact hlt
              · exact IsTrans.trans _ _ _ hlt (hb c hc)
          · next hlt =>
              refine List.pairwise_cons.2 ⟨fun c hc => ?_, ih hl⟩
              rcases mem_insert.1 hc with rfl | hc
              · by_contra hba
                exact hab (Std.Trichotomous.trichotomous _ _ hlt hba)
              · exact hb c hc

theorem pairwise_ofList (l : List α) : (ofList l).Pairwise (· < ·) := by
  suffices h : ∀ set : List α, set.Pairwise (· < ·) →
      (l.foldl (fun s a => insert a s) set).Pairwise (· < ·) from h [] List.Pairwise.nil
  induction l with
  | nil => exact fun _ hset => hset
  | cons a l ih =>
      intro set hset
      exact ih _ (pairwise_insert hset)

variable [Std.Irrefl (α := α) (· < ·)]

theorem nodup_ofList (l : List α) : (ofList l).Nodup :=
  (pairwise_ofList l).nodup

omit [DecidableLT α] [DecidableEq α] [Std.Trichotomous (α := α) (· < ·)] in
/-- The subsets of an ascending list that are ascending too are its sublists. -/
theorem sublist_of_subset {l m : List α} (hl : l.Pairwise (· < ·)) (hm : m.Pairwise (· < ·))
    (h : ∀ a ∈ l, a ∈ m) : l.Sublist m := by
  have : Std.Antisymm (α := α) (· < ·) :=
    ⟨fun a b hab hba => absurd (IsTrans.trans _ _ _ hab hba) (Std.Irrefl.irrefl a)⟩
  exact List.sublist_of_subperm_of_pairwise (List.subperm_of_subset hl.nodup h) hl hm

omit [DecidableLT α] [DecidableEq α] [Std.Trichotomous (α := α) (· < ·)] in
/-- Ascending lists with the same elements are the same. -/
theorem eq_of_mem_iff {l m : List α} (hl : l.Pairwise (· < ·)) (hm : m.Pairwise (· < ·))
    (h : ∀ a, a ∈ l ↔ a ∈ m) : l = m :=
  (sublist_of_subset hl hm fun a ha => (h a).1 ha).antisymm
    (sublist_of_subset hm hl fun a ha => (h a).2 ha)

/-! ## Tables -/

section Tables

variable {β : Type}

omit [IsTrans α (· < ·)] [Std.Trichotomous (α := α) (· < ·)] [Std.Irrefl (α := α) (· < ·)] in
theorem keys_put (key : α) (value : β) (t : List (α × β)) :
    (put key value t).map Prod.fst = insert key (t.map Prod.fst) := by
  induction t with
  | nil => rfl
  | cons b rest ih =>
      obtain ⟨k, v⟩ := b
      simp only [put, List.map_cons, insert]
      split
      · next h => rw [List.map_cons, h]
      · split
        · rfl
        · rw [List.map_cons, ih]

omit [IsTrans α (· < ·)] [Std.Trichotomous (α := α) (· < ·)] [Std.Irrefl (α := α) (· < ·)] in
theorem keys_table (bindings : List (α × β)) :
    (table bindings).map Prod.fst = ofList (bindings.map Prod.fst) := by
  suffices h : ∀ t : List (α × β),
      (bindings.foldl (fun t b => put b.1 b.2 t) t).map Prod.fst =
        (bindings.map Prod.fst).foldl (fun s a => insert a s) (t.map Prod.fst) from h []
  induction bindings with
  | nil => exact fun _ => rfl
  | cons b rest ih =>
      intro t
      rw [List.foldl_cons, ih, keys_put, List.map_cons, List.foldl_cons]

omit [Std.Irrefl (α := α) (· < ·)] in
theorem pairwise_keys_table (bindings : List (α × β)) :
    ((table bindings).map Prod.fst).Pairwise (· < ·) := by
  rw [keys_table]
  exact pairwise_ofList _

omit [DecidableLT α] [DecidableEq α] [Std.Trichotomous (α := α) (· < ·)] in
/-- The first binding with a property is the one with the least key. -/
theorem find?_eq_some_iff_least {t : List (α × β)} (ht : (t.map Prod.fst).Pairwise (· < ·))
    {test : α × β → Bool} {b : α × β} :
    t.find? test = some b ↔ b ∈ t ∧ test b ∧ ∀ c ∈ t, c.1 < b.1 → test c = false := by
  induction t with
  | nil => simp
  | cons first rest ih =>
      obtain ⟨hfirst, hrest⟩ := List.pairwise_cons.1 ht
      have hlt : ∀ c ∈ rest, first.1 < c.1 := fun c hc => hfirst _ (List.mem_map_of_mem hc)
      cases htest : test first with
      | true =>
          rw [List.find?_cons_of_pos htest, Option.some.injEq]
          constructor
          · rintro rfl
            refine ⟨List.mem_cons_self, htest, fun c hc hlater => ?_⟩
            rcases List.mem_cons.1 hc with rfl | hc
            · exact absurd hlater (Std.Irrefl.irrefl _)
            · exact absurd (IsTrans.trans _ _ _ hlater (hlt c hc)) (Std.Irrefl.irrefl _)
          · rintro ⟨hb, -, hleast⟩
            rcases List.mem_cons.1 hb with rfl | hb
            · rfl
            · rw [hleast first List.mem_cons_self (hlt b hb)] at htest
              cases htest
      | false =>
          rw [List.find?_cons_of_neg (by simp [htest]), ih hrest]
          constructor
          · rintro ⟨hb, hpos, hleast⟩
            have hall := List.forall_mem_cons.2 ⟨fun _ => htest, hleast⟩
            exact ⟨List.mem_cons_of_mem _ hb, hpos, hall⟩
          · rintro ⟨hb, hpos, hleast⟩
            rcases List.mem_cons.1 hb with rfl | hb
            · rw [htest] at hpos
              cases hpos
            · exact ⟨hb, hpos, (List.forall_mem_cons.1 hleast).2⟩

end Tables

end ParseBench.Ordered
