/-
  ParseBench.Proofs.Grammar.ItemSet

  What is in a closure and in an advanced set. A closure holds the items it was
  made from and, for each of its members with a non-terminal at the dot, the
  initial items of that non-terminal; each other member was brought in by one
  (`closure_closed`, `closure_cases`).

  The sets of items of a grammar, written in ascending order, are sublists of
  the list of all its items. This bounds their number.
-/

import Mathlib.Data.List.Sublists
import ParseBench.Grammar.Item
import ParseBench.Proofs.Graph.Reach
import ParseBench.Proofs.Ordered

namespace ParseBench.Grammar

open Relation (ReflTransGen)

variable {rules : List Rule}

/-! ## The order of items -/

theorem Item.lt_iff {i j : Item} :
    i < j ↔ i.rule < j.rule ∨ (i.rule = j.rule ∧ i.dot < j.dot) := Iff.rfl

instance : IsTrans Item (· < ·) where
  trans i j k hij hjk := by
    rw [Item.lt_iff] at hij hjk ⊢
    omega

instance : Std.Irrefl (α := Item) (· < ·) where
  irrefl i hi := by
    rw [Item.lt_iff] at hi
    omega

instance : Std.Trichotomous (α := Item) (· < ·) where
  trichotomous i j hij hji := by
    rw [Item.lt_iff] at hij hji
    obtain ⟨r, d⟩ := i
    obtain ⟨r', d'⟩ := j
    simp only [Item.mk.injEq] at hij hji ⊢
    omega

/-! ## All items -/

/-- The items of rules whose ids begin at `id`, in ascending order. -/
def itemsFrom (id : Nat) : List Rule → List Item
  | [] => []
  | r :: rest =>
    (List.range (r.rhs.length + 1)).map (fun dot => ⟨id, dot⟩) ++ itemsFrom (id + 1) rest

/-- The items of a list of rules. -/
def allItems (rules : List Rule) : List Item := itemsFrom 0 rules

theorem mem_itemsFrom {id : Nat} {rules : List Rule} {i : Item} :
    i ∈ itemsFrom id rules ↔
      id ≤ i.rule ∧ ∃ r, rules[i.rule - id]? = some r ∧ i.dot ≤ r.rhs.length := by
  induction rules generalizing id with
  | nil => simp [itemsFrom]
  | cons r rest ih =>
      rw [itemsFrom, List.mem_append, ih]
      constructor
      · rintro (h | ⟨hid, r', hr', hdot⟩)
        · obtain ⟨dot, hdot, rfl⟩ := List.mem_map.1 h
          rw [List.mem_range] at hdot
          exact ⟨Nat.le_refl id, r, by simp, by simp only; omega⟩
        · have hsucc : i.rule - id = (i.rule - (id + 1)) + 1 := by omega
          exact ⟨by omega, r', by rw [hsucc, List.getElem?_cons_succ]; exact hr', hdot⟩
      · rintro ⟨hid, r', hr', hdot⟩
        by_cases h : i.rule = id
        · rw [h, Nat.sub_self, List.getElem?_cons_zero] at hr'
          cases hr'
          exact .inl (List.mem_map.2 ⟨i.dot, List.mem_range.2 (by omega), by rw [← h]⟩)
        · have hsucc : i.rule - id = (i.rule - (id + 1)) + 1 := by omega
          rw [hsucc, List.getElem?_cons_succ] at hr'
          exact .inr ⟨by omega, r', hr', hdot⟩

theorem mem_allItems {i : Item} :
    i ∈ allItems rules ↔ ∃ r, rules[i.rule]? = some r ∧ i.dot ≤ r.rhs.length := by
  simp [allItems, mem_itemsFrom]

theorem pairwise_itemsFrom (id : Nat) (rules : List Rule) :
    (itemsFrom id rules).Pairwise (· < ·) := by
  induction rules generalizing id with
  | nil => exact List.Pairwise.nil
  | cons r rest ih =>
      rw [itemsFrom, List.pairwise_append]
      refine ⟨?_, ih (id + 1), ?_⟩
      · rw [List.pairwise_map]
        refine List.pairwise_lt_range.imp ?_
        intro a b hab
        exact .inr ⟨rfl, hab⟩
      · intro i hi j hj
        obtain ⟨dot, -, rfl⟩ := List.mem_map.1 hi
        have hid := (mem_itemsFrom.1 hj).1
        exact Item.lt_iff.2 (.inl (by simp only; omega))

theorem length_itemsFrom (id : Nat) (rules : List Rule) :
    (itemsFrom id rules).length = itemCount rules := by
  induction rules generalizing id with
  | nil => rfl
  | cons r rest ih =>
      rw [itemsFrom, List.length_append, List.length_map, List.length_range, ih]
      simp [itemCount]

theorem length_allItems : (allItems rules).length = itemCount rules :=
  length_itemsFrom 0 rules

/-! ## Items that are brought in -/

theorem mem_initialItems {s : Symbol} {i : Item} :
    i ∈ initialItems rules s ↔ ∃ r, rules[i.rule]? = some r ∧ r.lhs = s ∧ i.dot = 0 := by
  rw [initialItems, List.mem_map]
  constructor
  · rintro ⟨⟨r, id⟩, h, rfl⟩
    obtain ⟨hmem, hlhs⟩ := List.mem_filter.1 h
    exact ⟨r, List.mem_zipIdx_iff_getElem?.1 hmem, by simpa using hlhs, rfl⟩
  · rintro ⟨r, hr, hlhs, hdot⟩
    refine ⟨(r, i.rule), List.mem_filter.2 ⟨List.mem_zipIdx_iff_getElem?.2 hr, ?_⟩, ?_⟩
    · simpa using hlhs
    · rw [← hdot]

theorem mem_broughtIn {i j : Item} :
    j ∈ broughtIn rules i ↔ ∃ r, rules[j.rule]? = some r ∧ j.dot = 0 ∧
      isNonterminal r.lhs = true ∧ nextSymbol? rules i = some r.lhs := by
  unfold broughtIn
  split
  · next s hs =>
      split
      · next hnt =>
          rw [mem_initialItems]
          constructor
          · rintro ⟨r, hr, rfl, hdot⟩
            exact ⟨r, hr, hdot, hnt, hs⟩
          · rintro ⟨r, hr, hdot, -, hnext⟩
            rw [hs] at hnext
            exact ⟨r, hr, (Option.some.inj hnext).symm, hdot⟩
      · next hnt =>
          simp only [List.not_mem_nil, false_iff]
          rintro ⟨r, -, -, hlhs, hnext⟩
          rw [hs] at hnext
          rw [Option.some.inj hnext] at hnt
          exact hnt hlhs
  · next hs => simp [hs]

theorem broughtIn_subset_allItems {i j : Item} (h : j ∈ broughtIn rules i) :
    j ∈ allItems rules := by
  obtain ⟨r, hr, hdot, -⟩ := mem_broughtIn.1 h
  exact mem_allItems.2 ⟨r, hr, by omega⟩

/-! ## Closures -/

theorem mem_closure {items : List Item} {j : Item} :
    j ∈ closure rules items ↔
      ∃ i ∈ items, ReflTransGen (Graph.Edge (broughtIn rules)) i j := by
  have hc : Graph.Closed (broughtIn rules) items (allItems rules ++ items) :=
    { starts := fun _ hi => List.mem_append_right _ hi
      step := fun _ _ _ hj => List.mem_append_left _ (broughtIn_subset_allItems hj) }
  rw [closure, Ordered.mem_ofList, Graph.mem_reach_iff hc]
  rw [List.length_append, length_allItems]

theorem subset_closure {items : List Item} {i : Item} (h : i ∈ items) :
    i ∈ closure rules items :=
  mem_closure.2 ⟨i, h, .refl⟩

theorem closure_closed {items : List Item} {i j : Item} (hi : i ∈ closure rules items)
    (hj : j ∈ broughtIn rules i) : j ∈ closure rules items := by
  obtain ⟨k, hk, hki⟩ := mem_closure.1 hi
  exact mem_closure.2 ⟨k, hk, hki.tail hj⟩

theorem closure_cases {items : List Item} {j : Item} (h : j ∈ closure rules items) :
    j ∈ items ∨ ∃ i ∈ closure rules items, j ∈ broughtIn rules i := by
  obtain ⟨k, hk, hkj⟩ := mem_closure.1 h
  cases hkj with
  | refl => exact .inl hk
  | tail hki hij => exact .inr ⟨_, mem_closure.2 ⟨k, hk, hki⟩, hij⟩

theorem pairwise_closure (items : List Item) : (closure rules items).Pairwise (· < ·) :=
  Ordered.pairwise_ofList _

theorem closure_sublist_allItems {items : List Item} (h : ∀ i ∈ items, i ∈ allItems rules) :
    (closure rules items).Sublist (allItems rules) := by
  refine Ordered.sublist_of_subset (pairwise_closure items) (pairwise_itemsFrom 0 rules) ?_
  intro j hj
  rcases closure_cases hj with hj | ⟨i, -, hij⟩
  · exact h j hj
  · exact broughtIn_subset_allItems hij

/-! ## Advancing -/

theorem mem_advance {set : ItemSet} {s : Symbol} {j : Item} :
    j ∈ advance rules set s ↔
      ∃ dot, j.dot = dot + 1 ∧ ⟨j.rule, dot⟩ ∈ set ∧ nextSymbol? rules ⟨j.rule, dot⟩ = some s := by
  rw [advance, List.mem_map]
  constructor
  · rintro ⟨i, hi, rfl⟩
    obtain ⟨hset, hnext⟩ := List.mem_filter.1 hi
    exact ⟨i.dot, rfl, hset, by simpa using hnext⟩
  · rintro ⟨dot, hdot, hset, hnext⟩
    exact ⟨⟨j.rule, dot⟩, List.mem_filter.2 ⟨hset, by simpa using hnext⟩, by rw [← hdot]⟩

theorem mem_followers {set : ItemSet} {s : Symbol} :
    s ∈ followers rules set ↔ s ≠ endToken ∧ ∃ i ∈ set, nextSymbol? rules i = some s := by
  rw [followers, Graph.mem_unseen, List.mem_filterMap, List.mem_singleton]
  exact And.comm

theorem nextSymbol?_eq_some {i : Item} {s : Symbol} :
    nextSymbol? rules i = some s ↔ ∃ r, rules[i.rule]? = some r ∧ r.rhs[i.dot]? = some s := by
  rw [nextSymbol?, Option.bind_eq_some_iff]

theorem isComplete_eq_true {i : Item} :
    isComplete rules i = true ↔ ∃ r, rules[i.rule]? = some r ∧ i.dot = r.rhs.length := by
  unfold isComplete
  split
  · next r hr => simp [hr]
  · next hr => simp [hr]

theorem advance_subset_allItems {set : ItemSet} {s : Symbol} {i : Item}
    (h : i ∈ advance rules set s) : i ∈ allItems rules := by
  obtain ⟨dot, hdot, -, hnext⟩ := mem_advance.1 h
  obtain ⟨r, hr, hs⟩ := nextSymbol?_eq_some.1 hnext
  have hlt := (List.getElem?_eq_some_iff.1 hs).1
  exact mem_allItems.2 ⟨r, hr, by simp only at hlt; omega⟩

end ParseBench.Grammar
