/-
  ParseBench.Proofs.Grammar.Automaton

  The automaton through its states: `Holds q i` says that the item set of state
  `q` has the item `i`, and `Leads q s q'` that the symbol `s` leads from `q` to
  `q'`. The collection of item sets is complete: an item with a symbol other
  than the end of the input at its dot always has a transition over it
  (`Holds.exists_leads`). An item with its dot further in came over the last
  transition (`Leads.holds_pred`), an initial item was brought in or is one of
  the root rule in the first state (`Holds.initial_cases`).
-/

import ParseBench.Grammar.Automaton
import ParseBench.Proofs.Grammar.ItemSet

namespace ParseBench.Grammar

open Relation (ReflTransGen)

variable {rules : List Rule}

/-! ## The collection of item sets -/

/-- The item sets that `set` leads to. -/
def neighbours (rules : List Rule) (set : ItemSet) : List ItemSet :=
  (followers rules set).map (successor rules set)

theorem itemSets_closed :
    Graph.Closed (neighbours rules) [initialSet rules] (allItems rules).sublists where
  starts set hset := by
    rw [List.mem_singleton.1 hset, List.mem_sublists]
    refine closure_sublist_allItems fun i hi => ?_
    obtain ⟨r, hr, -, hdot⟩ := mem_initialItems.1 hi
    exact mem_allItems.2 ⟨r, hr, by omega⟩
  step set _ next hnext := by
    obtain ⟨s, -, rfl⟩ := List.mem_map.1 hnext
    exact List.mem_sublists.2 (closure_sublist_allItems fun i hi => advance_subset_allItems hi)

theorem mem_itemSets {set : ItemSet} :
    set ∈ itemSets rules ↔ ReflTransGen (Graph.Edge (neighbours rules)) (initialSet rules) set := by
  have hbound : (allItems rules).sublists.length ≤ 2 ^ itemCount rules := by
    rw [List.length_sublists, length_allItems]
  have h := Graph.mem_reach_iff itemSets_closed hbound (a := set)
  simp only [List.mem_singleton, exists_eq_left] at h
  exact h

theorem successor_mem_itemSets {set : ItemSet} {s : Symbol} (hset : set ∈ itemSets rules)
    (hs : s ∈ followers rules set) : successor rules set s ∈ itemSets rules :=
  mem_itemSets.2 ((mem_itemSets.1 hset).tail (List.mem_map.2 ⟨s, hs, rfl⟩))

theorem itemSets_cases {set : ItemSet} (h : set ∈ itemSets rules) :
    set = initialSet rules ∨ ∃ before s, set = successor rules before s := by
  cases mem_itemSets.1 h with
  | refl => exact .inl rfl
  | tail _ hedge =>
      obtain ⟨s, -, hs⟩ := List.mem_map.1 hedge
      exact .inr ⟨_, s, hs.symm⟩

theorem pairwise_of_mem_itemSets {set : ItemSet} (hset : set ∈ itemSets rules) :
    set.Pairwise (· < ·) := by
  rcases itemSets_cases hset with rfl | ⟨before, s, rfl⟩
  · exact pairwise_closure _
  · exact pairwise_closure _

/-- The items of an item set belong to rules. -/
theorem exists_rule_of_mem_itemSets {set : ItemSet} (hset : set ∈ itemSets rules) {i : Item}
    (hi : i ∈ set) : ∃ r, rules[i.rule]? = some r := by
  have hall : set.Sublist (allItems rules) :=
    List.mem_sublists.1 (itemSets_closed.reached (List.mem_singleton.2 rfl) (mem_itemSets.1 hset))
  obtain ⟨r, hr, -⟩ := mem_allItems.1 (hall.subset hi)
  exact ⟨r, hr⟩

theorem nodup_itemSets : (itemSets rules).Nodup := Graph.nodup_reach

theorem getElem?_zero_itemSets : (itemSets rules)[0]? = some (initialSet rules) :=
  Graph.getElem?_zero_reach

/-! ## Transitions -/

/-- A table built from a list of keys looks its keys up with the function it was
    built with. -/
theorem lookup_filterMap_pair {α β : Type} [DecidableEq α] (f : α → Option β) (keys : List α)
    (key : α) :
    (keys.filterMap fun k => (f k).map fun v => (k, v)).lookup key =
      if key ∈ keys then f key else none := by
  induction keys with
  | nil => simp
  | cons k keys ih =>
      rw [List.filterMap_cons]
      cases hf : f k with
      | none =>
          simp only [Option.map_none, ih, List.mem_cons]
          by_cases hk : key = k
          · subst hk
            simp [hf]
          · simp [hk]
      | some v =>
          simp only [Option.map_some, Ordered.lookup_cons, ih, List.mem_cons]
          by_cases hk : key = k
          · subst hk
            simp [hf]
          · simp [hk]

theorem eq_of_getElem?_of_nodup {α : Type} {l : List α} (hl : l.Nodup) {a : α} {m n : Nat}
    (hm : l[m]? = some a) (hn : l[n]? = some a) : m = n := by
  obtain ⟨hm, hma⟩ := List.getElem?_eq_some_iff.1 hm
  obtain ⟨hn, hna⟩ := List.getElem?_eq_some_iff.1 hn
  exact hl.getElem_inj_iff.1 (hma.trans hna.symm)

theorem idxOf?_eq_some_iff_getElem? {α : Type} [BEq α] [LawfulBEq α] {l : List α} (hl : l.Nodup)
    {a : α} {n : Nat} : l.idxOf? a = some n ↔ l[n]? = some a := by
  rw [List.idxOf?_eq_some_iff]
  constructor
  · rintro ⟨hn, ha, -⟩
    exact List.getElem?_eq_some_iff.2 ⟨hn, ha⟩
  · intro hget
    obtain ⟨hn, ha⟩ := List.getElem?_eq_some_iff.1 hget
    refine ⟨hn, ha, fun m hm hma => ?_⟩
    have hmn := eq_of_getElem?_of_nodup hl (List.getElem?_eq_some_iff.2 ⟨_, hma⟩) hget
    omega

/-- Where an element's number is its place, what has no number is not in the list. -/
theorem eq_none_iff_not_mem {α : Type} {l : List α} {a : α} {number : Option Nat}
    (h : ∀ n, number = some n ↔ l[n]? = some a) : number = none ↔ a ∉ l := by
  rw [Option.eq_none_iff_forall_ne_some, List.mem_iff_getElem?, not_exists]
  exact forall_congr' fun n => not_congr (h n)

/-- The item set of the state `q` has the item `i`. -/
def Holds (rules : List Rule) (q : Nat) (i : Item) : Prop :=
  ∃ set, (itemSets rules)[q]? = some set ∧ i ∈ set

/-- The symbol `s` leads from the state `q` to the state `q'`. -/
def Leads (rules : List Rule) (q : Nat) (s : Symbol) (q' : Nat) : Prop :=
  (Automaton.ofRules rules).next? q s = some q'

theorem leads_iff {q q' : Nat} {s : Symbol} :
    Leads rules q s q' ↔ ∃ set, (itemSets rules)[q]? = some set ∧ s ∈ followers rules set ∧
      (itemSets rules)[q']? = some (successor rules set s) := by
  unfold Leads Automaton.next? Automaton.ofRules
  rw [Option.bind_eq_some_iff]
  simp only [List.getElem?_map, Option.map_eq_some_iff]
  constructor
  · rintro ⟨row, ⟨set, hset, rfl⟩, hlookup⟩
    rw [lookup_filterMap_pair] at hlookup
    split at hlookup
    · next hs => exact ⟨set, hset, hs, (idxOf?_eq_some_iff_getElem? nodup_itemSets).1 hlookup⟩
    · cases hlookup
  · rintro ⟨set, hset, hs, hnext⟩
    refine ⟨_, ⟨set, hset, rfl⟩, ?_⟩
    rw [lookup_filterMap_pair, if_pos hs]
    exact (idxOf?_eq_some_iff_getElem? nodup_itemSets).2 hnext

namespace Leads

variable {q q' : Nat} {s : Symbol} {i : Item}

theorem ne_end (h : Leads rules q s q') : s ≠ endToken := by
  obtain ⟨set, -, hs, -⟩ := leads_iff.1 h
  exact (mem_followers.1 hs).1

theorem exists_item (h : Leads rules q s q') :
    ∃ i, Holds rules q i ∧ nextSymbol? rules i = some s := by
  obtain ⟨set, hset, hs, -⟩ := leads_iff.1 h
  obtain ⟨-, i, hi, hnext⟩ := mem_followers.1 hs
  exact ⟨i, ⟨set, hset, hi⟩, hnext⟩

/-- A transition moves the dot of every item over its symbol. -/
theorem holds_succ (h : Leads rules q s q') (hi : Holds rules q i)
    (hnext : nextSymbol? rules i = some s) : Holds rules q' ⟨i.rule, i.dot + 1⟩ := by
  obtain ⟨set, hset, -, hset'⟩ := leads_iff.1 h
  obtain ⟨_, hset₂, hi⟩ := hi
  cases hset.symm.trans hset₂
  exact ⟨_, hset', subset_closure (mem_advance.2 ⟨i.dot, rfl, hi, hnext⟩)⟩

/-- An item whose dot is not at the beginning came over the transition. -/
theorem holds_pred {r dot : Nat} (h : Leads rules q s q') (hi : Holds rules q' ⟨r, dot + 1⟩) :
    Holds rules q ⟨r, dot⟩ ∧ nextSymbol? rules ⟨r, dot⟩ = some s := by
  obtain ⟨set, hset, -, hset'⟩ := leads_iff.1 h
  obtain ⟨_, hset₂, hi⟩ := hi
  cases hset'.symm.trans hset₂
  rcases closure_cases hi with hi | ⟨j, -, hbrought⟩
  · obtain ⟨d, hd, hmem, hnext⟩ := mem_advance.1 hi
    cases Nat.succ.inj hd
    exact ⟨⟨set, hset, hmem⟩, hnext⟩
  · obtain ⟨-, -, hdot, -⟩ := mem_broughtIn.1 hbrought
    cases hdot

end Leads

/-- What is true of the items moved over the symbol, and is passed on to the items
    brought in, is true of all items of the state after it. -/
theorem Leads.holds_induction {q q' : Nat} {s : Symbol} {motive : Item → Prop}
    (h : Leads rules q s q')
    (moved : ∀ i, Holds rules q i → nextSymbol? rules i = some s → motive ⟨i.rule, i.dot + 1⟩)
    (brought : ∀ i j, motive i → j ∈ broughtIn rules i → motive j) {i : Item}
    (hi : Holds rules q' i) : motive i := by
  obtain ⟨set, hset, -, hset'⟩ := leads_iff.1 h
  obtain ⟨_, hset₂, hi⟩ := hi
  cases hset'.symm.trans hset₂
  obtain ⟨⟨id, dot⟩, hkernel, hedges⟩ := mem_closure.1 hi
  clear hi
  induction hedges with
  | refl =>
      obtain ⟨dot, rfl, hmem, hnext⟩ := mem_advance.1 hkernel
      exact moved ⟨id, dot⟩ ⟨set, hset, hmem⟩ hnext
  | tail _ hedge ih => exact brought _ _ ih hedge

/-! ## Items of a state -/

theorem holds_zero_of_root {id : Nat} {r : Rule} (hr : rules[id]? = some r)
    (hlhs : r.lhs = rootSymbol) : Holds rules 0 ⟨id, 0⟩ :=
  ⟨_, getElem?_zero_itemSets, subset_closure (mem_initialItems.2 ⟨r, hr, hlhs, rfl⟩)⟩

/-- What is true of the root rules, and is passed on to the items brought in, is true of
    all items of the first state. -/
theorem holds_zero_induction {motive : Item → Prop}
    (root : ∀ id r, rules[id]? = some r → r.lhs = rootSymbol → motive ⟨id, 0⟩)
    (brought : ∀ i j, motive i → j ∈ broughtIn rules i → motive j) {i : Item}
    (hi : Holds rules 0 i) : motive i := by
  obtain ⟨set, hset, hi⟩ := hi
  cases getElem?_zero_itemSets.symm.trans hset
  obtain ⟨⟨id, dot⟩, hkernel, hedges⟩ := mem_closure.1 hi
  clear hi
  induction hedges with
  | refl =>
      obtain ⟨r, hr, hlhs, rfl⟩ := mem_initialItems.1 hkernel
      exact root id r hr hlhs
  | tail _ hedge ih => exact brought _ _ ih hedge

theorem dot_eq_zero_of_holds_zero {i : Item} (h : Holds rules 0 i) : i.dot = 0 := by
  refine holds_zero_induction (motive := fun i => i.dot = 0) ?_ ?_ h
  · exact fun _ _ _ _ => rfl
  · intro _ j _ hj
    obtain ⟨-, -, hdot, -⟩ := mem_broughtIn.1 hj
    exact hdot

/-- No transition leads back to the first state. -/
theorem Leads.ne_zero {q q' : Nat} {s : Symbol} (h : Leads rules q s q') : q' ≠ 0 := by
  rintro rfl
  obtain ⟨i, hi, hnext⟩ := h.exists_item
  have hdot := dot_eq_zero_of_holds_zero (h.holds_succ hi hnext)
  cases hdot

namespace Holds

variable {q : Nat} {i : Item}

/-- The initial items of the non-terminal at a dot are in the state. -/
theorem brought {j : Item} (h : Holds rules q i) (hj : j ∈ broughtIn rules i) :
    Holds rules q j := by
  obtain ⟨set, hset, hi⟩ := h
  rcases itemSets_cases (List.mem_of_getElem? hset) with rfl | ⟨before, s, rfl⟩
  · exact ⟨_, hset, closure_closed hi hj⟩
  · exact ⟨_, hset, closure_closed hi hj⟩

theorem exists_leads {s : Symbol} (h : Holds rules q i) (hnext : nextSymbol? rules i = some s)
    (hs : s ≠ endToken) : ∃ q', Leads rules q s q' := by
  obtain ⟨set, hset, hi⟩ := h
  have hfollow : s ∈ followers rules set := mem_followers.2 ⟨hs, i, hi, hnext⟩
  have hmem := successor_mem_itemSets (List.mem_of_getElem? hset) hfollow
  obtain ⟨q', hq'⟩ := List.getElem?_of_mem hmem
  exact ⟨q', leads_iff.2 ⟨set, hset, hfollow, hq'⟩⟩

theorem initial_cases {id : Nat} (h : Holds rules q ⟨id, 0⟩) :
    (q = 0 ∧ ∃ r, rules[id]? = some r ∧ r.lhs = rootSymbol) ∨
      ∃ i, Holds rules q i ∧ ⟨id, 0⟩ ∈ broughtIn rules i := by
  obtain ⟨set, hset, hi⟩ := h
  rcases itemSets_cases (List.mem_of_getElem? hset) with rfl | ⟨before, s, rfl⟩
  · rcases closure_cases hi with hi | ⟨j, hj, hbrought⟩
    · obtain ⟨r, hr, hlhs, -⟩ := mem_initialItems.1 hi
      have hq : q = 0 := eq_of_getElem?_of_nodup nodup_itemSets hset getElem?_zero_itemSets
      exact .inl ⟨hq, r, hr, hlhs⟩
    · exact .inr ⟨j, ⟨_, hset, hj⟩, hbrought⟩
  · rcases closure_cases hi with hi | ⟨j, hj, hbrought⟩
    · obtain ⟨dot, hdot, -⟩ := mem_advance.1 hi
      cases hdot
    · exact .inr ⟨j, ⟨_, hset, hj⟩, hbrought⟩

/-- A state that holds an item holds it further in after the symbols in between. -/
theorem exists_holds_succ {s : Symbol} (h : Holds rules q i)
    (hnext : nextSymbol? rules i = some s) (hs : s ≠ endToken) :
    ∃ q', Leads rules q s q' ∧ Holds rules q' ⟨i.rule, i.dot + 1⟩ := by
  obtain ⟨q', hq'⟩ := h.exists_leads hnext hs
  exact ⟨q', hq', hq'.holds_succ h hnext⟩

end Holds

end ParseBench.Grammar
