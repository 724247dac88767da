/-
  ParseBench.Proofs.Grammar.Canonical

  The canonical automaton of a grammar, as it is defined without ids and without a
  search: its states are sets of rules with a dot (`Canonical`), the closure of the
  root rule's item and what comes from it by moving dots over a symbol.

  The item sets of a list of rules are these sets with ids in place of rules.
  `stateItems` puts the rules back, and what is proved about it is that it lists the
  canonical states, each once and the initial one first (`mem_stateItems`,
  `nodup_stateItems`, `getElem?_zero_stateItems`), and that the transitions are the
  moves of the canonical automaton (`leads_iff_goto`). Nothing on this side depends
  on the order of the rules.
-/

import Mathlib.Data.Set.Basic
import ParseBench.Proofs.Grammar.Automaton

namespace ParseBench.Grammar

open Relation (ReflTransGen)

/-- A rule with a dot in its right-hand side, or at its end. -/
@[ext]
structure Dotted where
  rule : Rule
  dot : Nat

namespace Dotted

/-- The symbol after the dot. -/
def next? (i : Dotted) : Option Symbol := i.rule.rhs[i.dot]?

/-- The rule with the dot one place further. -/
def moved (i : Dotted) : Dotted := ⟨i.rule, i.dot + 1⟩

end Dotted

/-! ## The canonical automaton -/

/-- The least set with the members of `kernel` that contains, with a non-terminal at a dot, its
    rules with the dot at the beginning. -/
inductive InClosure (rules : List Rule) (kernel : Set Dotted) : Dotted → Prop
  | kernel {i : Dotted} (hi : i ∈ kernel) : InClosure rules kernel i
  | brought {i : Dotted} {r : Rule} (hi : InClosure rules kernel i) (hr : r ∈ rules)
      (hnt : isNonterminal r.lhs = true) (hnext : i.next? = some r.lhs) :
      InClosure rules kernel ⟨r, 0⟩

/-- The state in which a parser begins: the closure of the root rule. -/
def startState (rules : List Rule) : Set Dotted :=
  {i | InClosure rules {i | i.rule ∈ rules ∧ i.rule.lhs = rootSymbol ∧ i.dot = 0} i}

/-- The state after `state` on the symbol `s`: the closure of the moved dots. -/
def gotoState (rules : List Rule) (state : Set Dotted) (s : Symbol) : Set Dotted :=
  {j | InClosure rules {j | ∃ i ∈ state, i.next? = some s ∧ j = i.moved} j}

/-- There is a symbol `s` at a dot of the state, and it is not the end of the input. -/
def Passes (state : Set Dotted) (s : Symbol) : Prop :=
  s ≠ endToken ∧ ∃ i ∈ state, i.next? = some s

/-- The states of the canonical automaton. -/
inductive Canonical (rules : List Rule) : Set Dotted → Prop
  | start : Canonical rules (startState rules)
  | goto {state : Set Dotted} {s : Symbol} (hstate : Canonical rules state)
      (hs : Passes state s) : Canonical rules (gotoState rules state s)

/-! ## Item sets with rules in place of ids -/

variable {rules : List Rule}

/-- The items of a set with the rules that their ids stand for. -/
def dotted (rules : List Rule) (set : List Item) : Set Dotted :=
  {i | ∃ id, rules[id]? = some i.rule ∧ ⟨id, i.dot⟩ ∈ set}

/-- Where no rule is given twice, an item is in a set when its rule is. -/
theorem mem_dotted (hrules : rules.Nodup) {set : List Item} {id dot : Nat} {r : Rule}
    (hr : rules[id]? = some r) : (⟨r, dot⟩ : Dotted) ∈ dotted rules set ↔ ⟨id, dot⟩ ∈ set := by
  constructor
  · rintro ⟨id', hr', hmem⟩
    rwa [eq_of_getElem?_of_nodup hrules hr hr']
  · exact fun hmem => ⟨id, hr, hmem⟩

theorem next?_eq_nextSymbol? {id dot : Nat} {r : Rule} (hr : rules[id]? = some r) :
    nextSymbol? rules ⟨id, dot⟩ = (⟨r, dot⟩ : Dotted).next? := by
  simp only [nextSymbol?, hr, Option.bind_some, Dotted.next?]

theorem inClosure_of_mem_closure {items : List Item} {j : Item} {r : Rule}
    (hj : j ∈ closure rules items) (hr : rules[j.rule]? = some r) :
    InClosure rules (dotted rules items) ⟨r, j.dot⟩ := by
  obtain ⟨i, hi, hedges⟩ := mem_closure.1 hj
  clear hj
  -- along the chain of items that bring each other in
  induction hedges generalizing r with
  | refl => exact .kernel ⟨_, hr, hi⟩
  | tail _ hedge ih =>
      obtain ⟨r', hr', hdot, hnt, hnext⟩ := mem_broughtIn.1 hedge
      rw [hr] at hr'
      cases hr'
      obtain ⟨before, hbefore, hsymbol⟩ := nextSymbol?_eq_some.1 hnext
      rw [hdot]
      exact .brought (ih hbefore) (List.mem_of_getElem? hr) hnt hsymbol

theorem mem_dotted_closure_of_inClosure {items : List Item} {i : Dotted}
    (h : InClosure rules (dotted rules items) i) : i ∈ dotted rules (closure rules items) := by
  induction h with
  | kernel hi =>
      obtain ⟨id, hr, hmem⟩ := hi
      exact ⟨id, hr, subset_closure hmem⟩
  | @brought i r _ hr hnt hnext ih =>
      obtain ⟨id, hid, hmem⟩ := ih
      obtain ⟨id', hr'⟩ := List.getElem?_of_mem hr
      refine ⟨id', hr', closure_closed hmem (mem_broughtIn.2 ⟨r, hr', rfl, hnt, ?_⟩)⟩
      rw [next?_eq_nextSymbol? hid]
      exact hnext

/-- A closure is the least set that its kernel brings about. -/
theorem dotted_closure (items : List Item) :
    dotted rules (closure rules items) = {i | InClosure rules (dotted rules items) i} := by
  ext i
  constructor
  · rintro ⟨id, hr, hmem⟩
    exact inClosure_of_mem_closure hmem hr
  · exact mem_dotted_closure_of_inClosure

theorem dotted_initialItems : dotted rules (initialItems rules rootSymbol) =
    {i | i.rule ∈ rules ∧ i.rule.lhs = rootSymbol ∧ i.dot = 0} := by
  ext i
  constructor
  · rintro ⟨id, hr, hmem⟩
    obtain ⟨r, hr', hlhs, hdot⟩ := mem_initialItems.1 hmem
    rw [hr] at hr'
    cases hr'
    exact ⟨List.mem_of_getElem? hr, hlhs, hdot⟩
  · rintro ⟨hmem, hlhs, hdot⟩
    obtain ⟨id, hr⟩ := List.getElem?_of_mem hmem
    exact ⟨id, hr, mem_initialItems.2 ⟨i.rule, hr, hlhs, hdot⟩⟩

theorem dotted_advance (set : ItemSet) (s : Symbol) : dotted rules (advance rules set s) =
    {j | ∃ i ∈ dotted rules set, i.next? = some s ∧ j = i.moved} := by
  ext j
  constructor
  · rintro ⟨id, hr, hmem⟩
    obtain ⟨dot, hdot, hbefore, hnext⟩ := mem_advance.1 hmem
    rw [next?_eq_nextSymbol? hr] at hnext
    exact ⟨⟨j.rule, dot⟩, ⟨id, hr, hbefore⟩, hnext, Dotted.ext rfl hdot⟩
  · rintro ⟨i, ⟨id, hr, hmem⟩, hnext, rfl⟩
    refine ⟨id, hr, mem_advance.2 ⟨i.dot, rfl, hmem, ?_⟩⟩
    rw [next?_eq_nextSymbol? hr]
    exact hnext

theorem dotted_initialSet : dotted rules (initialSet rules) = startState rules := by
  rw [initialSet, dotted_closure, dotted_initialItems]
  rfl

theorem dotted_successor (set : ItemSet) (s : Symbol) :
    dotted rules (successor rules set s) = gotoState rules (dotted rules set) s := by
  rw [successor, dotted_closure, dotted_advance]
  rfl

theorem mem_followers_iff_passes {set : ItemSet} {s : Symbol} :
    s ∈ followers rules set ↔ Passes (dotted rules set) s := by
  rw [mem_followers, Passes]
  refine and_congr_right fun _ => ?_
  constructor
  · rintro ⟨⟨id, dot⟩, hmem, hnext⟩
    obtain ⟨r, hr, hs⟩ := nextSymbol?_eq_some.1 hnext
    exact ⟨⟨r, dot⟩, ⟨id, hr, hmem⟩, hs⟩
  · rintro ⟨i, ⟨id, hr, hmem⟩, hnext⟩
    refine ⟨_, hmem, ?_⟩
    rw [next?_eq_nextSymbol? hr]
    exact hnext

/-! ## The states and their sets -/

/-- The item sets in the order of the states, with rules in place of ids. -/
def stateItems (rules : List Rule) : List (Set Dotted) := (itemSets rules).map (dotted rules)

theorem mem_stateItems {state : Set Dotted} :
    state ∈ stateItems rules ↔ Canonical rules state := by
  rw [stateItems, List.mem_map]
  constructor
  · rintro ⟨set, hset, rfl⟩
    -- along the chain of item sets from the initial one
    have hedges := mem_itemSets.1 hset
    clear hset
    induction hedges with
    | refl =>
        rw [dotted_initialSet]
        exact .start
    | tail _ hedge ih =>
        obtain ⟨s, hs, rfl⟩ := List.mem_map.1 hedge
        rw [dotted_successor]
        exact .goto ih (mem_followers_iff_passes.1 hs)
  · intro h
    induction h with
    | start => exact ⟨_, mem_itemSets.2 .refl, dotted_initialSet⟩
    | @goto state s _ hs ih =>
        obtain ⟨set, hset, rfl⟩ := ih
        exact ⟨_, successor_mem_itemSets hset (mem_followers_iff_passes.2 hs),
          dotted_successor set s⟩

/-- Item sets with the same rules and dots are the same. -/
theorem dotted_injective (hrules : rules.Nodup) {set set' : ItemSet} (hset : set ∈ itemSets rules)
    (hset' : set' ∈ itemSets rules) (h : dotted rules set = dotted rules set') : set = set' := by
  refine Ordered.eq_of_mem_iff (pairwise_of_mem_itemSets hset) (pairwise_of_mem_itemSets hset') ?_
  rintro ⟨id, dot⟩
  constructor
  · intro hi
    obtain ⟨r, hr⟩ := exists_rule_of_mem_itemSets hset hi
    rw [← mem_dotted hrules hr, ← h]
    exact ⟨id, hr, hi⟩
  · intro hi
    obtain ⟨r, hr⟩ := exists_rule_of_mem_itemSets hset' hi
    rw [← mem_dotted hrules hr, h]
    exact ⟨id, hr, hi⟩

theorem nodup_stateItems (hrules : rules.Nodup) : (stateItems rules).Nodup :=
  nodup_itemSets.map_on fun _ hset _ hset' => dotted_injective hrules hset hset'

theorem getElem?_zero_stateItems : (stateItems rules)[0]? = some (startState rules) := by
  rw [stateItems, List.getElem?_map, getElem?_zero_itemSets, Option.map_some, dotted_initialSet]

theorem getElem?_stateItems {q : Nat} {state : Set Dotted} :
    (stateItems rules)[q]? = some state ↔
      ∃ set, (itemSets rules)[q]? = some set ∧ dotted rules set = state := by
  rw [stateItems, List.getElem?_map, Option.map_eq_some_iff]

/-- A transition leads to the state after a symbol at a dot. -/
theorem leads_iff_goto (hrules : rules.Nodup) {q q' : Nat} {s : Symbol} {state : Set Dotted}
    (hstate : (stateItems rules)[q]? = some state) :
    Leads rules q s q' ↔
      Passes state s ∧ (stateItems rules)[q']? = some (gotoState rules state s) := by
  obtain ⟨set, hset, rfl⟩ := getElem?_stateItems.1 hstate
  rw [leads_iff]
  constructor
  · rintro ⟨set', hset', hs, hnext⟩
    cases hset.symm.trans hset'
    exact ⟨mem_followers_iff_passes.1 hs,
      getElem?_stateItems.2 ⟨_, hnext, dotted_successor set s⟩⟩
  · rintro ⟨hs, hnext⟩
    have hs := mem_followers_iff_passes.2 hs
    obtain ⟨set', hset', heq⟩ := getElem?_stateItems.1 hnext
    rw [← dotted_successor] at heq
    have hmem := successor_mem_itemSets (List.mem_of_getElem? hset) hs
    rw [dotted_injective hrules (List.mem_of_getElem? hset') hmem heq] at hset'
    exact ⟨set, hset, hs, hset'⟩

/-- A state holds the items of its set. -/
theorem holds_iff_mem (hrules : rules.Nodup) {q id dot : Nat} {state : Set Dotted} {r : Rule}
    (hstate : (stateItems rules)[q]? = some state) (hr : rules[id]? = some r) :
    Holds rules q ⟨id, dot⟩ ↔ (⟨r, dot⟩ : Dotted) ∈ state := by
  obtain ⟨set, hset, rfl⟩ := getElem?_stateItems.1 hstate
  rw [mem_dotted hrules hr]
  constructor
  · rintro ⟨set', hset', hmem⟩
    cases hset.symm.trans hset'
    exact hmem
  · exact fun hmem => ⟨set, hset, hmem⟩

end ParseBench.Grammar
