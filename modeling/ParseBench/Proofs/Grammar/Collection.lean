/-
  ParseBench.Proofs.Grammar.Collection

  Collecting the item sets with a queue. A set gets its number when it is first met, while the
  collection is still growing; the numbers wait in a queue until their states are visited, and
  each visit records where the symbols at the dots lead (`Collection.run`).

  What holds all the time is `Collection.Records`: numbers stand for sets and sets for numbers,
  and the recorded transitions are those of the symbols passed so far. So a symbol that is
  passed a second time leads to the same state, and no transition is ever ambiguous
  (`Records.connect`). After each visit the queue holds the numbers from the next state on
  (`Collection.Tracks`), and what the search for all item sets would still find is what it has
  found in all (`Tracks.turn`). There are finitely many item sets, so the queue runs empty
  (`Tracks.run`).
-/

import Mathlib.Order.Bounds.Basic
import ParseBench.Proofs.Grammar.Automaton

namespace ParseBench.Grammar

open Relation (ReflTransGen)

/-! ## The collection -/

/-- Item sets that are being collected. -/
structure Collection where
  /-- The numbers of the sets met so far. -/
  ids : List (ItemSet × Nat)
  /-- The sets by their numbers. -/
  sets : List ItemSet
  /-- For each set the symbols passed so far, and where they lead. -/
  transitions : List (List (Symbol × Nat))
  /-- The numbers of the sets still to be visited, the next one first. -/
  queue : List Nat

/-- A symbol that leads from one state to two. -/
structure Ambiguity where
  state : Nat
  symbol : Symbol

namespace Collection

/-- The closure of the root rule's items is met first. -/
def initial (rules : List Rule) : Collection where
  ids := [(initialSet rules, 0)]
  sets := [initialSet rules]
  transitions := [[]]
  queue := [0]

/-- The state that a symbol leads to, as far as it is recorded. -/
def next? (c : Collection) (state : Nat) (s : Symbol) : Option Nat :=
  c.transitions[state]?.bind fun row => row.lookup s

/-- The number of a set. A set that was not met before gets the next one and is put into the
    queue. -/
def enter (c : Collection) (set : ItemSet) : Collection × Nat :=
  match c.ids.lookup set with
  | some id => (c, id)
  | none =>
    let id := c.sets.length
    ({ ids := (set, id) :: c.ids
       sets := c.sets ++ [set]
       transitions := c.transitions ++ [[]]
       queue := c.queue ++ [id] }, id)

/-- Records where a symbol leads. It must not lead to another state already. -/
def connect (c : Collection) (state : Nat) (s : Symbol) (next : Nat) :
    Except Ambiguity Collection :=
  let connected := { c with transitions := c.transitions.modify state (Ordered.put s next) }
  match c.next? state s with
  | some previous => if previous = next then .ok connected else .error ⟨state, s⟩
  | none => .ok connected

/-- Passes a symbol at the dots of a state. -/
def pass (rules : List Rule) (state : Nat) (set : ItemSet) (c : Collection) (s : Symbol) :
    Except Ambiguity Collection :=
  let entered := c.enter (successor rules set s)
  entered.1.connect state s entered.2

/-- Passes all symbols at the dots of a state, in the order of its items. -/
def visit (rules : List Rule) (c : Collection) (state : Nat) : Except Ambiguity Collection :=
  let set := c.sets[state]?.getD []
  (followers rules set).foldlM (pass rules state set) c

/-- Visits states until the queue is empty, at most `bound` of them; `none` if they do not
    suffice. -/
def run (rules : List Rule) : Nat → Collection → Option (Except Ambiguity Collection)
  | 0, _ => none
  | bound + 1, c =>
    match c.queue with
    | [] => some (.ok c)
    | state :: queue =>
      match visit rules { c with queue := queue } state with
      | .error e => some (.error e)
      | .ok c => run rules bound c

end Collection

/-! ## What is recorded -/

theorem getElem?_concat_eq_some {α : Type} {l : List α} {a b : α} {i : Nat} :
    (l ++ [a])[i]? = some b ↔ l[i]? = some b ∨ (i = l.length ∧ b = a) := by
  rcases Nat.lt_trichotomy i l.length with hlt | rfl | hlt
  · rw [List.getElem?_append_left hlt]
    exact ⟨.inl, fun h => h.resolve_right fun h => by omega⟩
  · simp [eq_comm]
  · rw [List.getElem?_eq_none (by simp; omega), List.getElem?_eq_none (by omega)]
    simp
    omega

namespace Collection

variable {rules : List Rule} {c : Collection} {passed : Nat → Symbol → Prop}

/-- Numbers and sets stand for each other, and the recorded transitions are those of the
    symbols that the states have passed. -/
structure Records (rules : List Rule) (c : Collection) (passed : Nat → Symbol → Prop) : Prop where
  ids : ∀ set id, c.ids.lookup set = some id ↔ c.sets[id]? = some set
  rows : c.transitions.length = c.sets.length
  closed : ∀ q s, passed q s → ∃ set, c.sets[q]? = some set ∧ successor rules set s ∈ c.sets
  next : ∀ q s q', c.next? q s = some q' ↔
    passed q s ∧ ∃ set, c.sets[q]? = some set ∧ c.sets[q']? = some (successor rules set s)

/-- `c'` has some more sets than `c`, and their numbers are at the end of the queue. -/
structure Extends (c c' : Collection) (new : List ItemSet) : Prop where
  sets : c'.sets = c.sets ++ new
  queue : c'.queue = c.queue ++ List.range' c.sets.length new.length

theorem Extends.trans {c' c'' : Collection} {new new' : List ItemSet} (h : Extends c c' new)
    (h' : Extends c' c'' new') : Extends c c'' (new ++ new') where
  sets := by rw [h'.sets, h.sets, List.append_assoc]
  queue := by
    rw [h'.queue, h.queue, h.sets, List.append_assoc, List.length_append, List.length_append,
      List.range'_append_1]

theorem Extends.getElem? {c' : Collection} {new : List ItemSet} (h : Extends c c' new) {q : Nat}
    {set : ItemSet} (hq : c.sets[q]? = some set) : c'.sets[q]? = some set := by
  rw [h.sets, List.getElem?_append_left (List.getElem?_eq_some_iff.1 hq).1]
  exact hq

namespace Records

/-- A set has one number. -/
theorem unique (h : Records rules c passed) {q q' : Nat} {set : ItemSet}
    (hq : c.sets[q]? = some set) (hq' : c.sets[q']? = some set) : q = q' := by
  have hid := (h.ids set q).2 hq
  rw [(h.ids set q').2 hq', Option.some.injEq] at hid
  exact hid.symm

theorem lookup_eq_none_iff (h : Records rules c passed) {set : ItemSet} :
    c.ids.lookup set = none ↔ set ∉ c.sets :=
  eq_none_iff_not_mem (h.ids set)

/-- A new set takes the next number; nothing that is recorded changes. -/
theorem enter_new (h : Records rules c passed) {set : ItemSet} (hnew : set ∉ c.sets) :
    Records rules
      { ids := (set, c.sets.length) :: c.ids
        sets := c.sets ++ [set]
        transitions := c.transitions ++ [[]]
        queue := c.queue ++ [c.sets.length] } passed := by
  have hnone := h.lookup_eq_none_iff.2 hnew
  constructor
  case ids =>
    intro set' id
    rw [Ordered.lookup_cons, getElem?_concat_eq_some, ← h.ids]
    split
    · next heq =>
        subst heq
        rw [hnone]
        simp [eq_comm]
    · next hne => simp [hne]
  case rows => simp [h.rows]
  case closed =>
    intro q s hpassed
    obtain ⟨before, hbefore, hmem⟩ := h.closed q s hpassed
    exact ⟨before, getElem?_concat_eq_some.2 (.inl hbefore), List.mem_append_left _ hmem⟩
  case next =>
    intro q s q'
    -- the new row is empty, so it leads nowhere, as if there were no row
    have hsame : (c.transitions ++ [[]])[q]?.bind (fun row => row.lookup s) = c.next? q s := by
      rw [next?]
      by_cases hlt : q < c.transitions.length
      · rw [List.getElem?_append_left hlt]
      · rw [List.getElem?_append_right (by omega), List.getElem?_eq_none (by omega : _ ≤ q)]
        cases hrow : [([] : List (Symbol × Nat))][q - c.transitions.length]? with
        | none => rfl
        | some row =>
            obtain rfl : row = [] := by simpa using List.mem_of_getElem? hrow
            rfl
    rw [next?, hsame, h.next]
    refine and_congr_right fun hpassed => ?_
    obtain ⟨before, hbefore, hmem⟩ := h.closed q s hpassed
    constructor
    · rintro ⟨set', hset', hnext⟩
      exact ⟨set', getElem?_concat_eq_some.2 (.inl hset'), getElem?_concat_eq_some.2 (.inl hnext)⟩
    · rintro ⟨set', hset', hnext⟩
      obtain rfl : before = set' := by
        rw [getElem?_concat_eq_some.2 (.inl hbefore), Option.some.injEq] at hset'
        exact hset'
      -- what a passed symbol leads to is not new
      refine ⟨before, hbefore, (getElem?_concat_eq_some.1 hnext).resolve_right ?_⟩
      rintro ⟨-, heq⟩
      exact hnew (heq ▸ hmem)

theorem enter (h : Records rules c passed) (set : ItemSet) :
    Records rules (c.enter set).1 passed ∧
      (c.enter set).1.sets[(c.enter set).2]? = some set ∧
      Extends c (c.enter set).1 (Graph.unseen c.sets [set]) := by
  unfold Collection.enter
  split
  · next id hid =>
      have hget := (h.ids set id).1 hid
      have hseen : Graph.unseen c.sets [set] = [] := by
        rw [Graph.unseen, if_pos (List.mem_of_getElem? hget), Graph.unseen_nil]
      rw [hseen]
      exact ⟨h, hget, ⟨(List.append_nil _).symm, (List.append_nil _).symm⟩⟩
  · next hnone =>
      have hnew := h.lookup_eq_none_iff.1 hnone
      have hunseen : Graph.unseen c.sets [set] = [set] := by
        rw [Graph.unseen, if_neg hnew, Graph.unseen_nil]
      rw [hunseen]
      exact ⟨h.enter_new hnew, by simp, ⟨rfl, rfl⟩⟩

/-- A symbol leads from a set to one set, and that has one number: whatever was recorded for
    the symbol before is the same. -/
theorem connect (h : Records rules c passed) {state next : Nat} {set : ItemSet} {s : Symbol}
    (hstate : c.sets[state]? = some set) (hnext : c.sets[next]? = some (successor rules set s)) :
    ∃ c', c.connect state s next = .ok c' ∧ Extends c c' [] ∧
      Records rules c' (fun q t => passed q t ∨ (q = state ∧ t = s)) := by
  have hconnected : c.connect state s next =
      .ok { c with transitions := c.transitions.modify state (Ordered.put s next) } := by
    unfold Collection.connect
    split
    · next previous hprevious =>
        obtain ⟨-, set', hset', hleads⟩ := (h.next state s previous).1 hprevious
        cases hstate.symm.trans hset'
        rw [if_pos (h.unique hleads hnext)]
    · rfl
  refine ⟨_, hconnected, ⟨(List.append_nil _).symm, (List.append_nil _).symm⟩, ?_⟩
  have hlookup : ∀ q t,
      next? { c with transitions := c.transitions.modify state (Ordered.put s next) } q t =
        if q = state ∧ t = s then some next else c.next? q t := by
    intro q t
    rw [next?, next?, List.getElem?_modify]
    by_cases hq : state = q
    · subst hq
      have hlt : state < c.transitions.length := by
        rw [h.rows]
        exact (List.getElem?_eq_some_iff.1 hstate).1
      rw [List.getElem?_eq_getElem hlt]
      simp [Ordered.lookup_put]
    · simp [hq, Ne.symm hq]
  constructor
  case ids => exact h.ids
  case rows => simpa using h.rows
  case closed =>
    rintro q t (hpassed | ⟨rfl, rfl⟩)
    · exact h.closed q t hpassed
    · exact ⟨set, hstate, List.mem_of_getElem? hnext⟩
  case next =>
    intro q t q'
    rw [hlookup]
    split
    · next heq =>
        obtain ⟨rfl, rfl⟩ := heq
        rw [Option.some.injEq]
        constructor
        · rintro rfl
          exact ⟨.inr ⟨rfl, rfl⟩, set, hstate, hnext⟩
        · rintro ⟨-, set', hset', hleads⟩
          cases hstate.symm.trans hset'
          exact h.unique hnext hleads
    · next hne => rw [h.next, or_iff_left hne]

/-- A visit passes the symbols, and meets the sets they lead to. -/
theorem pass_all (h : Records rules c passed) {state : Nat} {set : ItemSet}
    (hstate : c.sets[state]? = some set) (symbols : List Symbol) :
    ∃ c', symbols.foldlM (pass rules state set) c = .ok c' ∧
      Extends c c' (Graph.unseen c.sets (symbols.map (successor rules set))) ∧
      Records rules c' (fun q t => passed q t ∨ (q = state ∧ t ∈ symbols)) := by
  induction symbols generalizing c passed with
  | nil =>
      refine ⟨c, rfl, ⟨(List.append_nil _).symm, (List.append_nil _).symm⟩, ?_⟩
      simpa using h
  | cons s symbols ih =>
      obtain ⟨hentered, hnext, hmore⟩ := h.enter (successor rules set s)
      obtain ⟨c₁, hconnect, hsame, hrecords⟩ :=
        hentered.connect (hmore.getElem? hstate) hnext
      have hfirst := hmore.trans hsame
      obtain ⟨c', hfold, hrest, hrecords'⟩ := ih hrecords (hfirst.getElem? hstate)
      refine ⟨c', ?_, ?_, ?_⟩
      · rw [List.foldlM_cons, pass, hconnect]
        exact hfold
      · have hextends := hfirst.trans hrest
        rw [hfirst.sets, List.append_nil] at hextends
        rw [List.map_cons, Graph.unseen_cons]
        exact hextends
      · have hpassed : (fun q t => (passed q t ∨ (q = state ∧ t = s)) ∨ (q = state ∧ t ∈ symbols)) =
            fun q t => passed q t ∨ (q = state ∧ t ∈ s :: symbols) := by
          funext q t
          simp only [List.mem_cons, and_or_left, or_assoc]
        rw [← hpassed]
        exact hrecords'

end Records

/-! ## From visit to visit -/

/-- The states before `visited` have passed all symbols at their dots. -/
def Passed (rules : List Rule) (sets : List ItemSet) (visited : Nat) (q : Nat) (s : Symbol) :
    Prop :=
  q < visited ∧ ∃ set, sets[q]? = some set ∧ s ∈ followers rules set

/-- The states are visited in the order of their numbers, and what a search would still find
    from here is all there is to find. -/
structure Tracks (rules : List Rule) (c : Collection) (visited : Nat) : Prop where
  records : Records rules c (Passed rules c.sets visited)
  queue : c.queue = List.range' visited (c.sets.length - visited)
  visited_le : visited ≤ c.sets.length
  remaining : Graph.explore (neighbours rules) (2 ^ itemCount rules - visited) c.sets
    (c.sets.drop visited) = itemSets rules

/-- There are no more item sets than sets of items. -/
theorem length_itemSets_le : (itemSets rules).length ≤ 2 ^ itemCount rules := by
  have hsubset : ∀ set ∈ itemSets rules, set ∈ (allItems rules).sublists := fun set hset =>
    itemSets_closed.reached (List.mem_singleton.2 rfl) (mem_itemSets.1 hset)
  calc (itemSets rules).length
      ≤ (allItems rules).sublists.length :=
        (List.subperm_of_subset nodup_itemSets hsubset).length_le
    _ = 2 ^ itemCount rules := by rw [List.length_sublists, length_allItems]

theorem passed_succ_iff {sets sets' : List ItemSet} {visited q : Nat} {set : ItemSet} {s : Symbol}
    (hset : sets[visited]? = some set) (hbegins : sets <+: sets') :
    Passed rules sets' (visited + 1) q s ↔
      Passed rules sets visited q s ∨ (q = visited ∧ s ∈ followers rules set) := by
  have hlt := (List.getElem?_eq_some_iff.1 hset).1
  obtain ⟨more, rfl⟩ := hbegins
  unfold Passed
  constructor
  · rintro ⟨hq, set', hset', hs⟩
    rw [List.getElem?_append_left (by omega)] at hset'
    rcases Nat.lt_succ_iff_lt_or_eq.1 hq with hq | rfl
    · exact .inl ⟨hq, set', hset', hs⟩
    · cases hset.symm.trans hset'
      exact .inr ⟨rfl, hs⟩
  · rintro (⟨hq, set', hset', hs⟩ | ⟨rfl, hs⟩)
    · refine ⟨Nat.lt_succ_of_lt hq, set', ?_, hs⟩
      rw [List.getElem?_append_left (by omega)]
      exact hset'
    · refine ⟨Nat.lt_succ_self q, set, ?_, hs⟩
      rw [List.getElem?_append_left hlt]
      exact hset

namespace Tracks

variable {visited : Nat}

theorem initial (rules : List Rule) : Tracks rules (initial rules) 0 where
  records :=
    { ids := by
        intro set id
        rw [Collection.initial, Ordered.lookup_cons, List.getElem?_singleton]
        by_cases hset : set = initialSet rules
        · simp [hset, eq_comm]
        · simp [hset, Ne.symm hset]
      rows := rfl
      closed := fun _ _ hpassed => absurd hpassed.1 (Nat.not_lt_zero _)
      next := by
        intro q s q'
        have hnone : (Collection.initial rules).next? q s = none := by
          rw [next?, Collection.initial, List.getElem?_singleton]
          split
          · rfl
          · rfl
        rw [hnone]
        simp [Passed] }
  queue := rfl
  visited_le := Nat.zero_le _
  remaining := rfl

/-- All sets that were met are item sets. -/
theorem isPrefix (h : Tracks rules c visited) : c.sets <+: itemSets rules := by
  rw [← h.remaining]
  exact Graph.prefix_explore _ _ _

/-- When all sets have been visited, there are no others. -/
theorem sets_eq (h : Tracks rules c visited) (hall : visited = c.sets.length) :
    c.sets = itemSets rules := by
  have hremaining := h.remaining
  rw [hall, List.drop_length, Graph.explore_nil] at hremaining
  exact hremaining

theorem length_le (h : Tracks rules c visited) : c.sets.length ≤ 2 ^ itemCount rules :=
  Nat.le_trans h.isPrefix.length_le length_itemSets_le

theorem queue_cases (h : Tracks rules c visited) :
    (visited = c.sets.length ∧ c.queue = []) ∨
      (visited < c.sets.length ∧
        c.queue = visited :: List.range' (visited + 1) (c.sets.length - (visited + 1))) := by
  rcases Nat.eq_or_lt_of_le h.visited_le with hall | hlt
  · refine .inl ⟨hall, ?_⟩
    rw [h.queue, hall, Nat.sub_self, List.range'_zero]
  · refine .inr ⟨hlt, ?_⟩
    have hsucc : c.sets.length - visited = (c.sets.length - (visited + 1)) + 1 := by omega
    rw [h.queue, hsucc, List.range'_succ]

/-- A visit goes well, and leaves the states behind it in the queue. -/
theorem turn (h : Tracks rules c visited) (hlt : visited < c.sets.length) :
    ∃ c', visit rules { c with
        queue := List.range' (visited + 1) (c.sets.length - (visited + 1)) } visited = .ok c' ∧
      Tracks rules c' (visited + 1) := by
  have hset : c.sets[visited]? = some c.sets[visited] := List.getElem?_eq_getElem hlt
  generalize c.sets[visited] = set at hset
  -- taking a number off the queue changes nothing that is recorded
  generalize hpopped : { c with
    queue := List.range' (visited + 1) (c.sets.length - (visited + 1)) } = popped
  have hsets : popped.sets = c.sets := by rw [← hpopped]
  have hrecords : Records rules popped (Passed rules c.sets visited) := by
    rw [← hpopped]
    exact ⟨h.records.ids, h.records.rows, h.records.closed, h.records.next⟩
  obtain ⟨c', hfold, hextends, hrecords'⟩ :=
    hrecords.pass_all (hsets.symm ▸ hset) (followers rules set)
  generalize hnew : Graph.unseen popped.sets ((followers rules set).map (successor rules set)) =
    new at hextends
  have hsets' : c'.sets = c.sets ++ new := by rw [hextends.sets, hsets]
  refine ⟨c', ?_, ?_⟩
  · rw [visit, hsets, hset, Option.getD_some]
    exact hfold
  constructor
  case records =>
    have hpassed : (fun q t => Passed rules c.sets visited q t ∨
        (q = visited ∧ t ∈ followers rules set)) = Passed rules c'.sets (visited + 1) := by
      funext q t
      exact propext (passed_succ_iff hset ⟨_, hsets'.symm⟩).symm
    rw [← hpassed]
    exact hrecords'
  case queue =>
    have hbehind : visited + 1 + (c.sets.length - (visited + 1)) = c.sets.length := by omega
    calc c'.queue
        = List.range' (visited + 1) (c.sets.length - (visited + 1)) ++
            List.range' (visited + 1 + (c.sets.length - (visited + 1))) new.length := by
          rw [hextends.queue, hbehind, ← hpopped]
      _ = List.range' (visited + 1) (c.sets.length - (visited + 1) + new.length) :=
          List.range'_append_1
      _ = List.range' (visited + 1) (c'.sets.length - (visited + 1)) := by
          rw [hsets', List.length_append]
          congr 1
          omega
  case visited_le =>
    rw [hsets', List.length_append]
    omega
  case remaining =>
    have hremaining := h.remaining
    have hle := h.length_le
    -- the search has one turn less left, and takes the same set from its pending ones
    have hbound : 2 ^ itemCount rules - visited = (2 ^ itemCount rules - (visited + 1)) + 1 := by
      omega
    have hnext : c.sets.drop visited = set :: c.sets.drop (visited + 1) := by
      rw [List.drop_eq_getElem_cons hlt, (List.getElem?_eq_some_iff.1 hset).2]
    rw [hbound, hnext, Graph.explore] at hremaining
    rw [hsets', List.drop_append_of_le_length hlt, ← hnew, hsets]
    exact hremaining

/-- The queue runs empty after one visit of each item set. -/
theorem run (h : Tracks rules c visited) {bound : Nat}
    (hbound : (itemSets rules).length - visited < bound) :
    ∃ c', Collection.run rules bound c = some (.ok c') ∧ c'.sets = itemSets rules ∧
      Records rules c' (Passed rules c'.sets c'.sets.length) := by
  induction bound generalizing c visited with
  | zero => exact absurd hbound (Nat.not_lt_zero _)
  | succ bound ih =>
      rcases h.queue_cases with ⟨hall, hqueue⟩ | ⟨hlt, hqueue⟩
      · refine ⟨c, ?_, h.sets_eq hall, hall ▸ h.records⟩
        rw [Collection.run, hqueue]
      · obtain ⟨c', hvisit, htracks⟩ := h.turn hlt
        have hlength := h.isPrefix.length_le
        obtain ⟨c'', hrun, hcomplete⟩ := ih htracks (by omega)
        refine ⟨c'', ?_, hcomplete⟩
        rw [Collection.run, hqueue]
        simp only [hvisit, hrun]

end Tracks

/-- A result that was found is found with more visits allowed, too. -/
theorem run_of_le {bound bound' : Nat} {result : Except Ambiguity Collection}
    (h : run rules bound c = some result) (hle : bound ≤ bound') :
    run rules bound' c = some result := by
  induction bound generalizing c bound' with
  | zero => cases h
  | succ bound ih =>
      obtain ⟨bound', rfl⟩ := Nat.exists_eq_succ_of_ne_zero (Nat.ne_zero_of_lt hle)
      unfold run at h ⊢
      split
      · next hqueue =>
          rw [hqueue] at h
          exact h
      · next state queue hqueue =>
          rw [hqueue] at h
          simp only at h ⊢
          split
          · next e hvisit =>
              rw [hvisit] at h
              exact h
          · next c' hvisit =>
              rw [hvisit] at h
              exact ih h (Nat.le_of_succ_le_succ hle)

/-- The collection that is complete has the item sets and the transitions of the automaton. -/
theorem exists_run (rules : List Rule) :
    ∃ c, (∀ bound, c.sets.length < bound → run rules bound (initial rules) = some (.ok c)) ∧
      c.sets = (Automaton.ofRules rules).sets ∧ c.next? = (Automaton.ofRules rules).next? := by
  obtain ⟨c, hrun, hsets, hrecords⟩ :=
    (Tracks.initial rules).run (Nat.lt_succ_self ((itemSets rules).length - 0))
  refine ⟨c, fun bound hbound => run_of_le hrun ?_, hsets, ?_⟩
  · rw [← hsets]
    exact hbound
  · funext q s
    refine Option.ext fun q' => ?_
    have hleads : (Automaton.ofRules rules).next? q s = some q' ↔ Leads rules q s q' := Iff.rfl
    rw [hrecords.next, hleads, leads_iff, hsets]
    constructor
    · rintro ⟨⟨-, set, hset, hs⟩, set', hset', hnext⟩
      cases hset.symm.trans hset'
      exact ⟨set, hset, hs, hnext⟩
    · rintro ⟨set, hset, hs, hnext⟩
      exact ⟨⟨(List.getElem?_eq_some_iff.1 hset).1, set, hset, hs⟩, set, hset, hnext⟩

end Collection

/-! ## Closures and canonical collections -/

variable {rules : List Rule}

/-- With a non-terminal at a dot, the items with the dot at the beginning of its rules are in the
    set. -/
def Saturated (rules : List Rule) (items : Set Item) : Prop :=
  ∀ i ∈ items, ∀ s, nextSymbol? rules i = some s → isNonterminal s = true →
    ∀ j ∈ initialItems rules s, j ∈ items

theorem isLeast_closure (rules : List Rule) (items : List Item) :
    IsLeast {set : Set Item | (∀ i ∈ items, i ∈ set) ∧ Saturated rules set}
      {i | i ∈ closure rules items} := by
  constructor
  · refine ⟨fun i hi => subset_closure hi, fun i hi s hnext hnt j hj => closure_closed hi ?_⟩
    rw [broughtIn, hnext]
    simp only [hnt, if_true]
    exact hj
  · rintro set ⟨hitems, hsaturated⟩ j hj
    obtain ⟨i, hi, hedges⟩ := mem_closure.1 hj
    clear hj
    induction hedges with
    | refl => exact hitems i hi
    | tail _ hedge ih =>
        obtain ⟨r, hr, hdot, hnt, hnext⟩ := mem_broughtIn.1 hedge
        exact hsaturated _ ih r.lhs hnext hnt _ (mem_initialItems.2 ⟨r, hr, rfl, hdot⟩)

/-- The order of the items, and how often they stand there, do not matter. -/
theorem closure_congr {items items' : List Item} (h : ∀ i, i ∈ items ↔ i ∈ items') :
    closure rules items = closure rules items' := by
  refine Ordered.eq_of_mem_iff (pairwise_closure items) (pairwise_closure items') fun j => ?_
  rw [mem_closure, mem_closure]
  exact exists_congr fun i => and_congr_left fun _ => h i

/-- A symbol at a dot other than the end of the input leads from `set` to `next`. -/
def Advances (rules : List Rule) (set next : ItemSet) : Prop :=
  ∃ s, s ≠ endToken ∧ (∃ i ∈ set, nextSymbol? rules i = some s) ∧
    next = closure rules (advance rules set s)

theorem edge_eq_advances : Graph.Edge (neighbours rules) = Advances rules := by
  funext set next
  simp only [Graph.Edge, neighbours, List.mem_map, mem_followers, Advances, and_assoc, successor,
    eq_comm]

/-- Sets of items and transitions between them that are the canonical collection of rules. -/
structure IsCanonical (rules : List Rule) (sets : List ItemSet)
    (next? : Nat → Symbol → Option Nat) : Prop where
  initial : sets[0]? = some (closure rules (initialItems rules rootSymbol))
  nodup : sets.Nodup
  mem_iff : ∀ set, set ∈ sets ↔
    ReflTransGen (Advances rules) (closure rules (initialItems rules rootSymbol)) set
  isSome_iff : ∀ q set, sets[q]? = some set → ∀ s,
    (next? q s).isSome ↔ s ≠ endToken ∧ ∃ i ∈ set, nextSymbol? rules i = some s
  leads : ∀ q set, sets[q]? = some set → ∀ s q', next? q s = some q' →
    sets[q']? = some (closure rules (advance rules set s))

theorem isCanonical_ofRules (rules : List Rule) :
    IsCanonical rules (Automaton.ofRules rules).sets (Automaton.ofRules rules).next? where
  initial := getElem?_zero_itemSets
  nodup := nodup_itemSets
  mem_iff set := by
    rw [← edge_eq_advances]
    exact mem_itemSets
  isSome_iff q set hset s := by
    rw [← mem_followers, Option.isSome_iff_exists]
    constructor
    · rintro ⟨q', hq'⟩
      obtain ⟨set', hset', hs, -⟩ := leads_iff.1 hq'
      cases hset.symm.trans hset'
      exact hs
    · intro hs
      obtain ⟨-, i, hi, hnext⟩ := mem_followers.1 hs
      exact Holds.exists_leads ⟨set, hset, hi⟩ hnext (mem_followers.1 hs).1
  leads q set hset s q' hq' := by
    obtain ⟨set', hset', -, hnext⟩ := leads_iff.1 hq'
    cases hset.symm.trans hset'
    exact hnext

/-- Closures are the least saturated sets, in ascending order whatever the order of the items.
    The queue runs empty after one visit of each state, no transition is ever ambiguous, and what
    is collected is the automaton of the rules, which is their canonical collection. -/
theorem collects_canonical (rules : List Rule) :
    (∀ items, IsLeast {set : Set Item | (∀ i ∈ items, i ∈ set) ∧ Saturated rules set}
        {i | i ∈ closure rules items} ∧
      (closure rules items).Pairwise (· < ·) ∧
      ∀ items', (∀ i, i ∈ items ↔ i ∈ items') → closure rules items = closure rules items') ∧
      (∃ c : Collection,
        (∀ bound, c.sets.length < bound →
          Collection.run rules bound (Collection.initial rules) = some (.ok c)) ∧
        c.sets = (Automaton.ofRules rules).sets ∧ c.next? = (Automaton.ofRules rules).next? ∧
        IsCanonical rules c.sets c.next?) ∧
      ∀ bound e, Collection.run rules bound (Collection.initial rules) ≠ some (.error e) := by
  obtain ⟨c, hrun, hsets, hnext⟩ := Collection.exists_run rules
  refine ⟨fun items => ⟨isLeast_closure rules items, pairwise_closure items,
    fun items' => closure_congr⟩, ⟨c, hrun, hsets, hnext, ?_⟩, fun bound e herror => ?_⟩
  · rw [hsets, hnext]
    exact isCanonical_ofRules rules
  · -- with enough visits the same error would come out as well
    have hmore := Collection.run_of_le herror (Nat.le_max_left bound (c.sets.length + 1))
    rw [hrun _ (Nat.lt_of_succ_le (Nat.le_max_right _ _))] at hmore
    cases hmore

/-- An `a` in brackets. The state behind a bracket is entered again behind the next one. -/
def brackets : List Rule :=
  [⟨"$S", ["(", "$S", ")"]⟩, ⟨"$S", ["a"]⟩, ⟨rootSymbol, ["$S", endToken]⟩]

theorem collects_canonical_brackets :
    ∃ c, Collection.run brackets 7 (Collection.initial brackets) = some (.ok c) ∧
      c.sets.length = 6 ∧ c.next? 1 "(" = some 1 ∧ IsCanonical brackets c.sets c.next? := by
  obtain ⟨-, ⟨c, hrun, hsets, hnext, hcanonical⟩, -⟩ := collects_canonical brackets
  have hlength : c.sets.length = 6 := by
    rw [hsets]
    decide +kernel
  have hagain : c.next? 1 "(" = some 1 := by
    rw [hnext]
    decide +kernel
  exact ⟨c, hrun 7 (by omega), hlength, hagain, hcanonical⟩

end ParseBench.Grammar
