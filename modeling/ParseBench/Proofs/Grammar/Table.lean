/-
  ParseBench.Proofs.Grammar.Table

  The cells of the action table against the three reasons for an action: to
  accept, to shift along a transition, to apply the rule of a complete item
  backwards on a terminal that can follow its left-hand side (`Asks`). There is no
  conflict exactly when at most one action is asked for in each cell
  (`conflict?_eq_none_iff`), and then the cell holds exactly what is asked for
  (`headD_actionsAt`).
-/

import ParseBench.Grammar.Table
import ParseBench.Proofs.Grammar.Automaton
import ParseBench.Proofs.Grammar.FirstFollow

namespace ParseBench.Grammar

/-- The state `q` asks for an action on the terminal `s`. -/
inductive Asks (rules : List Rule) (q : Nat) (s : Symbol) : Action → Prop
  | accept {i : Item} (hs : s = endToken) (hi : Holds rules q i)
      (hnext : nextSymbol? rules i = some endToken) : Asks rules q s .accept
  | shift {q' : Nat} (h : Leads rules q s q') : Asks rules q s (.shift q')
  | reduce {id : Nat} {r : Rule} (hr : rules[id]? = some r)
      (hi : Holds rules q ⟨id, r.rhs.length⟩) (hs : Follows rules r.lhs s) :
      Asks rules q s (.reduce id)

theorem Asks.exists_set {rules : List Rule} {q : Nat} {s : Symbol} {action : Action}
    (h : Asks rules q s action) : ∃ set, (itemSets rules)[q]? = some set := by
  cases h with
  | accept _ hi _ =>
      obtain ⟨set, hset, -⟩ := hi
      exact ⟨set, hset⟩
  | shift h =>
      obtain ⟨set, hset, -⟩ := leads_iff.1 h
      exact ⟨set, hset⟩
  | reduce _ hi _ =>
      obtain ⟨set, hset, -⟩ := hi
      exact ⟨set, hset⟩

theorem Asks.ne_invalid {rules : List Rule} {q : Nat} {s : Symbol} {action : Action}
    (h : Asks rules q s action) : action ≠ .invalid := by
  rintro rfl
  cases h

theorem lookup_map_pair {α β : Type} [BEq α] [LawfulBEq α] [DecidableEq α] (f : α → β)
    {keys : List α} {key : α} (h : key ∈ keys) :
    (keys.map fun k => (k, f k)).lookup key = some (f key) := by
  induction keys with
  | nil => cases h
  | cons k keys ih =>
      rw [List.map_cons, Ordered.lookup_cons]
      split
      · next hk => rw [hk]
      · next hk => exact ih ((List.mem_cons.1 h).resolve_left hk)

namespace TableInput

/-- What the tables of numbered rules are computed from. -/
def ofRules (rules : List Rule) (alphabet : Alphabet) : TableInput where
  rules := rules
  alphabet := alphabet
  automaton := Automaton.ofRules rules
  follow := alphabet.nonterminals.map fun s => (s, followSet rules s)

variable {rules : List Rule} {alphabet : Alphabet} {q : Nat} {set : ItemSet} {s : Symbol}

/-! ## The actions of a cell -/

theorem mem_readActions (hset : (itemSets rules)[q]? = some set) {action : Action} :
    action ∈ (ofRules rules alphabet).readActions q set s ↔
      (action = .accept ∧ Asks rules q s .accept) ∨
        ∃ q', action = .shift q' ∧ Asks rules q s (.shift q') := by
  -- a state that could accept on `s` cannot shift it
  have hshift : ∀ q', Asks rules q s (.shift q') ↔ Leads rules q s q' :=
    fun q' => ⟨fun h => by cases h; assumption, .shift⟩
  have haccept : Asks rules q s .accept ↔
      s = endToken ∧ set.any (fun i => nextSymbol? rules i == some endToken) = true := by
    simp only [List.any_eq_true, beq_iff_eq]
    constructor
    · rintro (⟨hs, ⟨set', hset', hi⟩, hnext⟩)
      cases hset.symm.trans hset'
      exact ⟨hs, _, hi, hnext⟩
    · rintro ⟨hs, i, hi, hnext⟩
      exact .accept hs ⟨set, hset, hi⟩ hnext
  simp only [hshift, haccept]
  unfold readActions ofRules
  by_cases hend : s = endToken ∧ set.any (fun i => nextSymbol? rules i == some endToken) = true
  · rw [if_pos (by simpa using hend), List.mem_singleton]
    constructor
    · exact fun h => .inl ⟨h, hend⟩
    · rintro (⟨h, -⟩ | ⟨q', -, h⟩)
      · exact h
      · exact absurd hend.1 h.ne_end
  · rw [if_neg (by simpa using hend)]
    cases hnext : (Automaton.ofRules rules).next? q s with
    | none =>
        simp only [List.not_mem_nil, false_iff]
        rintro (⟨-, h⟩ | ⟨q', -, h⟩)
        · exact hend h
        · exact absurd (hnext.symm.trans h) (by simp)
    | some next =>
        rw [List.mem_singleton]
        constructor
        · exact fun h => .inr ⟨next, h, hnext⟩
        · rintro (⟨-, h⟩ | ⟨q', rfl, h⟩)
          · exact absurd h hend
          · rw [Option.some.inj (hnext.symm.trans h)]

theorem followOf_eq (hlhs : ∀ r ∈ rules, r.lhs ∈ alphabet.nonterminals) {id : Nat} {r : Rule}
    (hr : rules[id]? = some r) : (ofRules rules alphabet).followOf id = followSet rules r.lhs := by
  have hmem := hlhs r (List.mem_of_getElem? hr)
  simp only [followOf, ofRules, hr, lookup_map_pair _ hmem, Option.getD_some]

theorem mem_reduceActions (hlhs : ∀ r ∈ rules, r.lhs ∈ alphabet.nonterminals)
    (hset : (itemSets rules)[q]? = some set) {action : Action} :
    action ∈ (ofRules rules alphabet).reduceActions
        ((ofRules rules alphabet).completeItems set) s ↔
      ∃ id, action = .reduce id ∧ Asks rules q s (.reduce id) := by
  simp only [reduceActions, completeItems, List.mem_map, List.mem_filter, isComplete_eq_true,
    decide_eq_true_eq]
  constructor
  · rintro ⟨⟨id, dot⟩, ⟨⟨hi, r, hr, hdot⟩, hs⟩, rfl⟩
    cases hdot
    rw [followOf_eq hlhs hr, mem_followSet] at hs
    exact ⟨id, rfl, .reduce hr ⟨set, hset, hi⟩ hs⟩
  · rintro ⟨id, rfl, h⟩
    cases h with
    | @reduce _ r hr hi hs =>
        obtain ⟨set', hset', hi⟩ := hi
        cases hset.symm.trans hset'
        rw [← mem_followSet, ← followOf_eq hlhs hr] at hs
        exact ⟨⟨id, r.rhs.length⟩, ⟨⟨hi, r, hr, rfl⟩, hs⟩, rfl⟩

theorem mem_actionsAt (hlhs : ∀ r ∈ rules, r.lhs ∈ alphabet.nonterminals)
    (hset : (itemSets rules)[q]? = some set) {action : Action} :
    action ∈ (ofRules rules alphabet).actionsAt q set s ↔ Asks rules q s action := by
  rw [actionsAt, List.mem_append, mem_readActions hset, mem_reduceActions hlhs hset]
  constructor
  · rintro ((⟨rfl, h⟩ | ⟨q', rfl, h⟩) | ⟨id, rfl, h⟩)
    · exact h
    · exact h
    · exact h
  · intro h
    cases action with
    | invalid => exact absurd rfl h.ne_invalid
    | accept => exact .inl (.inl ⟨rfl, h⟩)
    | shift q' => exact .inl (.inr ⟨q', rfl, h⟩)
    | reduce id => exact .inr ⟨id, rfl, h⟩

/-! ## Cells without conflicts -/

theorem length_readActions_le (t : TableInput) : (t.readActions q set s).length ≤ 1 := by
  unfold readActions
  split
  · exact Nat.le_refl _
  · split
    · exact Nat.le_refl _
    · exact Nat.zero_le _

theorem reduceActions_append (t : TableInput) (items more : List Item) :
    t.reduceActions (items ++ more) s = t.reduceActions items s ++ t.reduceActions more s := by
  simp [reduceActions]

theorem itemConflict?_eq_none {t : TableInput} {earlier : List Item} {item : Item}
    (h : t.itemConflict? q set earlier item = none) (hs : s ∈ t.alphabet.terminals)
    (hfollow : s ∈ t.followOf item.rule) :
    t.readActions q set s ++ t.reduceActions earlier s = [] := by
  rw [itemConflict?, List.findSome?_eq_none_iff] at h
  have hcell := h s (List.mem_filter.2 ⟨hs, by simpa using hfollow⟩)
  rwa [Option.map_eq_none_iff, List.head?_eq_none_iff] at hcell

/-- Among items without a conflict at most one asks for a reduction, and only when
    nothing was asked for before. -/
theorem itemsConflict?_eq_none {t : TableInput} {earlier items : List Item}
    (h : t.itemsConflict? q set earlier items = none) (hs : s ∈ t.alphabet.terminals) :
    (t.reduceActions items s).length ≤ 1 ∧
      (t.reduceActions items s ≠ [] →
        t.readActions q set s ++ t.reduceActions earlier s = []) := by
  induction items generalizing earlier with
  | nil => simp [reduceActions]
  | cons item items ih =>
      rw [itemsConflict?, Option.or_eq_none_iff] at h
      obtain ⟨hitem, hitems⟩ := h
      obtain ⟨hlen, hempty⟩ := ih hitems
      by_cases hfollow : s ∈ t.followOf item.rule
      · have hbefore := itemConflict?_eq_none hitem hs hfollow
        have hrest : t.reduceActions items s = [] := by
          by_contra hne
          have hcell := (List.append_eq_nil_iff.1 (hempty hne)).2
          simp [reduceActions, hfollow] at hcell
        have hcons : t.reduceActions (item :: items) s =
            .reduce item.rule :: t.reduceActions items s := by
          simp [reduceActions, hfollow]
        rw [hcons, hrest]
        exact ⟨Nat.le_refl _, fun _ => hbefore⟩
      · have hcons : t.reduceActions (item :: items) s = t.reduceActions items s := by
          simp [reduceActions, hfollow]
        rw [hcons]
        refine ⟨hlen, fun hne => ?_⟩
        have hcell := hempty hne
        rw [List.append_eq_nil_iff] at hcell ⊢
        rw [reduceActions_append, List.append_eq_nil_iff] at hcell
        exact ⟨hcell.1, hcell.2.1⟩

theorem length_actionsAt_le {t : TableInput} (h : t.conflict? = none)
    (hset : t.automaton.sets[q]? = some set) (hs : s ∈ t.alphabet.terminals) :
    (t.actionsAt q set s).length ≤ 1 := by
  rw [conflict?, List.findSome?_eq_none_iff] at h
  have hstate := h (set, q) (List.mem_zipIdx_iff_getElem?.2 hset)
  obtain ⟨hlen, hempty⟩ := itemsConflict?_eq_none hstate hs
  rw [actionsAt, List.length_append]
  by_cases hreduce : t.reduceActions (t.completeItems set) s = []
  · rw [hreduce]
    have hread : (t.readActions q set s).length ≤ 1 := t.length_readActions_le
    simpa using hread
  · have hread := (List.append_eq_nil_iff.1 (hempty hreduce)).1
    rw [hread]
    simpa using hlen

theorem eq_of_mem_of_length_le_one {α : Type} {l : List α} {a b : α} (h : l.length ≤ 1)
    (ha : a ∈ l) (hb : b ∈ l) : a = b := by
  match l, h with
  | [c], _ => rw [List.mem_singleton.1 ha, List.mem_singleton.1 hb]

theorem asks_unique (hlhs : ∀ r ∈ rules, r.lhs ∈ alphabet.nonterminals)
    (h : (ofRules rules alphabet).conflict? = none) (hs : s ∈ alphabet.terminals) {a b : Action}
    (ha : Asks rules q s a) (hb : Asks rules q s b) : a = b := by
  obtain ⟨set, hset⟩ := ha.exists_set
  exact eq_of_mem_of_length_le_one (length_actionsAt_le h hset hs)
    ((mem_actionsAt hlhs hset).2 ha) ((mem_actionsAt hlhs hset).2 hb)

theorem reduce_not_mem_readActions (t : TableInput) {id : Nat} :
    .reduce id ∉ t.readActions q set s := by
  unfold readActions
  split
  · simp
  · split
    · simp
    · simp

/-- Where no two actions are asked for on a terminal, items of different rules are without a
    conflict. -/
theorem itemsConflict?_eq_none_of_unique {t : TableInput} {earlier items : List Item}
    (hrules : ((earlier ++ items).map Item.rule).Nodup)
    (hunique : ∀ s ∈ t.alphabet.terminals,
      ∀ a ∈ t.readActions q set s ++ t.reduceActions (earlier ++ items) s,
        ∀ b ∈ t.readActions q set s ++ t.reduceActions (earlier ++ items) s, a = b) :
    t.itemsConflict? q set earlier items = none := by
  induction items generalizing earlier with
  | nil => rfl
  | cons item items ih =>
      rw [itemsConflict?, Option.or_eq_none_iff]
      refine ⟨?_, ih (by simpa using hrules) (by simpa using hunique)⟩
      rw [itemConflict?, List.findSome?_eq_none_iff]
      intro s hs
      obtain ⟨hs, hfollow⟩ := List.mem_filter.1 hs
      rw [Option.map_eq_none_iff, List.head?_eq_none_iff]
      refine List.eq_nil_iff_forall_not_mem.2 fun a ha => ?_
      have hreduce : .reduce item.rule ∈ t.reduceActions (earlier ++ item :: items) s := by
        refine List.mem_map.2 ⟨item, List.mem_filter.2 ⟨?_, hfollow⟩, rfl⟩
        exact List.mem_append_right _ (List.mem_cons_self ..)
      have hearlier :
          a ∈ t.readActions q set s ++ t.reduceActions (earlier ++ item :: items) s := by
        rw [reduceActions_append, ← List.append_assoc]
        exact List.mem_append_left _ ha
      rw [hunique s hs a hearlier _ (List.mem_append_right _ hreduce)] at ha
      rcases List.mem_append.1 ha with ha | ha
      · exact t.reduce_not_mem_readActions ha
      · -- an earlier item would belong to the same rule
        obtain ⟨other, hother, hrule⟩ := List.mem_map.1 ha
        rw [List.map_append, List.nodup_append] at hrules
        refine hrules.2.2 other.rule (List.mem_map.2 ⟨other, (List.mem_filter.1 hother).1, rfl⟩)
          item.rule (List.mem_map.2 ⟨item, List.mem_cons_self .., rfl⟩) ?_
        exact Action.reduce.inj hrule

theorem nodup_rules_completeItems (hset : set ∈ itemSets rules) :
    (((ofRules rules alphabet).completeItems set).map Item.rule).Nodup := by
  refine ((pairwise_of_mem_itemSets hset).nodup.filter _).map_on ?_
  rintro ⟨id, dot⟩ hi ⟨id', dot'⟩ hi' hrule
  simp only at hrule
  subst hrule
  obtain ⟨r, hr, hdot⟩ := isComplete_eq_true.1 (List.mem_filter.1 hi).2
  obtain ⟨r', hr', hdot'⟩ := isComplete_eq_true.1 (List.mem_filter.1 hi').2
  have heq : r = r' := Option.some.inj (hr.symm.trans hr')
  simp only at hdot hdot'
  rw [hdot, hdot', heq]

/-- There is no conflict exactly when no state asks for two actions on a terminal. -/
theorem conflict?_eq_none_iff (hlhs : ∀ r ∈ rules, r.lhs ∈ alphabet.nonterminals) :
    (ofRules rules alphabet).conflict? = none ↔
      ∀ q, ∀ s ∈ alphabet.terminals, ∀ a b, Asks rules q s a → Asks rules q s b → a = b := by
  constructor
  · exact fun h q s hs a b ha hb => asks_unique hlhs h hs ha hb
  · intro hunique
    rw [conflict?, List.findSome?_eq_none_iff]
    rintro ⟨set, q⟩ hstate
    have hset : (itemSets rules)[q]? = some set := List.mem_zipIdx_iff_getElem?.1 hstate
    refine itemsConflict?_eq_none_of_unique ?_ fun s hs a ha b hb => ?_
    · exact nodup_rules_completeItems (List.mem_of_getElem? hset)
    · exact hunique q s hs a b ((mem_actionsAt hlhs hset).1 ha) ((mem_actionsAt hlhs hset).1 hb)

/-- A cell holds the action that is asked for. -/
theorem headD_actionsAt (hlhs : ∀ r ∈ rules, r.lhs ∈ alphabet.nonterminals)
    (h : (ofRules rules alphabet).conflict? = none) (hs : s ∈ alphabet.terminals)
    (hset : (itemSets rules)[q]? = some set) {action : Action} (hne : action ≠ .invalid) :
    ((ofRules rules alphabet).actionsAt q set s).headD .invalid = action ↔
      Asks rules q s action := by
  have hmem : ∀ a, a ∈ (ofRules rules alphabet).actionsAt q set s ↔ Asks rules q s a :=
    fun _ => mem_actionsAt hlhs hset
  cases hcell : (ofRules rules alphabet).actionsAt q set s with
  | nil =>
      rw [hcell] at hmem
      constructor
      · exact fun heq => absurd heq.symm hne
      · exact fun hask => absurd ((hmem action).2 hask) (by simp)
  | cons first rest =>
      rw [hcell] at hmem
      have hfirst : Asks rules q s first := (hmem first).1 (List.mem_cons_self ..)
      constructor
      · rintro rfl
        exact hfirst
      · exact fun hask => asks_unique hlhs h hs hfirst hask

/-! ## Rows -/

theorem getElem?_actionTable : (ofRules rules alphabet).actionTable[q]? =
    (itemSets rules)[q]?.map fun set => alphabet.terminals.map fun s =>
      ((ofRules rules alphabet).actionsAt q set s).headD .invalid := by
  have hsets : (ofRules rules alphabet).automaton.sets = itemSets rules := rfl
  simp only [actionTable, List.getElem?_map, List.getElem?_zipIdx, hsets, Option.map_map,
    Nat.zero_add]
  rfl

theorem getElem?_gotoTable : (ofRules rules alphabet).gotoTable[q]? =
    (itemSets rules)[q]?.map fun _ => alphabet.nonterminals.map fun s =>
      (Automaton.ofRules rules).next? q s := by
  have hsets : (ofRules rules alphabet).automaton.sets = itemSets rules := rfl
  simp only [gotoTable, List.getElem?_map, List.getElem?_zipIdx, hsets, Option.map_map,
    Nat.zero_add]
  rfl

end TableInput

end ParseBench.Grammar
