/-
  ParseBench.Proofs.Grammar.FirstFollow

  The FIRST and FOLLOW sets against the two relations that they compute:
  `Begins s t`, by which the symbol `s` can begin with the terminal `t`, and
  `Follows s t`, by which `t` can come directly after the non-terminal `s`. No
  rule is empty, so a symbol begins with what the first symbol of one of its
  alternatives begins with. Neither relation asks whether a non-terminal derives
  any string of terminals at all.
-/

import ParseBench.Grammar.FirstFollow
import ParseBench.Proofs.Graph.Reach

namespace ParseBench.Grammar

open Relation (ReflTransGen)

variable {rules : List Rule}

/-- What the symbol can become in a derivation can begin with the terminal. -/
inductive Begins (rules : List Rule) : Symbol → Symbol → Prop
  | terminal {t : Symbol} (ht : isNonterminal t = false) : Begins rules t t
  | rule {r : Rule} {s t : Symbol} (hr : r ∈ rules) (hlhs : isNonterminal r.lhs = true)
      (hhead : r.rhs.head? = some s) (hs : Begins rules s t) : Begins rules r.lhs t

/-- The terminal can come directly after the non-terminal: it begins the next symbol of
    a right-hand side, or the non-terminal ends one and the terminal can come after the
    left-hand side. -/
inductive Follows (rules : List Rule) : Symbol → Symbol → Prop
  | inner {r : Rule} {before after : List Symbol} {s next t : Symbol} (hr : r ∈ rules)
      (hs : isNonterminal s = true) (hrhs : r.rhs = before ++ s :: next :: after)
      (ht : Begins rules next t) : Follows rules s t
  | last {r : Rule} {s t : Symbol} (hr : r ∈ rules) (hs : isNonterminal s = true)
      (hrhs : r.rhs.getLast? = some s) (ht : Follows rules r.lhs t) : Follows rules s t

theorem length_le_symbolBound : rules.length + 1 ≤ symbolBound rules := by
  have h : ∀ l : List Rule, l.length ≤ (l.map fun r => r.rhs.length + 1).foldr (· + ·) 0 := by
    intro l
    induction l with
    | nil => exact Nat.le_refl 0
    | cons r l ih =>
        simp only [List.length_cons, List.map_cons, List.foldr_cons]
        omega
  exact Nat.succ_le_succ (h rules)

/-! ## FIRST -/

theorem mem_heads {s t : Symbol} :
    t ∈ heads rules s ↔ ∃ r ∈ rules, r.lhs = s ∧ r.rhs.head? = some t := by
  simp only [heads, List.mem_filterMap, List.mem_filter, beq_iff_eq]
  exact ⟨fun ⟨r, ⟨hr, hlhs⟩, ht⟩ => ⟨r, hr, hlhs, ht⟩, fun ⟨r, hr, hlhs, ht⟩ => ⟨r, ⟨hr, hlhs⟩, ht⟩⟩

/-- The first symbols of the alternatives of a non-terminal; a terminal has none. -/
def headsOf (rules : List Rule) (s : Symbol) : List Symbol :=
  if isNonterminal s then heads rules s else []

theorem mem_leading {s t : Symbol} :
    t ∈ leading rules s ↔
      ∃ u ∈ heads rules s, ReflTransGen (Graph.Edge (headsOf rules)) u t := by
  have hheads : ∀ u v, v ∈ heads rules u → v ∈ rules.filterMap fun r => r.rhs.head? := by
    intro u v hv
    obtain ⟨r, hr, -, hhead⟩ := mem_heads.1 hv
    exact List.mem_filterMap.2 ⟨r, hr, hhead⟩
  have hc : Graph.Closed (headsOf rules) (heads rules s)
      (rules.filterMap fun r => r.rhs.head?) := by
    refine ⟨fun u hu => hheads s u hu, fun u _ v hv => ?_⟩
    unfold headsOf at hv
    split at hv
    · exact hheads u v hv
    · cases hv
  refine Graph.mem_reach_iff hc ?_
  have hlen := List.length_filterMap_le (fun r : Rule => r.rhs.head?) rules
  have hbound : rules.length + 1 ≤ symbolBound rules := length_le_symbolBound
  omega

theorem begins_of_reaches {u t : Symbol} (ht : isNonterminal t = false)
    (h : ReflTransGen (Graph.Edge (headsOf rules)) u t) : Begins rules u t := by
  induction h using ReflTransGen.head_induction_on with
  | refl => exact .terminal ht
  | head huv _ ih =>
      unfold Graph.Edge headsOf at huv
      split at huv
      · next hnt =>
          obtain ⟨r, hr, rfl, hhead⟩ := mem_heads.1 huv
          exact .rule hr hnt hhead ih
      · cases huv

theorem reaches_of_begins {u t : Symbol} (h : Begins rules u t) :
    isNonterminal t = false ∧ ReflTransGen (Graph.Edge (headsOf rules)) u t := by
  induction h with
  | terminal ht => exact ⟨ht, .refl⟩
  | @rule r s t hr hlhs hhead _ ih =>
      have hedge : Graph.Edge (headsOf rules) r.lhs s := by
        unfold Graph.Edge headsOf
        rw [if_pos hlhs]
        exact mem_heads.2 ⟨r, hr, rfl, hhead⟩
      exact ⟨ih.1, ReflTransGen.head hedge ih.2⟩

theorem mem_firstSet {s t : Symbol} (hs : isNonterminal s = true) :
    t ∈ firstSet rules s ↔ Begins rules s t := by
  rw [firstSet, Ordered.mem_ofList, List.mem_filter, mem_leading]
  constructor
  · rintro ⟨⟨u, hu, hut⟩, ht⟩
    obtain ⟨r, hr, rfl, hhead⟩ := mem_heads.1 hu
    exact .rule hr hs hhead (begins_of_reaches (by simpa using ht) hut)
  · intro h
    cases h with
    | terminal ht => rw [hs] at ht; cases ht
    | @rule r u _ hr hlhs hhead hu =>
        obtain ⟨ht, hut⟩ := reaches_of_begins hu
        exact ⟨⟨u, mem_heads.2 ⟨r, hr, rfl, hhead⟩, hut⟩, by simpa using ht⟩

theorem Begins.eq_of_terminal {s t : Symbol} (h : Begins rules s t)
    (hs : isNonterminal s = false) : t = s := by
  cases h with
  | terminal => rfl
  | rule hr hlhs => rw [hs] at hlhs; cases hlhs

theorem Begins.isTerminal {s t : Symbol} (h : Begins rules s t) : isNonterminal t = false :=
  (reaches_of_begins h).1

theorem mem_firstOf {s t : Symbol} : t ∈ firstOf rules s ↔ Begins rules s t := by
  unfold firstOf
  split
  · next hs => exact mem_firstSet hs
  · next hs =>
      rw [Bool.not_eq_true] at hs
      rw [List.mem_singleton]
      constructor
      · rintro rfl
        exact .terminal hs
      · exact fun h => h.eq_of_terminal hs

/-! ## FOLLOW -/

theorem mem_successors {s t : Symbol} {l : List Symbol} :
    t ∈ successors s l ↔ ∃ before after, l = before ++ s :: t :: after := by
  induction l with
  | nil => simp [successors]
  | cons a l ih =>
      cases l with
      | nil =>
          simp only [successors, List.not_mem_nil, false_iff]
          rintro ⟨before, after, h⟩
          have hlen := congrArg List.length h
          simp at hlen
          omega
      | cons b l =>
          have hstep : t ∈ successors s (a :: b :: l) ↔
              (a = s ∧ t = b) ∨ t ∈ successors s (b :: l) := by
            rw [successors]
            split
            · next ha => simp [ha]
            · next ha => simp [ha]
          rw [hstep, ih]
          constructor
          · rintro (⟨rfl, rfl⟩ | ⟨before, after, h⟩)
            · exact ⟨[], l, rfl⟩
            · exact ⟨a :: before, after, by rw [h]; rfl⟩
          · rintro ⟨before, after, h⟩
            cases before with
            | nil =>
                simp only [List.nil_append, List.cons.injEq] at h
                exact .inl ⟨h.1, h.2.1.symm⟩
            | cons c before =>
                simp only [List.cons_append, List.cons.injEq] at h
                exact .inr ⟨before, after, h.2⟩

theorem mem_innerFollow {s t : Symbol} :
    t ∈ innerFollow rules s ↔ isNonterminal s = true ∧ ∃ r ∈ rules, ∃ before next after,
      r.rhs = before ++ s :: next :: after ∧ Begins rules next t := by
  unfold innerFollow
  split
  · next hs =>
      simp only [List.mem_flatMap, mem_successors, mem_firstOf, hs, true_and]
      constructor
      · rintro ⟨next, ⟨r, hr, before, after, h⟩, hb⟩
        exact ⟨r, hr, before, next, after, h, hb⟩
      · rintro ⟨r, hr, before, next, after, h, hb⟩
        exact ⟨next, ⟨r, hr, before, after, h⟩, hb⟩
  · next hs => simp [hs]

theorem mem_parents {s parent : Symbol} :
    parent ∈ parents rules s ↔ isNonterminal s = true ∧
      ∃ r ∈ rules, r.rhs.getLast? = some s ∧ r.lhs = parent := by
  unfold parents
  split
  · next hs => simp [hs, and_assoc]
  · next hs => simp [hs]

theorem mem_followSet_iff_reach {s t : Symbol} :
    t ∈ followSet rules s ↔
      ∃ u, ReflTransGen (Graph.Edge (parents rules)) s u ∧ t ∈ innerFollow rules u := by
  have hc : Graph.Closed (parents rules) [s] (s :: rules.map Rule.lhs) := by
    refine ⟨fun u hu => ?_, fun u _ v hv => ?_⟩
    · rw [List.mem_singleton.1 hu]
      exact List.mem_cons_self ..
    · obtain ⟨-, r, hr, -, rfl⟩ := mem_parents.1 hv
      exact List.mem_cons_of_mem _ (List.mem_map.2 ⟨r, hr, rfl⟩)
  have hbound : (s :: rules.map Rule.lhs).length ≤ symbolBound rules := by
    simpa using length_le_symbolBound
  rw [followSet, Ordered.mem_ofList, List.mem_flatMap]
  simp only [Graph.mem_reach_iff hc hbound, List.mem_singleton, exists_eq_left]

theorem mem_followSet {s t : Symbol} : t ∈ followSet rules s ↔ Follows rules s t := by
  rw [mem_followSet_iff_reach]
  constructor
  · rintro ⟨u, hsu, hu⟩
    induction hsu using ReflTransGen.head_induction_on with
    | refl =>
        obtain ⟨hnt, r, hr, before, next, after, hrhs, hb⟩ := mem_innerFollow.1 hu
        exact .inner hr hnt hrhs hb
    | head hedge _ ih =>
        obtain ⟨hnt, r, hr, hlast, rfl⟩ := mem_parents.1 hedge
        exact .last hr hnt hlast ih
  · intro h
    induction h with
    | inner hr hs hrhs hb =>
        exact ⟨_, .refl, mem_innerFollow.2 ⟨hs, _, hr, _, _, _, hrhs, hb⟩⟩
    | last hr hs hlast _ ih =>
        obtain ⟨u, hu, hmem⟩ := ih
        exact ⟨u, ReflTransGen.head (mem_parents.2 ⟨hs, _, hr, hlast, rfl⟩) hu, hmem⟩

theorem Follows.isTerminal {s t : Symbol} (h : Follows rules s t) : isNonterminal t = false := by
  induction h with
  | inner _ _ _ hb => exact hb.isTerminal
  | last _ _ _ _ ih => exact ih

theorem Begins.exists_mem_rhs {s t : Symbol} (h : Begins rules s t)
    (hs : ∃ r ∈ rules, s ∈ r.rhs) : ∃ r ∈ rules, t ∈ r.rhs := by
  induction h with
  | terminal => exact hs
  | @rule r _ _ hr _ hhead _ ih => exact ih ⟨r, hr, List.mem_of_mem_head? hhead⟩

theorem Follows.exists_mem_rhs {s t : Symbol} (h : Follows rules s t) : ∃ r ∈ rules, t ∈ r.rhs := by
  induction h with
  | @inner r _ _ _ _ _ hr _ hrhs hb => exact hb.exists_mem_rhs ⟨r, hr, by simp [hrhs]⟩
  | last _ _ _ _ ih => exact ih

end ParseBench.Grammar
