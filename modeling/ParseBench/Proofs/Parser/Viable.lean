/-
  ParseBench.Proofs.Parser.Viable

  What the parser has read is always the beginning of something derivable. Every
  item of the topmost state continues the symbols on the stack to a sentential
  form (`Path.continues`): this is so for the root rule in the first state, and it
  is kept up both by moving a dot over the symbol that is pushed and by bringing in
  the rules of the symbol at a dot. The trees built so far derive what was read from
  the symbols on the stack, so what was read is viable (`Built.viable`).
-/

import ParseBench.Proofs.Grammar.Derivation
import ParseBench.Proofs.Parser.Soundness

namespace ParseBench.Grammar.Parser

open ParseTree
open Relation (ReflTransGen)

variable {p : Parser}

/-! ## Sequences of terminals -/

/-- The symbols are the terminals with these ids. -/
def Spells (p : Parser) (ids : List Nat) (symbols : List Symbol) : Prop :=
  ids.map (fun id => p.terminals[id]?) = symbols.map some

/-- The start symbol derives the terminals with these ids. -/
def Derivable (p : Parser) (ids : List Nat) : Prop :=
  ∃ symbols, p.Spells ids symbols ∧ Derives p.rules.toList [p.start] symbols

/-- The start symbol followed by the end of the input derives a sentential form that begins
    with the terminals with these ids. -/
def Viable (p : Parser) (ids : List Nat) : Prop :=
  ∃ symbols more, p.Spells ids symbols ∧
    Derives p.rules.toList [p.start, endToken] (symbols ++ more)

theorem Spells.append {ids ids' : List Nat} {symbols symbols' : List Symbol}
    (h : p.Spells ids symbols) (h' : p.Spells ids' symbols') :
    p.Spells (ids ++ ids') (symbols ++ symbols') := by
  unfold Spells at h h' ⊢
  rw [List.map_append, List.map_append, h, h']

theorem spells_append {ids ids' : List Nat} {symbols : List Symbol}
    (h : p.Spells (ids ++ ids') symbols) :
    ∃ front back, symbols = front ++ back ∧ p.Spells ids front ∧ p.Spells ids' back := by
  unfold Spells at h
  rw [List.map_append] at h
  obtain ⟨front, back, rfl, hfront, hback⟩ := List.map_eq_append_iff.1 h.symm
  exact ⟨front, back, rfl, hfront.symm, hback.symm⟩

theorem Viable.of_prefix {ids ids' : List Nat} (h : p.Viable ids) (hpre : ids' <+: ids) :
    p.Viable ids' := by
  obtain ⟨rest, rfl⟩ := hpre
  obtain ⟨symbols, more, hspells, hderives⟩ := h
  obtain ⟨front, back, rfl, hfront, -⟩ := spells_append hspells
  rw [List.append_assoc] at hderives
  exact ⟨front, back ++ more, hfront, hderives⟩

/-! ## Derivations of trees -/

mutual

/-- The symbol of a tree derives its leaves. -/
theorem IsTree.exists_derives {s : Symbol} {t : ParseTree} (h : p.IsTree s t) :
    ∃ symbols, p.Spells (t.leaves.map Token.terminal) symbols ∧
      Derives p.rules.toList [s] symbols := by
  cases h with
  | leaf hs => exact ⟨[s], by simp [Spells, leaves, hs], .refl _⟩
  | node hr h =>
      obtain ⟨symbols, hspells, hderives⟩ := h.exists_derives
      have hrule := Derives.rule (mem_rules hr) [] []
      rw [List.nil_append, List.append_nil] at hrule
      exact ⟨symbols, hspells, hrule.trans hderives⟩

/-- The symbols of a forest derive its leaves. -/
theorem IsForest.exists_derives {symbols : List Symbol} {trees : List ParseTree}
    (h : p.IsForest symbols trees) :
    ∃ symbols', p.Spells ((forestLeaves trees).map Token.terminal) symbols' ∧
      Derives p.rules.toList symbols symbols' := by
  cases h with
  | nil => exact ⟨[], rfl, .refl _⟩
  | cons ht h =>
      obtain ⟨first, hfirst, hderives⟩ := ht.exists_derives
      obtain ⟨others, hothers, hderives'⟩ := h.exists_derives
      refine ⟨first ++ others, ?_, hderives.append hderives'⟩
      rw [forestLeaves, List.map_append]
      exact hfirst.append hothers

end

theorem isForest_leaf {tokens : List Token} {symbols : List Symbol}
    (h : p.Spells (tokens.map Token.terminal) symbols) :
    p.IsForest symbols (tokens.map .leaf) ∧ forestLeaves (tokens.map .leaf) = tokens := by
  induction tokens generalizing symbols with
  | nil =>
      cases symbols with
      | nil => exact ⟨.nil, rfl⟩
      | cons _ _ => cases h
  | cons token tokens ih =>
      cases symbols with
      | nil => cases h
      | cons s symbols =>
          unfold Spells at h
          rw [List.map_cons, List.map_cons, List.map_cons, List.cons.injEq] at h
          obtain ⟨hforest, hleaves⟩ := ih h.2
          refine ⟨.cons (.leaf h.1) hforest, ?_⟩
          rw [List.map_cons, forestLeaves, hleaves]
          rfl

/-- Undoing a step of a derivation puts a rule over trees for its right-hand side. -/
theorem IsForest.of_rewrites {symbols symbols' : List Symbol} {trees : List ParseTree}
    (hstep : Rewrites p.rules.toList symbols symbols') (h : p.IsForest symbols' trees) :
    ∃ trees', p.IsForest symbols trees' ∧ forestLeaves trees' = forestLeaves trees := by
  cases hstep with
  | @intro r hr before after =>
      obtain ⟨rule, hrule⟩ := exists_id hr
      obtain ⟨first, others, rfl, hfirst, hothers⟩ := isForest_append h
      obtain ⟨children, last, rfl, hchildren, hlast⟩ := isForest_append hothers
      refine ⟨first ++ .node rule children :: last,
        hfirst.append (.cons (.node hrule hchildren) hlast), ?_⟩
      rw [forestLeaves_append, forestLeaves, ParseTree.leaves, forestLeaves_append,
        forestLeaves_append]

theorem IsForest.of_derives {symbols symbols' : List Symbol} {trees : List ParseTree}
    (hsteps : Derives p.rules.toList symbols symbols') (h : p.IsForest symbols' trees) :
    ∃ trees', p.IsForest symbols trees' ∧ forestLeaves trees' = forestLeaves trees := by
  induction hsteps using ReflTransGen.head_induction_on with
  | refl => exact ⟨trees, h, rfl⟩
  | head hstep _ ih =>
      obtain ⟨trees', hforest, hleaves⟩ := ih
      obtain ⟨trees'', hforest', hleaves'⟩ := IsForest.of_rewrites hstep hforest
      exact ⟨trees'', hforest', hleaves'.trans hleaves⟩

/-- What is derivable are the leaves of the parse trees. -/
theorem derivable_iff {tokens : List Token} :
    p.Derivable (tokens.map Token.terminal) ↔ ∃ t, p.IsTree p.start t ∧ t.leaves = tokens := by
  constructor
  · rintro ⟨symbols, hspells, hderives⟩
    obtain ⟨hforest, hleaves⟩ := isForest_leaf hspells
    obtain ⟨trees, hstart, hleaves'⟩ := IsForest.of_derives hderives hforest
    obtain ⟨t, rfl, ht⟩ := isForest_singleton hstart
    rw [forestLeaves_singleton, hleaves] at hleaves'
    exact ⟨t, ht, hleaves'⟩
  · rintro ⟨t, ht, rfl⟩
    exact ht.exists_derives

/-! ## Items continue the stack -/

/-- The symbols on the stack and the rest of the item's rule begin a sentential form. -/
def Continues (p : Parser) (symbols : List Symbol) (i : Item) : Prop :=
  ∃ r more, p.augmented[i.rule]? = some r ∧
    Derives p.rules.toList [p.start, endToken] (symbols.reverse ++ (r.rhs.drop i.dot ++ more))

theorem Continues.moved {symbols : List Symbol} {i : Item} {s : Symbol}
    (h : p.Continues symbols i) (hnext : nextSymbol? p.augmented i = some s) :
    p.Continues (s :: symbols) ⟨i.rule, i.dot + 1⟩ := by
  obtain ⟨r, more, hr, hderives⟩ := h
  obtain ⟨r', hr', hdot⟩ := nextSymbol?_eq_some.1 hnext
  cases hr.symm.trans hr'
  obtain ⟨hlt, rfl⟩ := List.getElem?_eq_some_iff.1 hdot
  refine ⟨r, more, hr, ?_⟩
  rw [List.drop_eq_getElem_cons hlt, List.cons_append] at hderives
  rw [List.reverse_cons, List.append_assoc, List.singleton_append]
  exact hderives

theorem Continues.brought (hp : p.Lawful) {symbols : List Symbol} {i j : Item}
    (h : p.Continues symbols i) (hj : j ∈ broughtIn p.augmented i) : p.Continues symbols j := by
  obtain ⟨r, more, hr, hderives⟩ := h
  obtain ⟨r', hr', hzero, -, hnext⟩ := mem_broughtIn.1 hj
  obtain ⟨r'', hr'', hdot⟩ := nextSymbol?_eq_some.1 hnext
  cases hr.symm.trans hr''
  obtain ⟨hlt, hget⟩ := List.getElem?_eq_some_iff.1 hdot
  have hrule : r' ∈ p.rules.toList := by
    rcases mem_augment.1 (List.mem_of_getElem? hr') with hmem | rfl
    · exact hmem
    · exact absurd hnext (hp.root_not_next i)
  refine ⟨r', r.rhs.drop (i.dot + 1) ++ more, hr', ?_⟩
  rw [List.drop_eq_getElem_cons hlt, hget, List.cons_append] at hderives
  rw [hzero, List.drop_zero]
  exact hderives.trans (.rule hrule _ _)

/-- Every item of the topmost state continues the symbols on the stack. -/
theorem Path.continues (hp : p.Lawful) {q : Nat} {below : List Nat} {symbols : List Symbol}
    (h : Path p.augmented (q :: below) symbols) {i : Item} (hi : Holds p.augmented q i) :
    p.Continues symbols i := by
  generalize hstack : q :: below = stack at h
  induction h generalizing q below i with
  | nil =>
      cases hstack
      refine holds_zero_induction ?_ (fun _ _ h hj => h.brought hp hj) hi
      intro id r hr hlhs
      rcases mem_augment.1 (List.mem_of_getElem? hr) with hmem | rfl
      · exact absurd hlhs (hp.augmentable.lhs_ne_root r hmem)
      · exact ⟨_, [], hr, .refl _⟩
  | cons _ hs ih =>
      cases hstack
      refine hs.holds_induction ?_ (fun _ _ h hj => h.brought hp hj) hi
      exact fun i hi hnext => (ih hi rfl).moved hnext

/-- Every state on the stack holds an item. -/
theorem Path.exists_holds {q : Nat} {below : List Nat} {symbols : List Symbol}
    (h : Path p.augmented (q :: below) symbols) : ∃ i, Holds p.augmented q i := by
  cases h with
  | nil => exact ⟨_, holds_zero_of_root augmented_root rfl⟩
  | cons _ hs =>
      obtain ⟨i, hi, hnext⟩ := hs.exists_item
      exact ⟨_, hs.holds_succ hi hnext⟩

/-! ## What was read -/

/-- What the parser has read is viable. -/
theorem Built.viable (hp : p.Lawful) {tokens : List Token} {symbols : List Symbol}
    {trees : List ParseTree} {c : Config} (h : Built p tokens symbols trees c) :
    p.Viable ((forestLeaves trees).map Token.terminal) := by
  have hpath := h.path
  obtain ⟨q, below, hstack⟩ := hpath.exists_cons
  rw [hstack] at hpath
  obtain ⟨i, hi⟩ := hpath.exists_holds
  obtain ⟨r, more, -, hstart⟩ := hpath.continues hp hi
  obtain ⟨symbols', hspells, hderives⟩ := h.forest.exists_derives
  exact ⟨symbols', _, hspells, hstart.trans (hderives.append_right _)⟩

end ParseBench.Grammar.Parser
