/-
  ParseBench.Proofs.Parser.Tree

  Parse trees over the rules of a parser. A tree has its tokens at the leaves
  and rule ids at the inner nodes; its post-order lists a shift for each leaf and
  a reduction for each inner node, children before their node. The post-order
  determines the tree (`postorder_injective`): reading it from the left with a
  stack of finished trees rebuilds it.
-/

import ParseBench.Grammar.Parser

namespace ParseBench.Grammar

/-- A token, or a rule over trees for the symbols of its right-hand side. -/
inductive ParseTree where
  | leaf (token : Token)
  | node (rule : Nat) (children : List ParseTree)

namespace ParseTree

/-! ## Leaves and post-order -/

mutual

/-- The tokens at the leaves from left to right. -/
def leaves : ParseTree → List Token
  | leaf token => [token]
  | node _ children => forestLeaves children

/-- The tokens at the leaves of trees in a row. -/
def forestLeaves : List ParseTree → List Token
  | [] => []
  | t :: trees => t.leaves ++ forestLeaves trees

end

mutual

/-- A shift for each leaf and a reduction for each inner node, from left to right and
    children before their node. -/
def postorder : ParseTree → List Step
  | leaf token => [.shift token]
  | node rule children => forestPostorder children ++ [.reduce rule]

/-- The post-orders of trees in a row. -/
def forestPostorder : List ParseTree → List Step
  | [] => []
  | t :: trees => t.postorder ++ forestPostorder trees

end

mutual

/-- The tree without the texts of its tokens. -/
def bare : ParseTree → ParseTree
  | leaf token => leaf ⟨token.terminal, ""⟩
  | node rule children => node rule (forestBare children)

/-- Trees in a row without the texts of their tokens. -/
def forestBare : List ParseTree → List ParseTree
  | [] => []
  | t :: trees => t.bare :: forestBare trees

end

@[simp] theorem forestLeaves_append (ts us : List ParseTree) :
    forestLeaves (ts ++ us) = forestLeaves ts ++ forestLeaves us := by
  induction ts with
  | nil => rfl
  | cons t ts ih => rw [List.cons_append, forestLeaves, forestLeaves, ih, List.append_assoc]

@[simp] theorem forestPostorder_append (ts us : List ParseTree) :
    forestPostorder (ts ++ us) = forestPostorder ts ++ forestPostorder us := by
  induction ts with
  | nil => rfl
  | cons t ts ih => rw [List.cons_append, forestPostorder, forestPostorder, ih, List.append_assoc]

@[simp] theorem forestLeaves_singleton (t : ParseTree) : forestLeaves [t] = t.leaves := by
  simp [forestLeaves]

@[simp] theorem forestPostorder_singleton (t : ParseTree) : forestPostorder [t] = t.postorder := by
  simp [forestPostorder]

end ParseTree

namespace Parser

open ParseTree

/-! ## Trees of a symbol -/

mutual

/-- A tree whose root is the symbol: a token of that terminal, or a rule for it over
    trees for the symbols of its right-hand side. -/
inductive IsTree (p : Parser) : Symbol → ParseTree → Prop
  | leaf {token : Token} {s : Symbol} (hs : p.terminals[token.terminal]? = some s) :
      IsTree p s (.leaf token)
  | node {rule : Nat} {r : Rule} {children : List ParseTree} (hr : p.rules[rule]? = some r)
      (h : IsForest p r.rhs children) : IsTree p r.lhs (.node rule children)

/-- Trees for a row of symbols. -/
inductive IsForest (p : Parser) : List Symbol → List ParseTree → Prop
  | nil : IsForest p [] []
  | cons {s : Symbol} {t : ParseTree} {symbols : List Symbol} {trees : List ParseTree}
      (ht : IsTree p s t) (h : IsForest p symbols trees) : IsForest p (s :: symbols) (t :: trees)

end

variable {p : Parser}

theorem IsForest.length_eq {symbols : List Symbol} {trees : List ParseTree}
    (h : p.IsForest symbols trees) : trees.length = symbols.length := by
  induction trees generalizing symbols with
  | nil =>
      cases h
      rfl
  | cons t trees ih =>
      cases h with
      | cons _ h => rw [List.length_cons, List.length_cons, ih h]

theorem IsForest.append {symbols more : List Symbol} {ts us : List ParseTree}
    (hts : p.IsForest symbols ts) (hus : p.IsForest more us) :
    p.IsForest (symbols ++ more) (ts ++ us) := by
  induction ts generalizing symbols with
  | nil =>
      cases hts
      exact hus
  | cons t ts ih =>
      cases hts with
      | cons ht h => exact .cons ht (ih h)

theorem isForest_append {symbols more : List Symbol} {trees : List ParseTree}
    (h : p.IsForest (symbols ++ more) trees) :
    ∃ ts us, trees = ts ++ us ∧ p.IsForest symbols ts ∧ p.IsForest more us := by
  induction symbols generalizing trees with
  | nil => exact ⟨[], trees, rfl, .nil, h⟩
  | cons s symbols ih =>
      cases h with
      | @cons _ t _ trees ht h =>
          obtain ⟨ts, us, rfl, hts, hus⟩ := ih h
          exact ⟨t :: ts, us, rfl, .cons ht hts, hus⟩

theorem isForest_singleton {s : Symbol} {trees : List ParseTree} (h : p.IsForest [s] trees) :
    ∃ t, trees = [t] ∧ p.IsTree s t := by
  cases h with
  | @cons _ t _ trees ht h =>
      cases h
      exact ⟨t, rfl, ht⟩

/-! ## Rebuilding a tree from its post-order -/

/-- Reads a post-order with a stack of finished trees, the last one first. -/
def replay (p : Parser) : List Step → List ParseTree → Option (List ParseTree)
  | [], forest => some forest
  | .shift token :: steps, forest => replay p steps (.leaf token :: forest)
  | .reduce rule :: steps, forest =>
    match p.rules[rule]? with
    | none => none
    | some r =>
      replay p steps (.node rule (forest.take r.rhs.length).reverse :: forest.drop r.rhs.length)

mutual

theorem IsTree.replay_postorder {s : Symbol} {t : ParseTree} (h : p.IsTree s t) (steps : List Step)
    (forest : List ParseTree) :
    p.replay (t.postorder ++ steps) forest = p.replay steps (t :: forest) := by
  cases h with
  | leaf hs => rfl
  | @node rule r children hr h =>
      have hlen : children.reverse.length = r.rhs.length := by
        rw [List.length_reverse, h.length_eq]
      rw [postorder, List.append_assoc, h.replay_forestPostorder]
      simp only [List.singleton_append, replay, hr]
      rw [List.take_left' hlen, List.drop_left' hlen, List.reverse_reverse]

theorem IsForest.replay_forestPostorder {symbols : List Symbol} {trees : List ParseTree}
    (h : p.IsForest symbols trees) (steps : List Step) (forest : List ParseTree) :
    p.replay (forestPostorder trees ++ steps) forest =
      p.replay steps (trees.reverse ++ forest) := by
  cases h with
  | nil => rfl
  | cons ht h =>
      rw [forestPostorder, List.append_assoc, ht.replay_postorder, h.replay_forestPostorder,
        List.reverse_cons, List.append_assoc, List.singleton_append]

end

/-- Parse trees with the same post-order are the same. -/
theorem postorder_injective {s s' : Symbol} {t u : ParseTree} (ht : p.IsTree s t)
    (hu : p.IsTree s' u) (h : t.postorder = u.postorder) : t = u := by
  have htree := ht.replay_postorder [] []
  rw [h, hu.replay_postorder [] []] at htree
  simp only [replay, Option.some.injEq, List.cons.injEq, and_true] at htree
  exact htree.symm

/-! ## Trees without texts -/

mutual

theorem IsTree.isTree_bare {s : Symbol} {t : ParseTree} (h : p.IsTree s t) : p.IsTree s t.bare := by
  cases h with
  | leaf hs => exact .leaf hs
  | node hr h => exact .node hr h.isForest_bare

theorem IsForest.isForest_bare {symbols : List Symbol} {trees : List ParseTree}
    (h : p.IsForest symbols trees) : p.IsForest symbols (forestBare trees) := by
  cases h with
  | nil => exact .nil
  | cons ht h => exact .cons ht.isTree_bare h.isForest_bare

end

end Parser

namespace ParseTree

mutual

theorem leaves_bare (t : ParseTree) :
    t.bare.leaves = t.leaves.map fun token => ⟨token.terminal, ""⟩ := by
  cases t with
  | leaf token => rfl
  | node rule children => exact forestLeaves_forestBare children

theorem forestLeaves_forestBare (trees : List ParseTree) :
    forestLeaves (forestBare trees) =
      (forestLeaves trees).map fun token => ⟨token.terminal, ""⟩ := by
  cases trees with
  | nil => rfl
  | cons t trees =>
      rw [forestBare, forestLeaves, forestLeaves, List.map_append, leaves_bare t,
        forestLeaves_forestBare trees]

end

end ParseTree

end ParseBench.Grammar
