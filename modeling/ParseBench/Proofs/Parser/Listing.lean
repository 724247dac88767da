/-
  ParseBench.Proofs.Parser.Listing

  The rules of a parse tree listed from the root down (`preorder`), and how that
  listing comes out of the reductions of the parser. Read from the left, the
  reductions of a tree leave its listing on top of the listings that were finished
  before it (`Fits.listDown`): the trees under a node are the last ones, as many as
  its rule has non-terminals. So both encodings of a token list stand for the same
  tree.

  None of this depends on the left-hand sides of the rules, and the decoders do not
  compare them either. What they do rely on is that under each rule there is a tree
  for every symbol of its right-hand side (`Fits`).
-/

import ParseBench.Proofs.Parser.Soundness

namespace ParseBench.Grammar

/-! ## Listings -/

@[simp] theorem reductions_append (steps more : List Step) :
    reductions (steps ++ more) = reductions steps ++ reductions more :=
  List.filterMap_append

@[simp] theorem reductions_shift (token : Token) : reductions [.shift token] = [] := rfl

@[simp] theorem reductions_reduce (rule : Nat) : reductions [.reduce rule] = [rule] := rfl

namespace ParseTree

mutual

/-- The rules of the inner nodes, each node before its children and the children from left
    to right. -/
def preorder : ParseTree → List Nat
  | leaf _ => []
  | node rule children => rule :: forestPreorder children

/-- The pre-orders of trees in a row. -/
def forestPreorder : List ParseTree → List Nat
  | [] => []
  | t :: trees => t.preorder ++ forestPreorder trees

end

/-- Is the tree more than a token? -/
def isNode : ParseTree → Bool
  | leaf _ => false
  | node .. => true

@[simp] theorem forestPreorder_append (ts us : List ParseTree) :
    forestPreorder (ts ++ us) = forestPreorder ts ++ forestPreorder us := by
  induction ts with
  | nil => rfl
  | cons t ts ih => rw [List.cons_append, forestPreorder, forestPreorder, ih, List.append_assoc]

/-- Tokens have no rules, so only the nodes of a row are listed. -/
theorem flatten_map_preorder (trees : List ParseTree) :
    ((trees.filter isNode).map preorder).flatten = forestPreorder trees := by
  induction trees with
  | nil => rfl
  | cons t trees ih =>
      rw [forestPreorder, ← ih]
      cases t with
      | leaf token => rfl
      | node rule children => rfl

mutual

theorem preorder_perm (t : ParseTree) : t.preorder.Perm (reductions t.postorder) := by
  cases t with
  | leaf token => exact .nil
  | node rule children =>
      rw [preorder, postorder, reductions_append, reductions_reduce]
      exact ((forestPreorder_perm children).cons rule).trans (List.perm_append_singleton ..).symm

theorem forestPreorder_perm (trees : List ParseTree) :
    (forestPreorder trees).Perm (reductions (forestPostorder trees)) := by
  cases trees with
  | nil => exact .nil
  | cons t trees =>
      rw [forestPreorder, forestPostorder, reductions_append]
      exact (preorder_perm t).append (forestPreorder_perm trees)

end

end ParseTree

namespace Parser

open ParseTree

variable {p : Parser}

/-! ## Trees with a child for every symbol -/

mutual

/-- A tree that can stand for the symbol as far as its kind goes: a token of that terminal,
    or any rule in place of a non-terminal. Under the rule there is such a tree for every
    symbol of its right-hand side. -/
inductive Fits (p : Parser) : Symbol → ParseTree → Prop
  | leaf {token : Token} {s : Symbol} (hs : isNonterminal s = false)
      (ht : p.terminals[token.terminal]? = some s) : Fits p s (.leaf token)
  | node {s : Symbol} {rule : Nat} {r : Rule} {children : List ParseTree}
      (hs : isNonterminal s = true) (hr : p.rules[rule]? = some r)
      (h : FitsRow p r.rhs children) : Fits p s (.node rule children)

/-- Such trees for a row of symbols. -/
inductive FitsRow (p : Parser) : List Symbol → List ParseTree → Prop
  | nil : FitsRow p [] []
  | cons {s : Symbol} {t : ParseTree} {symbols : List Symbol} {trees : List ParseTree}
      (ht : Fits p s t) (h : FitsRow p symbols trees) : FitsRow p (s :: symbols) (t :: trees)

end

/-- The left-hand side of the rule at the root. -/
def rootLhs? (p : Parser) : ParseTree → Option Symbol
  | .leaf _ => none
  | .node rule _ => (p.rules[rule]?).map Rule.lhs

/-- The rule at the root is the first one listed. -/
theorem rootLhs?_eq (t : ParseTree) :
    p.rootLhs? t = t.preorder.head?.bind fun rule => (p.rules[rule]?).map Rule.lhs := by
  cases t with
  | leaf => rfl
  | node => rfl

mutual

/-- Parse trees fit: their rules even have the left-hand sides that are asked for. -/
theorem IsTree.fits (hp : p.Lawful) {s : Symbol} {t : ParseTree} (h : p.IsTree s t) :
    p.Fits s t := by
  cases h with
  | leaf hs => exact .leaf (hp.isTerminal _ _ hs) hs
  | node hr h =>
      exact .node (hp.augmentable.lhs_nonterminal _ (mem_rules hr)) hr (h.fitsRow hp)

theorem IsForest.fitsRow (hp : p.Lawful) {symbols : List Symbol} {trees : List ParseTree}
    (h : p.IsForest symbols trees) : p.FitsRow symbols trees := by
  cases h with
  | nil => exact .nil
  | cons ht h => exact .cons (ht.fits hp) (h.fitsRow hp)

end

/-- A parse tree of a non-terminal has a rule for it at its root. -/
theorem IsTree.rootLhs?_eq_some (hp : p.Lawful) {s : Symbol} {t : ParseTree} (h : p.IsTree s t)
    (hs : isNonterminal s = true) : p.rootLhs? t = some s := by
  cases h with
  | leaf ht =>
      rw [hp.isTerminal _ _ ht] at hs
      cases hs
  | node hr _ => rw [rootLhs?, hr, Option.map_some]

/-- Which non-terminal is asked for makes no difference to a tree that fits. -/
theorem Fits.of_nonterminal {s s' : Symbol} {t : ParseTree} (h : p.Fits s t)
    (hs : isNonterminal s = true) (hs' : isNonterminal s' = true) : p.Fits s' t := by
  cases h with
  | leaf hs'' =>
      rw [hs''] at hs
      cases hs
  | node _ hr h => exact .node hs' hr h

theorem FitsRow.append {symbols more : List Symbol} {ts us : List ParseTree}
    (hts : p.FitsRow symbols ts) (hus : p.FitsRow more us) :
    p.FitsRow (symbols ++ more) (ts ++ us) := by
  induction ts generalizing symbols with
  | nil =>
      cases hts
      exact hus
  | cons t ts ih =>
      cases hts with
      | cons ht h => exact .cons ht (ih h)

theorem fitsRow_append {symbols more : List Symbol} {trees : List ParseTree}
    (h : p.FitsRow (symbols ++ more) trees) :
    ∃ ts us, trees = ts ++ us ∧ p.FitsRow symbols ts ∧ p.FitsRow more us := by
  induction symbols generalizing trees with
  | nil => exact ⟨[], trees, rfl, .nil, h⟩
  | cons s symbols ih =>
      cases h with
      | @cons _ t _ trees ht h =>
          obtain ⟨ts, us, rfl, hts, hus⟩ := ih h
          exact ⟨t :: ts, us, rfl, .cons ht hts, hus⟩

theorem fitsRow_singleton {s : Symbol} {trees : List ParseTree} (h : p.FitsRow [s] trees) :
    ∃ t, trees = [t] ∧ p.Fits s t := by
  cases h with
  | @cons _ t _ trees ht h =>
      cases h
      exact ⟨t, rfl, ht⟩

theorem Fits.isNode_eq {s : Symbol} {t : ParseTree} (h : p.Fits s t) :
    t.isNode = isNonterminal s := by
  cases h with
  | leaf hs _ => exact hs.symm
  | node hs _ _ => exact hs.symm

/-- The nodes in a row of trees are those of its non-terminals. -/
theorem FitsRow.length_filter_isNode {symbols : List Symbol} {trees : List ParseTree}
    (h : p.FitsRow symbols trees) : (trees.filter isNode).length = childCount symbols := by
  unfold childCount
  induction trees generalizing symbols with
  | nil =>
      cases h
      rfl
  | cons t trees ih =>
      cases h with
      | @cons s _ symbols _ ht h =>
          rw [List.filter_cons, List.filter_cons, ht.isNode_eq]
          split
          · rw [List.length_cons, List.length_cons, ih h]
          · exact ih h

/-! ## From the root down -/

mutual

theorem Fits.listDown {s : Symbol} {t : ParseTree} (h : p.Fits s t) (rest : List Nat)
    (forest : List (List Nat)) :
    p.listDown forest (reductions t.postorder ++ rest) =
      p.listDown ((([t].filter isNode).map preorder).reverse ++ forest) rest := by
  cases h with
  | leaf => rfl
  | @node _ rule r children _ hr h =>
      have hlen : ((children.filter isNode).map preorder).reverse.length = childCount r.rhs := by
        rw [List.length_reverse, List.length_map, h.length_filter_isNode]
      have henough : ¬ (((children.filter isNode).map preorder).reverse ++ forest).length <
          childCount r.rhs := by
        rw [List.length_append, hlen]
        omega
      rw [postorder, reductions_append, reductions_reduce, List.append_assoc, h.listDown,
        List.singleton_append, Parser.listDown, hr]
      simp only [henough, if_false]
      -- the listings of the children are taken off and put under the rule
      rw [List.take_left' hlen, List.drop_left' hlen, List.reverse_reverse, flatten_map_preorder]
      rfl

theorem FitsRow.listDown {symbols : List Symbol} {trees : List ParseTree}
    (h : p.FitsRow symbols trees) (rest : List Nat) (forest : List (List Nat)) :
    p.listDown forest (reductions (forestPostorder trees) ++ rest) =
      p.listDown (((trees.filter isNode).map preorder).reverse ++ forest) rest := by
  cases h with
  | nil => rfl
  | @cons s t symbols trees ht h =>
      have hnodes : (t :: trees).filter isNode = [t].filter isNode ++ trees.filter isNode := by
        rw [← List.filter_append, List.singleton_append]
      rw [forestPostorder, reductions_append, List.append_assoc, ht.listDown, h.listDown, hnodes,
        List.map_append, List.reverse_append, List.append_assoc]

end

/-- The steps of a tree are listed as the tree is. -/
theorem parseDown_of_parse {tokens : List Token} {s : Symbol} {t : ParseTree}
    (hs : isNonterminal s = true) (ht : p.Fits s t) (h : p.parse tokens = .ok t.postorder) :
    p.parseDown tokens = .ok t.preorder := by
  have hlist := ht.listDown [] []
  have hnode : [t].filter isNode = [t] := by
    rw [List.filter_singleton, ht.isNode_eq, hs]
    rfl
  rw [List.append_nil, hnode, List.append_nil] at hlist
  simp [parseDown, h, hlist, Parser.listDown, bind, Except.bind]

theorem parseDown_of_error {tokens : List Token} {e : GrammarError}
    (h : p.parse tokens = .error e) :
    p.parseDown tokens = .error e := by
  rw [parseDown, h]
  rfl

/-- The listing of a node begins with its rule, with which its reductions end. -/
theorem exists_root {s : Symbol} {t : ParseTree} (hs : isNonterminal s = true) (ht : p.Fits s t) :
    ∃ root, t.preorder.head? = some root ∧ (reductions t.postorder).getLast? = some root := by
  cases ht with
  | leaf hs' =>
      rw [hs] at hs'
      cases hs'
  | @node _ rule _ children =>
      refine ⟨rule, rfl, ?_⟩
      rw [postorder, reductions_append, reductions_reduce, List.getLast?_concat]

/-- Both encodings of a token list stand for one tree. The listing from the root down fails
    where the parser does and with its error; otherwise it is the pre-order of the parse
    tree whose post-order the steps are, a permutation of the reductions that begins with
    the last of them. -/
theorem parseDown_lists_tree {g : RuleSet} {start : Symbol} {c : Compiled} (hg : g.WellFormed start)
    (hc : (compile g start).1 = .ok c) {tokens : List Token}
    (hend : ∀ token ∈ tokens, token.terminal ≠ endId) :
    (∀ e, c.parser.parseDown tokens = .error e ↔ c.parser.parse tokens = .error e) ∧
      ∀ steps, c.parser.parse tokens = .ok steps →
        ∃ t, c.parser.IsTree start t ∧ t.leaves = tokens ∧ t.postorder = steps ∧
          c.parser.parseDown tokens = .ok t.preorder ∧ t.preorder.Perm (reductions steps) ∧
          ∃ root, t.preorder.head? = some root ∧ (reductions steps).getLast? = some root := by
  have hp := lawful_of_compile hg hc
  have haccepted : ∀ steps, c.parser.parse tokens = .ok steps →
      ∃ t, c.parser.IsTree start t ∧ t.leaves = tokens ∧ t.postorder = steps ∧
        c.parser.parseDown tokens = .ok t.preorder := by
    intro steps hparse
    obtain ⟨t, ht, hleaves, rfl⟩ := exists_tree_of_parse_ok hp hend hparse
    have hdown := parseDown_of_parse hp.augmentable.start_nonterminal (ht.fits hp) hparse
    rw [parser_start hc] at ht
    exact ⟨t, ht, hleaves, rfl, hdown⟩
  refine ⟨fun e => ⟨fun hdown => ?_, parseDown_of_error⟩, fun steps hparse => ?_⟩
  · cases hparse : c.parser.parse tokens with
    | error e' =>
        rw [parseDown_of_error hparse] at hdown
        rw [Except.error.inj hdown]
    | ok steps =>
        obtain ⟨t, -, -, -, hok⟩ := haccepted steps hparse
        rw [hok] at hdown
        cases hdown
  · obtain ⟨t, ht, hleaves, rfl, hdown⟩ := haccepted steps hparse
    exact ⟨t, ht, hleaves, rfl, hdown, preorder_perm t,
      exists_root hg.start_nonterminal (ht.fits hp)⟩

theorem parseDown_lists_tree_sums :
    sumsCompiled.parser.parse [⟨3, "1"⟩, ⟨4, "+"⟩, ⟨3, "i"⟩] =
        .ok [.shift ⟨3, "1"⟩, .reduce 2, .reduce 1, .shift ⟨4, "+"⟩, .shift ⟨3, "i"⟩, .reduce 2,
          .reduce 0] ∧
      ∃ t, sumsCompiled.parser.IsTree "$Sum" t ∧ t.leaves = [⟨3, "1"⟩, ⟨4, "+"⟩, ⟨3, "i"⟩] ∧
        sumsCompiled.parser.parseDown [⟨3, "1"⟩, ⟨4, "+"⟩, ⟨3, "i"⟩] = .ok t.preorder ∧
        t.preorder.Perm [2, 1, 2, 0] ∧ t.preorder.head? = some 0 := by
  have hparse : sumsCompiled.parser.parse [⟨3, "1"⟩, ⟨4, "+"⟩, ⟨3, "i"⟩] =
      .ok [.shift ⟨3, "1"⟩, .reduce 2, .reduce 1, .shift ⟨4, "+"⟩, .shift ⟨3, "i"⟩, .reduce 2,
        .reduce 0] := eq_ok_of_toOption (by decide +kernel)
  obtain ⟨t, ht, hleaves, -, hdown, hperm, root, hhead, hlast⟩ :=
    (parseDown_lists_tree sums_wellFormed compile_sums (by decide)).2 _ hparse
  refine ⟨hparse, t, ht, hleaves, hdown, hperm, ?_⟩
  rw [hhead, ← hlast]
  rfl

end Parser

end ParseBench.Grammar
