/-
  ParseBench.Proofs.Parser.Decoding

  What the decoders accept. Neither compares the left-hand side of a rule with the
  non-terminal that it stands for, so what they decode are trees with a child for
  every symbol (`Fits`), not parse trees. Rules that have been rebuilt to a state
  are the reductions of a row of such trees, one for each program on the stack
  (`Assembled`); a reduction keeps this up, and a finished rebuilding has one
  program and so one tree. With the same for listings from the root down, all other
  sequences are refused.
-/

import ParseBench.Proofs.Parser.Expand

namespace ParseBench.Grammar.Parser

open ParseTree

variable {p : Parser}

/-! ## Reductions that rebuild a program -/

/-- The rule renames one non-terminal to another. -/
def IsRenaming (p : Parser) (rule : Nat) : Prop :=
  ∃ r a, p.rules[rule]? = some r ∧ r.rhs = [a] ∧ isNonterminal a = true

/-- What rules have been rebuilt to: a row of trees whose reductions they are, after
    renamings that had nothing to rename. The programs on the stack are those of the trees,
    without any text. -/
structure Assembled (p : Parser) (rules : List Nat) (trees : List ParseTree) (state : Rebuild) :
    Prop where
  held : state.held = []
  forest : state.forest = trees.reverse.map (program fun _ => false)
  fits : ∀ t ∈ trees, p.Fits p.start t
  reduced : ∃ front, (∀ rule ∈ front, p.IsRenaming rule) ∧
    rules = front ++ reductions (forestPostorder trees)
  top : state.top = rules.getLast?.bind fun rule => (p.rules[rule]?).map Rule.lhs

theorem assembled_nil : Assembled p [] [] ⟨[], [], none⟩ where
  held := rfl
  forest := rfl
  fits := fun _ ht => absurd ht List.not_mem_nil
  reduced := ⟨[], fun _ hrule => absurd hrule List.not_mem_nil, rfl⟩
  top := rfl

theorem FitsRow.reverse {symbols : List Symbol} {trees : List ParseTree}
    (h : p.FitsRow symbols trees) : p.FitsRow symbols.reverse trees.reverse := by
  induction trees generalizing symbols with
  | nil =>
      cases h
      exact .nil
  | cons t trees ih =>
      cases h with
      | cons ht h =>
          rw [List.reverse_cons, List.reverse_cons]
          exact (ih h).append (.cons ht .nil)

theorem reductions_filter_isNode (trees : List ParseTree) :
    reductions (forestPostorder (trees.filter isNode)) = reductions (forestPostorder trees) := by
  induction trees with
  | nil => rfl
  | cons t trees ih =>
      cases t with
      | leaf token => exact ih
      | node rule children =>
          rw [List.filter_cons_of_pos rfl, forestPostorder, forestPostorder, reductions_append,
            reductions_append, ih]

/-- The programs that are collected for symbols are those of trees for them; the
    non-terminals have theirs from the stack. -/
theorem exists_row_of_collect (hp : p.Lawful) {symbols : List Symbol} {stack : List ParseTree}
    {leaves : List Leaf} {held : List Token} {forest : List (List Leaf)}
    (hids : ∀ s ∈ symbols, isNonterminal s = false → ∃ id : Nat, p.terminals[id]? = some s)
    (hstack : ∀ t ∈ stack, p.Fits p.start t)
    (h : p.collect symbols [] (stack.map (program fun _ => false)) = some (leaves, held, forest)) :
    ∃ row rest, p.FitsRow symbols row ∧ stack = row.filter isNode ++ rest ∧ held = [] ∧
      forest = rest.map (program fun _ => false) ∧
      leaves = row.flatMap (program fun _ => false) := by
  induction symbols generalizing stack leaves with
  | nil =>
      cases h
      exact ⟨[], stack, .nil, rfl, rfl, rfl, rfl⟩
  | cons s symbols ih =>
      obtain ⟨hid, hids⟩ := List.forall_mem_cons.1 hids
      unfold collect at h
      split at h
      · next hs =>
          cases stack with
          | nil => cases h
          | cons t stack =>
              obtain ⟨ht, hstack⟩ := List.forall_mem_cons.1 hstack
              obtain ⟨⟨leaves', held', forest'⟩, hcollect, heq⟩ := Option.bind_eq_some_iff.1 h
              cases heq
              obtain ⟨row, rest, hrow, rfl, rfl, rfl, rfl⟩ := ih hids hstack hcollect
              have hfits := ht.of_nonterminal hp.augmentable.start_nonterminal hs
              refine ⟨t :: row, rest, .cons hfits hrow, ?_, rfl, rfl, rfl⟩
              rw [List.filter_cons_of_pos (by rw [hfits.isNode_eq, hs]), List.cons_append]
      · next hs =>
          rw [Bool.not_eq_true] at hs
          obtain ⟨id, hid⟩ := hid hs
          rw [hp.symbolId?_eq hid] at h
          simp only [Option.bind_eq_bind, Option.bind_some, takeToken] at h
          obtain ⟨⟨leaves', held', forest'⟩, hcollect, heq⟩ := Option.bind_eq_some_iff.1 h
          cases heq
          obtain ⟨row, rest, hrow, rfl, rfl, rfl, rfl⟩ := ih hids hstack hcollect
          exact ⟨.leaf ⟨id, ""⟩ :: row, rest, .cons (.leaf hs hid) hrow, rfl, rfl, rfl, rfl⟩

/-- A renaming goes on top of the last tree, or there is none and it renames nothing. -/
theorem Assembled.renamed (hstart : isNonterminal p.start = true) {rules : List Nat}
    {trees : List ParseTree} {state : Rebuild} (h : Assembled p rules trees state) {rule : Nat}
    {r : Rule} {a : Symbol} (hr : p.rules[rule]? = some r) (ha : r.rhs = [a])
    (hnt : isNonterminal a = true) :
    ∃ trees', Assembled p (rules ++ [rule]) trees' { state with top := some r.lhs } := by
  obtain ⟨front, hfront, hrules⟩ := h.reduced
  have htop : some r.lhs =
      (rules ++ [rule]).getLast?.bind fun rule => (p.rules[rule]?).map Rule.lhs := by simp [hr]
  rcases List.eq_nil_or_concat trees with rfl | ⟨before, t, rfl⟩
  · refine ⟨[], h.held, h.forest, h.fits, ⟨front ++ [rule], ?_, ?_⟩, htop⟩
    · rw [List.forall_mem_append, List.forall_mem_singleton]
      exact ⟨hfront, r, a, hr, ha, hnt⟩
    · rw [hrules, List.append_assoc, List.append_assoc]
      rfl
  · rw [List.concat_eq_append] at *
    have hforest := h.forest
    obtain ⟨hbefore, ht⟩ := List.forall_mem_append.1 h.fits
    rw [List.forall_mem_singleton] at ht
    have hchildren : p.FitsRow r.rhs [t] := by
      rw [ha]
      exact .cons (ht.of_nonterminal hstart hnt) .nil
    refine ⟨before ++ [.node rule [t]], h.held, ?_, ?_, ⟨front, hfront, ?_⟩, htop⟩
    · simpa [program_node] using hforest
    · rw [List.forall_mem_append, List.forall_mem_singleton]
      exact ⟨hbefore, .node hstart hr hchildren⟩
    · simp [hrules, postorder]

/-- Another rule gets the last trees under it, one for each of its non-terminals. -/
theorem Assembled.joined (hp : p.Lawful) {rules : List Nat} {trees : List ParseTree}
    {state : Rebuild} (h : Assembled p rules trees state) {rule : Nat} {r : Rule}
    (hr : p.rules[rule]? = some r) {leaves : List Leaf} {held : List Token}
    {forest : List (List Leaf)}
    (hcollect : p.collect r.rhs.reverse state.held state.forest = some (leaves, held, forest)) :
    ∃ trees', Assembled p (rules ++ [rule]) trees' ⟨held, leaves :: forest, some r.lhs⟩ := by
  obtain ⟨front, hfront, hrules⟩ := h.reduced
  rw [h.held, h.forest] at hcollect
  obtain ⟨row, rest, hrow, hstack, rfl, rfl, rfl⟩ := exists_row_of_collect hp
    (fun s hs hterminal => hp.exists_terminalId hr (List.mem_reverse.1 hs) hterminal)
    (fun t ht => h.fits t (List.mem_reverse.1 ht)) hcollect
  -- the right-hand side was read from its end, and so were the trees
  have hchildren := hrow.reverse
  rw [List.reverse_reverse] at hchildren
  have htrees : trees = rest.reverse ++ row.reverse.filter isNode := by
    rw [List.filter_reverse, ← List.reverse_append, ← hstack, List.reverse_reverse]
  subst htrees
  refine ⟨rest.reverse ++ [.node rule row.reverse], rfl, ?_, ?_, ⟨front, hfront, ?_⟩, ?_⟩
  · simp [program_node]
  · rw [List.forall_mem_append, List.forall_mem_singleton]
    exact ⟨(List.forall_mem_append.1 h.fits).1,
      .node hp.augmentable.start_nonterminal hr hchildren⟩
  · rw [hrules, forestPostorder_append, forestPostorder_append, forestPostorder_singleton,
      postorder, reductions_append, reductions_append, reductions_append,
      reductions_filter_isNode, reductions_reduce, List.append_assoc, List.append_assoc]
  · simp [hr]

/-- A reduction leads from trees to trees. -/
theorem Assembled.step (hp : p.Lawful) {rules : List Nat} {trees : List ParseTree}
    {state state' : Rebuild} (h : Assembled p rules trees state) {rule : Nat}
    (hstep : p.rebuildStep state (.reduce rule) = some state') :
    ∃ trees', Assembled p (rules ++ [rule]) trees' state' := by
  cases hr : p.rules[rule]? with
  | none => simp [rebuildStep, hr] at hstep
  | some r =>
      by_cases hrenames : ∃ a, r.rhs = [a] ∧ isNonterminal a = true
      · obtain ⟨a, ha, hnt⟩ := hrenames
        rw [rebuildStep_renaming hr ha hnt] at hstep
        cases hstep
        exact h.renamed hp.augmentable.start_nonterminal hr ha hnt
      · rw [rebuildStep_joining hr hrenames] at hstep
        obtain ⟨⟨leaves, held, forest⟩, hcollect, heq⟩ := Option.map_eq_some_iff.1 hstep
        cases heq
        exact h.joined hp hr hcollect

theorem Assembled.run (hp : p.Lawful) {rules : List Nat} {trees : List ParseTree}
    {state state' : Rebuild} (h : Assembled p rules trees state) {more : List Nat}
    (hrun : (more.map .reduce).foldlM p.rebuildStep state = some state') :
    ∃ trees', Assembled p (rules ++ more) trees' state' := by
  induction more generalizing rules trees state with
  | nil =>
      cases hrun
      rw [List.append_nil]
      exact ⟨trees, h⟩
  | cons rule more ih =>
      rw [List.map_cons, List.foldlM_cons] at hrun
      obtain ⟨next, hstep, hmore⟩ := Option.bind_eq_some_iff.1 hrun
      obtain ⟨trees', hnext⟩ := h.step hp hstep
      rw [List.append_cons]
      exact ih hnext hmore

/-- Reductions that rebuild a program are those of a tree under a rule for the start symbol,
    after renamings that had nothing to rename. -/
theorem exists_tree_of_rebuild (hp : p.Lawful) {rules : List Nat} {leaves : List Leaf}
    (h : p.rebuild (rules.map .reduce) = .ok leaves) :
    ∃ front t, rules = front ++ reductions t.postorder ∧ (∀ rule ∈ front, p.IsRenaming rule) ∧
      p.Fits p.start t ∧ p.rootLhs? t = some p.start ∧
      leaves = t.leaves.map (leafOf fun _ => false) := by
  unfold rebuild at h
  split at h
  · next held leaves' top hrun =>
      split at h
      · next htop =>
          cases h
          obtain ⟨trees, hassembled⟩ := assembled_nil.run hp hrun
          -- one program on the stack is one tree
          obtain ⟨t, hreverse, hprogram⟩ := List.map_eq_singleton_iff.1 hassembled.forest.symm
          obtain rfl : trees = [t] := by rw [← List.reverse_reverse trees, hreverse]; rfl
          obtain ⟨front, hfront, hrules⟩ := hassembled.reduced
          have hfits := hassembled.fits t List.mem_cons_self
          obtain ⟨root, hhead, hlast⟩ := exists_root hp.augmentable.start_nonterminal hfits
          have hroot := hassembled.top
          rw [List.nil_append, forestPostorder_singleton] at hrules
          rw [List.nil_append, hrules, List.getLast?_append, hlast, Option.some_or,
            Option.bind_some, htop] at hroot
          refine ⟨front, t, hrules, hfront, hfits, ?_, ?_⟩
          · rw [rootLhs?_eq, hhead, Option.bind_some]
            exact hroot.symm
          · rw [← hprogram, program, List.reverse_reverse]
      · cases h
  · cases h

/-- A rebuilding that does not succeed fails in one way only. -/
theorem rebuild_cases (p : Parser) (steps : List Step) :
    (∃ leaves, p.rebuild steps = .ok leaves) ∨ p.rebuild steps = .error .invalidSequence := by
  unfold rebuild
  split
  · split
    · exact .inl ⟨_, rfl⟩
    · exact .inr rfl
  · exact .inr rfl

/-! ## What is decoded -/

/-- The decoders accept the encodings of trees that have a child for every symbol of each
    rule, whatever the left-hand sides below the root are, and nothing else that is not
    begun or ended by such an encoding. A listing from the root down has to begin with the
    pre-order of such a tree, of which a part is not enough; reductions have to be the
    post-order of one under a rule for the start symbol, after renamings that had nothing
    to rename. -/
theorem decoders_accept_fitting_trees {g : RuleSet} {start : Symbol} {c : Compiled}
    (hg : g.WellFormed start) (hc : (compile g start).1 = .ok c) :
    (∀ t, c.parser.IsTree start t →
        c.parser.Fits start t ∧ c.parser.rootLhs? t = some start) ∧
      -- from the root down
      (∀ t, c.parser.Fits start t → c.parser.rootLhs? t = some start →
        c.parser.terminalsDown t.preorder = .ok (c.parser.names t.leaves)) ∧
      (∀ rules, (∃ t, c.parser.Fits start t ∧ t.preorder <+: rules ∧
          c.parser.terminalsDown rules = .ok (c.parser.names t.leaves)) ∨
        c.parser.terminalsDown rules = .error .invalidSequence) ∧
      (∀ t rules, c.parser.Fits start t → rules <+: t.preorder → rules ≠ t.preorder →
        c.parser.terminalsDown rules = .error .invalidSequence) ∧
      -- from the leaves up
      (∀ t, c.parser.Fits start t → c.parser.rootLhs? t = some start →
        c.parser.rebuild ((reductions t.postorder).map .reduce) =
          .ok (t.leaves.map (leafOf fun _ => false))) ∧
      ∀ rules, (∃ front t, rules = front ++ reductions t.postorder ∧
          (∀ rule ∈ front, c.parser.IsRenaming rule) ∧ c.parser.Fits start t ∧
          c.parser.rootLhs? t = some start ∧
          c.parser.rebuild (rules.map .reduce) = .ok (t.leaves.map (leafOf fun _ => false))) ∨
        c.parser.rebuild (rules.map .reduce) = .error .invalidSequence := by
  have hp := lawful_of_compile hg hc
  have hstart := hg.start_nonterminal
  rw [← parser_start hc] at hstart ⊢
  refine ⟨fun t ht => ⟨ht.fits hp, ht.rootLhs?_eq_some hp hstart⟩, fun t ht _ => ?_,
    fun rules => ?_, fun t rules ht hprefix hne => ?_, fun t ht hroot => ?_, fun rules => ?_⟩
  · have hterminals := ht.terminalsDown_eq hstart []
    rw [List.append_nil] at hterminals
    exact hterminals
  · refine (terminalsDown_cases c.parser rules).imp_left fun ⟨terminals, hok⟩ => ?_
    obtain ⟨t, ht, hprefix, rfl⟩ := exists_tree_of_terminalsDown hp hok
    exact ⟨t, ht, hprefix, hok⟩
  · refine (terminalsDown_cases c.parser rules).resolve_left fun ⟨terminals, hok⟩ => hne ?_
    -- the listing that the part begins with would begin the listing of the tree
    obtain ⟨u, hu, hprefix', -⟩ := exists_tree_of_terminalsDown hp hok
    rw [preorder_eq_of_begins hu ht (hprefix'.trans hprefix)] at hprefix'
    exact hprefix.eq_of_length_le hprefix'.length_le
  · rw [← keepShifts_none]
    exact ht.rebuild_eq hp hroot _
  · refine (rebuild_cases c.parser (rules.map .reduce)).imp_left fun ⟨leaves, hok⟩ => ?_
    obtain ⟨front, t, hrules, hfront, ht, hroot, rfl⟩ := exists_tree_of_rebuild hp hok
    exact ⟨front, t, hrules, hfront, ht, hroot, hok⟩

/-- A sum of two numbers, of which the first one stands where a sum is asked for. -/
def numbersTree : ParseTree :=
  .node 0 [.node 2 [.leaf ⟨3, ""⟩], .leaf ⟨4, ""⟩, .node 2 [.leaf ⟨3, ""⟩]]

theorem fits_numbersTree : sumsCompiled.parser.Fits "$Sum" numbersTree := by
  have hone : sumsCompiled.parser.terminals[3]? = some "one" := by decide +kernel
  have hplus : sumsCompiled.parser.terminals[4]? = some "plus" := by decide +kernel
  have hsum : sumsCompiled.parser.rules[0]? = some ⟨"$Sum", ["$Sum", "plus", "$Num"]⟩ := by
    decide +kernel
  have hnum : sumsCompiled.parser.rules[2]? = some ⟨"$Num", ["one"]⟩ := by decide +kernel
  have hnumber : ∀ s, isNonterminal s = true →
      sumsCompiled.parser.Fits s (.node 2 [.leaf ⟨3, ""⟩]) :=
    fun s hs => .node hs hnum (.cons (.leaf (by decide) hone) .nil)
  exact .node (by decide) hsum (.cons (hnumber _ (by decide))
    (.cons (.leaf (by decide) hplus) (.cons (hnumber _ (by decide)) .nil)))

theorem decoders_accept_fitting_trees_sums :
    sumsCompiled.parser.Fits "$Sum" numbersTree ∧
      sumsCompiled.parser.terminalsDown [0, 2, 2] = .ok ["one", "plus", "one"] ∧
      sumsCompiled.parser.terminalsDown [0, 2] = .error .invalidSequence ∧
      sumsCompiled.parser.rebuild [.reduce 2, .reduce 2, .reduce 0] =
        .ok [⟨3, none⟩, ⟨4, none⟩, ⟨3, none⟩] := by
  obtain ⟨-, hdown, -, hpart, hup, -⟩ :=
    decoders_accept_fitting_trees sums_wellFormed compile_sums
  have hfits := fits_numbersTree
  have hroot : sumsCompiled.parser.rootLhs? numbersTree = some "$Sum" := by decide +kernel
  have hnames : sumsCompiled.parser.names numbersTree.leaves = ["one", "plus", "one"] := by
    decide +kernel
  have hterminals := hdown numbersTree hfits hroot
  rw [hnames] at hterminals
  exact ⟨hfits, hterminals, hpart numbersTree [0, 2] hfits (by decide) (by decide),
    hup numbersTree hfits hroot⟩

/-- A sum has more than rules for numbers. -/
theorem exists_ne_two_of_isTree {t : ParseTree} (h : sumsCompiled.parser.IsTree "$Sum" t) :
    ∃ rule ∈ t.preorder, rule ≠ 2 := by
  have hp := lawful_of_compile sums_wellFormed compile_sums
  obtain ⟨root, hhead, -⟩ := exists_root (by decide) (h.fits hp)
  refine ⟨root, List.mem_of_mem_head? hhead, ?_⟩
  rintro rfl
  have hroot := h.rootLhs?_eq_some hp (by decide)
  have hnum : (sumsCompiled.parser.rules[2]?).map Rule.lhs = some "$Num" := by decide +kernel
  rw [rootLhs?_eq, hhead, Option.bind_some, hnum] at hroot
  exact absurd hroot (by decide)

/-- No order of the rules of `numbersTree` is that of a parse tree. -/
theorem not_perm_of_isTree {t : ParseTree} (h : sumsCompiled.parser.IsTree "$Sum" t) :
    ¬ t.preorder.Perm [0, 2, 2] := by
  intro hperm
  generalize hlhs : "$Sum" = s at h
  cases h with
  | leaf => cases hperm.length_eq
  | @node rule r children hr hchildren =>
      have hmem : rule ∈ [0, 2, 2] := hperm.subset List.mem_cons_self
      have hsum : sumsCompiled.parser.rules[0]? = some ⟨"$Sum", ["$Sum", "plus", "$Num"]⟩ := by
        decide +kernel
      have hnum : sumsCompiled.parser.rules[2]? = some ⟨"$Num", ["one"]⟩ := by decide +kernel
      simp only [List.mem_cons, List.not_mem_nil, or_false, or_self] at hmem
      rcases hmem with rfl | rfl
      · cases hr.symm.trans hsum
        cases hchildren with
        | cons hfirst _ =>
            obtain ⟨rule, hrule, hne⟩ := exists_ne_two_of_isTree hfirst
            have hothers := hperm.cons_inv.subset (List.mem_append_left _ hrule)
            simp only [List.mem_cons, List.not_mem_nil, or_false, or_self] at hothers
            exact hne hothers
      · cases hr.symm.trans hnum
        exact absurd hlhs (by decide)

/-- Both decoders accept an encoding of `numbersTree`, which is no parse tree, nor are there
    parse trees that are encoded so. A listing may have more rules behind it, and the rule at its
    root may be one for another non-terminal than the start symbol. -/
theorem decoders_ignore_lhs :
    sums.WellFormed "$Sum" ∧ (compile sums "$Sum").1 = .ok sumsCompiled ∧
      (sumsCompiled.parser.terminalsDown [0, 2, 2] = .ok ["one", "plus", "one"] ∧
        ¬ ∃ t, sumsCompiled.parser.IsTree "$Sum" t ∧ t.preorder = [0, 2, 2]) ∧
      (sumsCompiled.parser.rebuild [.reduce 2, .reduce 2, .reduce 0] =
          .ok [⟨3, none⟩, ⟨4, none⟩, ⟨3, none⟩] ∧
        ¬ ∃ t, sumsCompiled.parser.IsTree "$Sum" t ∧ reductions t.postorder = [2, 2, 0]) ∧
      -- rules behind a listing
      (sumsCompiled.parser.terminalsDown [1, 2, 0] = .ok ["one"] ∧
        ¬ ∃ t, sumsCompiled.parser.IsTree "$Sum" t ∧ t.preorder = [1, 2, 0]) ∧
      -- another root
      sumsCompiled.parser.terminalsDown [2] = .ok ["one"] ∧
        ¬ ∃ t, sumsCompiled.parser.IsTree "$Sum" t ∧ t.preorder = [2] := by
  have hp := lawful_of_compile sums_wellFormed compile_sums
  refine ⟨sums_wellFormed, compile_sums, ⟨eq_ok_of_toOption (by decide +kernel), ?_⟩,
    ⟨eq_ok_of_toOption (by decide +kernel), ?_⟩, ⟨eq_ok_of_toOption (by decide +kernel), ?_⟩,
    eq_ok_of_toOption (by decide +kernel), ?_⟩
  · rintro ⟨t, ht, hpre⟩
    exact not_perm_of_isTree ht (hpre ▸ .refl _)
  · rintro ⟨t, ht, hpost⟩
    have hperm := preorder_perm t
    rw [hpost] at hperm
    exact not_perm_of_isTree ht (hperm.trans (by decide))
  · rintro ⟨t, ht, hpre⟩
    -- the listing of a tree would be read to its end
    have hexpand := (ht.fits hp).expand_singleton []
    have hunread : sumsCompiled.parser.expand [1, 2, 0] ["$Sum"] = some (["one"], [0]) := by
      decide +kernel
    rw [List.append_nil, hpre, hunread, Option.some.injEq, Prod.mk.injEq] at hexpand
    exact absurd hexpand.2 (by decide)
  · rintro ⟨t, ht, hpre⟩
    obtain ⟨rule, hrule, hne⟩ := exists_ne_two_of_isTree ht
    rw [hpre] at hrule
    exact hne (List.mem_singleton.1 hrule)

end ParseBench.Grammar.Parser
