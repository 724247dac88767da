/-
  ParseBench.Proofs.Parser.Soundness

  What the parser has recognised so far is a row of parse trees, one for each
  symbol on its stack; their leaves are the tokens it has read and their
  post-orders the steps it has taken (`Built`). Every turn keeps this up, and a
  configuration that accepts has one tree of the start symbol, so the steps of an
  accepted token list are the post-order of a parse tree of that list. A token with
  the id of the end of the input ends the list: it is no leaf of any tree, and what
  follows it is not read (`untilEnd`).
-/

import ParseBench.Proofs.Parser.Machine
import ParseBench.Proofs.Parser.Tree

namespace ParseBench.Grammar.Parser

open ParseTree

variable {p : Parser} {tokens : List Token}

/-- The trees stand for the symbols on the stack; their leaves are what was read of the
    tokens and their post-orders the steps taken. -/
structure Built (p : Parser) (tokens : List Token) (symbols : List Symbol) (trees : List ParseTree)
    (c : Config) : Prop where
  path : Path p.augmented c.stack symbols
  forest : p.IsForest symbols.reverse trees
  postorder : forestPostorder trees = c.taken.reverse
  leaves : forestLeaves trees ++ c.input = tokens

theorem built_init : Built p tokens [] [] (init tokens) :=
  ⟨.nil, .nil, rfl, rfl⟩

namespace Built

variable {symbols : List Symbol} {trees : List ParseTree} {c d : Config}

theorem move (hp : p.Lawful) (h : Built p tokens symbols trees c) (hmove : p.Moves c d) :
    ∃ symbols' trees', Built p tokens symbols' trees' d := by
  cases hp.turned_of_moves h.path hmove with
  | @shifted token input s q hinput hs hpath =>
      have hleaves := h.leaves
      refine ⟨s :: symbols, trees ++ [.leaf token], hpath, ?_, ?_, ?_⟩
      · rw [List.reverse_cons]
        exact h.forest.append (.cons (.leaf hs) .nil)
      · rw [forestPostorder_append, h.postorder, List.reverse_cons, forestPostorder_singleton]
        rfl
      · rw [forestLeaves_append, forestLeaves_singleton, List.append_assoc, ← hleaves, hinput]
        rfl
  | @reduced rule r s q symbols₀ hr _ _ hsymbols hpath =>
      -- the trees of the right-hand side are the last ones
      have hforest := h.forest
      rw [hsymbols, List.reverse_append, List.reverse_reverse] at hforest
      obtain ⟨before, children, rfl, hbefore, hchildren⟩ := isForest_append hforest
      have hpostorder := h.postorder
      have hleaves := h.leaves
      refine ⟨r.lhs :: symbols₀, before ++ [.node rule children], hpath, ?_, ?_, ?_⟩
      · rw [List.reverse_cons]
        exact hbefore.append (.cons (.node hr hchildren) .nil)
      · rw [forestPostorder_append] at hpostorder
        rw [forestPostorder_append, forestPostorder_singleton, ParseTree.postorder,
          ← List.append_assoc, hpostorder, List.reverse_cons]
      · rw [forestLeaves_append] at hleaves
        rw [forestLeaves_append, forestLeaves_singleton, ParseTree.leaves]
        exact hleaves

/-- An accepting configuration has one tree of the start symbol. -/
theorem accepted (hp : p.Lawful) (h : Built p tokens symbols trees c) {steps : List Step}
    (hdone : p.turn c = .done (.ok steps)) :
    ∃ t, p.IsTree p.start t ∧ t.leaves ++ c.input = tokens ∧ t.postorder = steps ∧
      (nextToken c.input).terminal = endId := by
  have hturn := hp.turn_spec h.path
  rw [hdone] at hturn
  cases hturn with
  | accepted _ hend hsymbols =>
      have hforest := h.forest
      have hpostorder := h.postorder
      have hleaves := h.leaves
      rw [hsymbols] at hforest
      obtain ⟨t, rfl, ht⟩ := isForest_singleton hforest
      rw [forestPostorder_singleton] at hpostorder
      rw [forestLeaves_singleton] at hleaves
      exact ⟨t, ht, hleaves, hpostorder, hp.eq_endId hend⟩

end Built

theorem Reaches.exists_built (hp : p.Lawful) {c : Config} (h : p.Reaches (init tokens) c) :
    ∃ symbols trees, Built p tokens symbols trees c := by
  induction h with
  | refl => exact ⟨[], [], built_init⟩
  | tail _ hmove ih =>
      obtain ⟨symbols, trees, hbuilt⟩ := ih
      exact hbuilt.move hp hmove

theorem exists_reaches_of_parse_ok {steps : List Step} (h : p.parse tokens = .ok steps) :
    ∃ c, p.Reaches (init tokens) c ∧ p.turn c = .done (.ok steps) := by
  unfold parse at h
  cases hrun : p.run (p.turnBound tokens.length) (init tokens) with
  | none =>
      rw [hrun] at h
      cases h
  | some result =>
      rw [hrun, Option.getD_some] at h
      rw [h] at hrun
      exact run_eq_some_iff.1 ⟨_, hrun⟩

/-! ## The end of the input among the tokens -/

/-- The tokens before the first one that reads as the end of the input. -/
def untilEnd (tokens : List Token) : List Token :=
  tokens.takeWhile fun token => token.terminal != endId

theorem untilEnd_append {read rest : List Token} (hread : ∀ token ∈ read, token.terminal ≠ endId)
    (hrest : (nextToken rest).terminal = endId) : untilEnd (read ++ rest) = read := by
  unfold untilEnd
  rw [List.takeWhile_append_of_pos fun token htoken => bne_iff_ne.2 (hread token htoken)]
  cases rest with
  | nil => rw [List.takeWhile_nil, List.append_nil]
  | cons token rest =>
      rw [List.takeWhile_cons_of_neg (by simpa [nextToken] using hrest), List.append_nil]

/-- When no token reads as the end of the input, the whole list is before it. -/
theorem untilEnd_eq_self (hend : ∀ token ∈ tokens, token.terminal ≠ endId) :
    untilEnd tokens = tokens := by
  have hnext : (nextToken []).terminal = endId := rfl
  have huntil := untilEnd_append hend hnext
  rwa [List.append_nil] at huntil

mutual

/-- No leaf of a tree reads as the end of the input. -/
theorem IsTree.ne_endId (hp : p.Lawful) {s : Symbol} {t : ParseTree} (h : p.IsTree s t)
    (hs : s ≠ endToken) : ∀ token ∈ t.leaves, token.terminal ≠ endId := by
  cases h with
  | leaf ht =>
      intro token htoken hend
      rw [ParseTree.leaves, List.mem_singleton] at htoken
      rw [htoken] at hend
      rw [hend, hp.getElem?_endId] at ht
      exact hs (Option.some.inj ht).symm
  | node hr h =>
      exact h.ne_endId hp fun s hs heq => hp.augmentable.end_not_mem _ (mem_rules hr) (heq ▸ hs)

theorem IsForest.ne_endId (hp : p.Lawful) {symbols : List Symbol} {trees : List ParseTree}
    (h : p.IsForest symbols trees) (hs : ∀ s ∈ symbols, s ≠ endToken) :
    ∀ token ∈ forestLeaves trees, token.terminal ≠ endId := by
  cases h with
  | nil => exact fun token htoken => absurd htoken List.not_mem_nil
  | cons ht h =>
      rw [List.forall_mem_cons] at hs
      intro token htoken
      rcases List.mem_append.1 htoken with htoken | htoken
      · exact ht.ne_endId hp hs.1 token htoken
      · exact h.ne_endId hp hs.2 token htoken

end

/-- The steps of an accepted token list are the post-order of a parse tree of what comes
    before the end of the input. -/
theorem exists_tree_untilEnd (hp : p.Lawful) {steps : List Step} (h : p.parse tokens = .ok steps) :
    ∃ t, p.IsTree p.start t ∧ t.leaves = untilEnd tokens ∧ t.postorder = steps := by
  obtain ⟨c, hreach, hdone⟩ := exists_reaches_of_parse_ok h
  obtain ⟨symbols, trees, hbuilt⟩ := hreach.exists_built hp
  obtain ⟨t, ht, hleaves, hpostorder, hnext⟩ := hbuilt.accepted hp hdone
  have hread := ht.ne_endId hp (ne_endToken hp.augmentable.start_nonterminal)
  exact ⟨t, ht, by rw [← hleaves, untilEnd_append hread hnext], hpostorder⟩

theorem exists_tree_of_parse_ok (hp : p.Lawful) (hend : ∀ token ∈ tokens, token.terminal ≠ endId)
    {steps : List Step} (h : p.parse tokens = .ok steps) :
    ∃ t, p.IsTree p.start t ∧ t.leaves = tokens ∧ t.postorder = steps := by
  have htree := exists_tree_untilEnd hp h
  rwa [untilEnd_eq_self hend] at htree

/-- The steps of an accepted token list are the post-order of a parse tree of the whole
    list. -/
theorem parse_sound {g : RuleSet} {start : Symbol} {c : Compiled} (hg : g.WellFormed start)
    (hc : (compile g start).1 = .ok c) (hend : ∀ token ∈ tokens, token.terminal ≠ endId)
    {steps : List Step} (h : c.parser.parse tokens = .ok steps) :
    ∃ t, c.parser.IsTree start t ∧ t.leaves = tokens ∧ t.postorder = steps := by
  rw [← parser_start hc]
  exact exists_tree_of_parse_ok (lawful_of_compile hg hc) hend h

theorem parse_sound_sums :
    sumsCompiled.parser.parse [⟨3, "1"⟩, ⟨4, "+"⟩, ⟨3, "i"⟩] =
        .ok [.shift ⟨3, "1"⟩, .reduce 2, .reduce 1, .shift ⟨4, "+"⟩, .shift ⟨3, "i"⟩, .reduce 2,
          .reduce 0] ∧
      ∃ t, sumsCompiled.parser.IsTree "$Sum" t ∧
        t.leaves = [⟨3, "1"⟩, ⟨4, "+"⟩, ⟨3, "i"⟩] ∧
        t.postorder = [.shift ⟨3, "1"⟩, .reduce 2, .reduce 1, .shift ⟨4, "+"⟩, .shift ⟨3, "i"⟩,
          .reduce 2, .reduce 0] := by
  have hparse : sumsCompiled.parser.parse [⟨3, "1"⟩, ⟨4, "+"⟩, ⟨3, "i"⟩] =
      .ok [.shift ⟨3, "1"⟩, .reduce 2, .reduce 1, .shift ⟨4, "+"⟩, .shift ⟨3, "i"⟩, .reduce 2,
        .reduce 0] := eq_ok_of_toOption (by decide +kernel)
  exact ⟨hparse, parse_sound sums_wellFormed compile_sums (by decide) hparse⟩

end ParseBench.Grammar.Parser
