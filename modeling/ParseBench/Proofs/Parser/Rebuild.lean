/-
  ParseBench.Proofs.Parser.Rebuild

  Rebuilding a program from the leaves up. The steps of a tree put one program on
  the stack of programs and leave the tokens held as they were, whatever was there
  before (`Fits.foldlM_rebuildStep`): the tokens of a rule's own terminals are the
  last ones held, since those of its subtrees were placed under the rules below.
  This stays so when only the shifts of some terminals are given, because a terminal
  of the others finds no token among those held (`Given`). So rebuilding undoes
  parsing up to the texts that were left out.
-/

import ParseBench.Grammar.Decode
import ParseBench.Proofs.Parser.Listing

namespace ParseBench.Grammar.Parser

open ParseTree

variable {p : Parser} {K : Nat → Bool}

/-! ## Terminals and their ids -/

/-- A terminal has the id of its place. -/
theorem Lawful.symbolId?_eq (hp : p.Lawful) {id : Nat} {s : Symbol}
    (hid : p.terminals[id]? = some s) : p.symbolId? s = some id := by
  rw [symbolId?_of_not_mem (hp.not_mem_nonterminals (Array.mem_of_getElem? hid))]
  rw [← Array.getElem?_toList] at hid
  exact (idxOf?_eq_some_iff_getElem? hp.nodup_terminals).2 hid

/-- The terminals of a rule have ids. -/
theorem Lawful.exists_terminalId (hp : p.Lawful) {rule : Nat} {r : Rule} {s : Symbol}
    (hr : p.rules[rule]? = some r) (hmem : s ∈ r.rhs) (hs : isNonterminal s = false) :
    ∃ id : Nat, p.terminals[id]? = some s := by
  have hs := hp.mem_terminals r (mem_augment.2 (.inl (mem_rules hr))) s hmem hs
  exact Array.getElem?_of_mem hs

/-! ## Steps with the tokens of some terminals only -/

/-- The steps without the shifts of terminals outside of `K`. -/
def keepShifts (K : Nat → Bool) (steps : List Step) : List Step :=
  steps.filter fun
    | .shift token => K token.terminal
    | .reduce _ => true

/-- The leaf for a token whose text is known for terminals in `K` only. -/
def leafOf (K : Nat → Bool) (token : Token) : Leaf :=
  ⟨token.terminal, if K token.terminal then some token.text else none⟩

/-- The program of a tree, back to front. -/
def program (K : Nat → Bool) (t : ParseTree) : List Leaf :=
  (t.leaves.map (leafOf K)).reverse

@[simp] theorem keepShifts_append (steps more : List Step) :
    keepShifts K (steps ++ more) = keepShifts K steps ++ keepShifts K more :=
  List.filter_append steps more

/-- Without any token the reductions are left. -/
theorem keepShifts_none (steps : List Step) :
    keepShifts (fun _ => false) steps = (reductions steps).map .reduce := by
  induction steps with
  | nil => rfl
  | cons step steps ih =>
      cases step with
      | shift token => exact ih
      | reduce rule => exact congrArg (Step.reduce rule :: ·) ih

/-- The leaves of trees in a row, back to front, are their programs from the last one on. -/
theorem reverse_map_leafOf (trees : List ParseTree) :
    ((forestLeaves trees).map (leafOf K)).reverse = trees.reverse.flatMap (program K) := by
  induction trees with
  | nil => rfl
  | cons t trees ih =>
      rw [forestLeaves, List.map_append, List.reverse_append, ih, List.reverse_cons,
        List.flatMap_append, List.flatMap_singleton, program]

theorem program_node (rule : Nat) (children : List ParseTree) :
    program K (.node rule children) = children.reverse.flatMap (program K) :=
  reverse_map_leafOf children

/-! ## Reductions -/

/-- A rule that renames one non-terminal to another moves nothing. -/
theorem rebuildStep_renaming {state : Rebuild} {rule : Nat} {r : Rule} {a : Symbol}
    (hr : p.rules[rule]? = some r) (ha : r.rhs = [a]) (hnt : isNonterminal a = true) :
    p.rebuildStep state (.reduce rule) = some { state with top := some r.lhs } := by
  simp [rebuildStep, hr, ha, hnt]

/-- Any other rule puts the leaves under its right-hand side together. -/
theorem rebuildStep_joining {state : Rebuild} {rule : Nat} {r : Rule}
    (hr : p.rules[rule]? = some r) (h : ¬ ∃ a, r.rhs = [a] ∧ isNonterminal a = true) :
    p.rebuildStep state (.reduce rule) =
      (p.collect r.rhs.reverse state.held state.forest).map fun c =>
        ⟨c.2.1, c.1 :: c.2.2, some r.lhs⟩ := by
  have hcond : (decide (r.rhs.length = 1) && r.rhs.all isNonterminal) = false := by
    rw [Bool.eq_false_iff]
    intro hrenames
    simp only [Bool.and_eq_true, decide_eq_true_eq, List.all_eq_true] at hrenames
    obtain ⟨a, ha⟩ := List.length_eq_one_iff.1 hrenames.1
    exact h ⟨a, ha, hrenames.2 a (by simp [ha])⟩
  simp only [rebuildStep, hr, hcond, Option.bind_eq_bind, Option.bind_some]
  cases p.collect r.rhs.reverse state.held state.forest with
  | none => rfl
  | some c => rfl

/-! ## A tree on top of a rebuilding -/

/-- The state after the steps of one more tree. -/
def place (p : Parser) (K : Nat → Bool) (state : Rebuild) : ParseTree → Rebuild
  | .leaf token => if K token.terminal then { state with held := token :: state.held } else state
  | .node rule children =>
    { state with
      forest := program K (.node rule children) :: state.forest
      top := p.rootLhs? (.node rule children) }

theorem place_leaf (state : Rebuild) (token : Token) :
    place p K state (.leaf token) =
      if K token.terminal then { state with held := token :: state.held } else state := rfl

/-- Only tokens of terminals in `K` are held. -/
def Given (K : Nat → Bool) (state : Rebuild) : Prop :=
  ∀ token ∈ state.held, K token.terminal = true

theorem Given.place {state : Rebuild} (h : Given K state) (t : ParseTree) :
    Given K (p.place K state t) := by
  cases t with
  | node => exact h
  | leaf token =>
      rw [place_leaf]
      split
      · next hK => exact List.forall_mem_cons.2 ⟨hK, h⟩
      · exact h

theorem Given.foldl_place {state : Rebuild} (h : Given K state) (trees : List ParseTree) :
    Given K (trees.foldl (p.place K) state) := by
  induction trees generalizing state with
  | nil => exact h
  | cons t trees ih => exact ih (h.place t)

theorem takeToken_of_forall_ne {terminal : Nat} {held : List Token}
    (h : ∀ token ∈ held, token.terminal ≠ terminal) :
    takeToken terminal held = (⟨terminal, none⟩, held) := by
  induction held with
  | nil => rfl
  | cons token held ih =>
      obtain ⟨hne, hheld⟩ := List.forall_mem_cons.1 h
      rw [takeToken, if_neg hne, ih hheld]

/-- The token of a leaf is the next one to be taken, if it was given at all. -/
theorem takeToken_place_leaf {state : Rebuild} (h : Given K state) (token : Token) :
    takeToken token.terminal (p.place K state (.leaf token)).held =
      (leafOf K token, state.held) := by
  rw [place_leaf, leafOf]
  split
  · rw [takeToken, if_pos rfl]
  · next hK =>
      refine takeToken_of_forall_ne fun other hother heq => hK ?_
      rw [← heq]
      exact h other hother

/-- Collecting the leaves under a right-hand side takes away what its trees have left. -/
theorem FitsRow.collect_place (hp : p.Lawful) {symbols : List Symbol} {trees : List ParseTree}
    (h : p.FitsRow symbols trees) {state : Rebuild} (hstate : Given K state) :
    p.collect symbols.reverse (trees.foldl (p.place K) state).held
        (trees.foldl (p.place K) state).forest =
      some (trees.reverse.flatMap (program K), state.held, state.forest) := by
  induction symbols using List.reverseRecOn generalizing trees with
  | nil =>
      cases h
      rfl
  | append_singleton symbols s ih =>
      obtain ⟨before, last, rfl, hbefore, hlast⟩ := fitsRow_append h
      obtain ⟨t, rfl, ht⟩ := fitsRow_singleton hlast
      have hgiven := hstate.foldl_place (p := p) before
      rw [List.reverse_concat, List.reverse_concat, List.foldl_concat, List.flatMap_cons]
      cases ht with
      | @leaf token _ hs hid =>
          have hforest : (p.place K (before.foldl (p.place K) state) (.leaf token)).forest =
              (before.foldl (p.place K) state).forest := by
            rw [place_leaf]
            split <;> rfl
          simp only [collect, hs, hp.symbolId?_eq hid, takeToken_place_leaf hgiven, hforest,
            ih hbefore, Option.bind_eq_bind, Option.bind_some, Bool.false_eq_true, if_false]
          rfl
      | @node _ rule r children hs hr hchildren =>
          simp only [collect, hs, if_true, place, ih hbefore, Option.bind_eq_bind,
            Option.bind_some]

mutual

/-- The steps of a tree put its program on top. -/
theorem Fits.foldlM_rebuildStep (hp : p.Lawful) {s : Symbol} {t : ParseTree} (h : p.Fits s t)
    {state : Rebuild} (hstate : Given K state) :
    (keepShifts K t.postorder).foldlM p.rebuildStep state = some (p.place K state t) := by
  cases h with
  | @leaf token _ _ _ =>
      cases hK : K token.terminal with
      | true => simp [keepShifts, postorder, place, hK, rebuildStep]
      | false => simp [keepShifts, postorder, place, hK]
  | @node _ rule r children _ hr h =>
      have hrule : keepShifts K [.reduce rule] = [.reduce rule] := rfl
      rw [postorder, keepShifts_append, hrule, List.foldlM_append, h.foldlM_rebuildStep hp hstate,
        Option.bind_eq_bind, Option.bind_some, List.foldlM_cons]
      by_cases hrenames : ∃ a, r.rhs = [a] ∧ isNonterminal a = true
      · -- the program of the only child is the one of the node
        obtain ⟨a, ha, hnode⟩ := hrenames
        rw [rebuildStep_renaming hr ha hnode]
        rw [ha] at h
        obtain ⟨t, rfl, ht⟩ := fitsRow_singleton h
        cases ht with
        | leaf hs _ =>
            rw [hs] at hnode
            cases hnode
        | node => simp [place, rootLhs?, hr, program_node]
      · rw [rebuildStep_joining hr hrenames, h.collect_place hp hstate]
        simp [place, rootLhs?, hr, program_node]

theorem FitsRow.foldlM_rebuildStep (hp : p.Lawful) {symbols : List Symbol}
    {trees : List ParseTree} (h : p.FitsRow symbols trees) {state : Rebuild}
    (hstate : Given K state) :
    (keepShifts K (forestPostorder trees)).foldlM p.rebuildStep state =
      some (trees.foldl (p.place K) state) := by
  cases h with
  | nil => rfl
  | @cons s t symbols trees ht h =>
      rw [forestPostorder, keepShifts_append, List.foldlM_append,
        ht.foldlM_rebuildStep hp hstate, Option.bind_eq_bind, Option.bind_some,
        h.foldlM_rebuildStep hp (hstate.place t), List.foldl_cons]

end

/-- The steps of a tree under a rule for the start symbol rebuild its leaves. -/
theorem Fits.rebuild_eq (hp : p.Lawful) {s : Symbol} {t : ParseTree} (h : p.Fits s t)
    (hroot : p.rootLhs? t = some p.start) (K : Nat → Bool) :
    p.rebuild (keepShifts K t.postorder) = .ok (t.leaves.map (leafOf K)) := by
  have hnone : Given K ⟨[], [], none⟩ := fun token htoken => absurd htoken List.not_mem_nil
  have hsteps := h.foldlM_rebuildStep hp hnone
  cases h with
  | leaf => cases hroot
  | node =>
      rw [rebuild, hsteps]
      simp only [place, hroot, if_true, program, List.reverse_reverse]

/-- Rebuilding gives the tokens back of which the steps were taken. -/
theorem rebuild_of_parse (hp : p.Lawful) {tokens : List Token} {steps : List Step}
    (h : p.parse tokens = .ok steps) (K : Nat → Bool) :
    p.rebuild (keepShifts K steps) = .ok ((untilEnd tokens).map (leafOf K)) := by
  obtain ⟨t, ht, hleaves, rfl⟩ := exists_tree_untilEnd hp h
  rw [← hleaves]
  exact (ht.fits hp).rebuild_eq hp (ht.rootLhs?_eq_some hp hp.augmentable.start_nonterminal) K

/-- Rebuilding undoes parsing, also when the tokens of some terminals only are given: from
    the steps without the shifts of the others the tokens before the end of the input come
    back in order, with their texts or without. -/
theorem rebuild_parse {g : RuleSet} {start : Symbol} {c : Compiled} (hg : g.WellFormed start)
    (hc : (compile g start).1 = .ok c) {tokens : List Token} {steps : List Step}
    (h : c.parser.parse tokens = .ok steps) (K : Nat → Bool) :
    c.parser.rebuild (keepShifts K steps) = .ok ((untilEnd tokens).map (leafOf K)) :=
  rebuild_of_parse (lawful_of_compile hg hc) h K

theorem rebuild_parse_sums :
    sumsCompiled.parser.parse [⟨3, "1"⟩, ⟨4, "+"⟩, ⟨3, "i"⟩, ⟨endId, ""⟩, ⟨4, "+"⟩] =
        .ok [.shift ⟨3, "1"⟩, .reduce 2, .reduce 1, .shift ⟨4, "+"⟩, .shift ⟨3, "i"⟩, .reduce 2,
          .reduce 0] ∧
      sumsCompiled.parser.rebuild [.shift ⟨3, "1"⟩, .reduce 2, .reduce 1, .shift ⟨3, "i"⟩,
          .reduce 2, .reduce 0] =
        .ok [⟨3, some "1"⟩, ⟨4, none⟩, ⟨3, some "i"⟩] := by
  have hparse : sumsCompiled.parser.parse
      [⟨3, "1"⟩, ⟨4, "+"⟩, ⟨3, "i"⟩, ⟨endId, ""⟩, ⟨4, "+"⟩] =
        .ok [.shift ⟨3, "1"⟩, .reduce 2, .reduce 1, .shift ⟨4, "+"⟩, .shift ⟨3, "i"⟩, .reduce 2,
          .reduce 0] := eq_ok_of_toOption (by decide +kernel)
  exact ⟨hparse, rebuild_parse sums_wellFormed compile_sums hparse (· == 3)⟩

/-- What comes after the end of the input is not part of the steps and does not come back. -/
theorem rebuild_parse_after_end :
    sums.WellFormed "$Sum" ∧ (compile sums "$Sum").1 = .ok sumsCompiled ∧
      sumsCompiled.parser.parse [⟨3, "i"⟩, ⟨endId, ""⟩] =
        .ok [.shift ⟨3, "i"⟩, .reduce 2, .reduce 1] ∧
      sumsCompiled.parser.rebuild
          (keepShifts (fun _ => true) [.shift ⟨3, "i"⟩, .reduce 2, .reduce 1]) ≠
        .ok ([⟨3, "i"⟩, ⟨endId, ""⟩].map (leafOf fun _ => true)) := by
  refine ⟨sums_wellFormed, compile_sums, eq_ok_of_toOption (by decide +kernel), ?_⟩
  intro h
  have hleaves : sumsCompiled.parser.rebuild
      (keepShifts (fun _ => true) [.shift ⟨3, "i"⟩, .reduce 2, .reduce 1]) =
        .ok [⟨3, some "i"⟩] := eq_ok_of_toOption (by decide +kernel)
  rw [hleaves] at h
  cases h

end ParseBench.Grammar.Parser
