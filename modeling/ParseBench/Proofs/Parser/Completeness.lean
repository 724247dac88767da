/-
  ParseBench.Proofs.Parser.Completeness

  The parser follows every parse tree. Started on the leaves of a tree in a state
  with the tree's symbol at a dot, it takes the steps of the post-order and ends
  with the symbol pushed (`IsTree.reaches`, `IsForest.reaches`). That each complete
  rule is applied there is due to the FOLLOW sets: the token after the tree can
  come after the dot is moved over the symbol (`Awaits`), so it follows the symbol.
  Hence the parser accepts every tree of the start symbol with its post-order, and
  since the post-order determines the tree, no token list has two.
-/

import ParseBench.Proofs.Parser.Termination
import ParseBench.Proofs.Parser.Tree

namespace ParseBench.Grammar

open Relation (ReflTransGen)

/-! ## Terminals at a dot -/

/-- The terminal can come at the dot: it begins the symbol there, or it follows the
    left-hand side of the complete rule. -/
inductive Comes (rules : List Rule) : Item → Symbol → Prop
  | begins {i : Item} {s t : Symbol} (hnext : nextSymbol? rules i = some s)
      (h : Begins rules s t) : Comes rules i t
  | follows {i : Item} {r : Rule} {t : Symbol} (hr : rules[i.rule]? = some r)
      (hdot : i.dot = r.rhs.length) (h : Follows rules r.lhs t) : Comes rules i t

/-- What comes after a non-terminal follows it. -/
theorem Comes.follows_symbol {rules : List Rule} {i : Item} {s t : Symbol}
    (hnext : nextSymbol? rules i = some s) (hs : isNonterminal s = true)
    (h : Comes rules ⟨i.rule, i.dot + 1⟩ t) : Follows rules s t := by
  obtain ⟨r, hr, hdot⟩ := nextSymbol?_eq_some.1 hnext
  have hmem := List.mem_of_getElem? hr
  obtain ⟨hlt, rfl⟩ := List.getElem?_eq_some_iff.1 hdot
  cases h with
  | begins hnext' hbegins =>
      obtain ⟨r', hr', hdot'⟩ := nextSymbol?_eq_some.1 hnext'
      cases hr.symm.trans hr'
      obtain ⟨hlt', rfl⟩ := List.getElem?_eq_some_iff.1 hdot'
      have hrhs : r.rhs =
          r.rhs.take i.dot ++ r.rhs[i.dot] :: r.rhs[i.dot + 1] :: r.rhs.drop (i.dot + 2) := by
        rw [← List.drop_eq_getElem_cons hlt', ← List.drop_eq_getElem_cons hlt,
          List.take_append_drop]
      exact .inner hmem hs hrhs hbegins
  | follows hr' hlast hfollows =>
      cases hr.symm.trans hr'
      refine .last hmem hs ?_ hfollows
      have hlen : r.rhs.length - 1 = i.dot := by
        simp only at hlast
        omega
      rw [List.getLast?_eq_getElem?, hlen, hdot]

namespace Parser

open ParseTree

variable {p : Parser}

/-- The next token can come at the dot. -/
def Awaits (p : Parser) (i : Item) (input : List Token) : Prop :=
  ∃ t, p.terminals[(nextToken input).terminal]? = some t ∧ Comes p.augmented i t

mutual

/-- The first token of a tree is a terminal that its symbol begins with. -/
theorem IsTree.exists_begins (hp : p.Lawful) {s : Symbol} {t : ParseTree} (h : p.IsTree s t)
    (rest : List Token) :
    ∃ a, p.terminals[(nextToken (t.leaves ++ rest)).terminal]? = some a ∧
      Begins p.augmented s a := by
  cases h with
  | @leaf token s hs => exact ⟨s, hs, .terminal (hp.isTerminal _ _ hs)⟩
  | @node rule r children hr h =>
      have hmem := mem_rules hr
      have hne := hp.augmentable.rhs_ne_nil r hmem
      have hlhs := hp.augmentable.lhs_nonterminal r hmem
      obtain ⟨s, a, hhead, ha, hbegins⟩ := h.exists_begins hp hne rest
      exact ⟨a, ha, .rule (mem_augment.2 (.inl hmem)) hlhs hhead hbegins⟩

theorem IsForest.exists_begins (hp : p.Lawful) {symbols : List Symbol} {trees : List ParseTree}
    (h : p.IsForest symbols trees) (hne : symbols ≠ []) (rest : List Token) :
    ∃ s a, symbols.head? = some s ∧
      p.terminals[(nextToken (forestLeaves trees ++ rest)).terminal]? = some a ∧
      Begins p.augmented s a := by
  cases h with
  | nil => exact absurd rfl hne
  | @cons s t symbols trees ht _ =>
      obtain ⟨a, ha, hbegins⟩ := ht.exists_begins hp (forestLeaves trees ++ rest)
      rw [← List.append_assoc] at ha
      exact ⟨s, a, rfl, ha, hbegins⟩

end

/-- What can come after a forest has its first token come before it. -/
theorem IsForest.awaits (hp : p.Lawful) {id dot : Nat} {r : Rule} {symbols more : List Symbol}
    {trees : List ParseTree} {rest : List Token} (h : p.IsForest symbols trees)
    (hr : p.augmented[id]? = some r) (hdot : r.rhs.drop dot = symbols ++ more)
    (hawaits : p.Awaits ⟨id, dot + symbols.length⟩ rest) :
    p.Awaits ⟨id, dot⟩ (forestLeaves trees ++ rest) := by
  by_cases hne : symbols = []
  · subst hne
    cases h
    exact hawaits
  · obtain ⟨s, a, hhead, ha, hbegins⟩ := h.exists_begins hp hne rest
    refine ⟨a, ha, .begins (nextSymbol?_eq_some.2 ⟨r, hr, ?_⟩) hbegins⟩
    have hget : (r.rhs.drop dot)[0]? = some s := by
      rw [hdot, ← List.head?_eq_getElem?, List.head?_append, hhead]
      rfl
    rwa [List.getElem?_drop] at hget

/-! ## Turns of the machine -/

theorem moves_shift (hp : p.Lawful) {q q' : Nat} {below : List Nat} {taken : List Step}
    {token : Token} {rest : List Token} {s : Symbol}
    (hs : p.terminals[token.terminal]? = some s) (hleads : Leads p.augmented q s q') :
    p.Moves ⟨q :: below, taken, token :: rest⟩ ⟨q' :: q :: below, .shift token :: taken, rest⟩ := by
  exact moves_iff.2 (.inl ⟨q', hp.action_of_asks hs (.shift hleads), rfl⟩)

theorem moves_reduce (hp : p.Lawful) {q q' : Nat} {pushed below : List Nat} {taken : List Step}
    {input : List Token} {rule : Nat} {r : Rule} (hr : p.rules[rule]? = some r)
    (hlen : pushed.length = r.rhs.length)
    (hi : Holds p.augmented ((pushed ++ q :: below).headD 0) ⟨rule, r.rhs.length⟩)
    {a : Symbol} (ha : p.terminals[(nextToken input).terminal]? = some a)
    (hfollows : Follows p.augmented r.lhs a) (hleads : Leads p.augmented q r.lhs q') :
    p.Moves ⟨pushed ++ q :: below, taken, input⟩
      ⟨q' :: q :: below, .reduce rule :: taken, input⟩ := by
  have hnt := hp.augmentable.lhs_nonterminal r (mem_rules hr)
  have haction := hp.action_of_asks ha (.reduce (augmented_of_getElem? hr) hi hfollows)
  have hgoto := (hp.goto?_iff q r.lhs q' hnt).2 hleads
  have hdrop : (pushed ++ q :: below).drop r.rhs.length = q :: below := List.drop_left' hlen
  refine moves_iff.2 (.inr ⟨rule, r, q', haction, hr, ?_, ?_⟩)
  · rw [hdrop]
    exact hgoto
  · rw [hdrop]

/-! ## The run over a tree -/

mutual

/-- In a state with the symbol of a tree at a dot the machine takes the steps of the tree. -/
theorem IsTree.reaches (hp : p.Lawful) {s : Symbol} {t : ParseTree} (h : p.IsTree s t) {q : Nat}
    {i : Item} (hi : Holds p.augmented q i) (hnext : nextSymbol? p.augmented i = some s)
    (hs : s ≠ endToken) {rest : List Token} (hawaits : p.Awaits ⟨i.rule, i.dot + 1⟩ rest)
    (below : List Nat) (taken : List Step) :
    ∃ q', Leads p.augmented q s q' ∧ p.Reaches ⟨q :: below, taken, t.leaves ++ rest⟩
      ⟨q' :: q :: below, t.postorder.reverse ++ taken, rest⟩ := by
  obtain ⟨q', hleads⟩ := hi.exists_leads hnext hs
  refine ⟨q', hleads, ?_⟩
  cases h with
  | leaf hs => exact .single (moves_shift hp hs hleads)
  | @node rule r children hr h =>
      have hmem := mem_rules hr
      have hnt := hp.augmentable.lhs_nonterminal r hmem
      have haug := augmented_of_getElem? hr
      have hinitial := holds_initial haug hi hnt hnext
      obtain ⟨a, ha, hcomes⟩ := hawaits
      have hfollows := hcomes.follows_symbol hnext hnt
      have hcomplete : p.Awaits ⟨rule, 0 + r.rhs.length⟩ rest := by
        rw [Nat.zero_add]
        exact ⟨a, ha, .follows haug rfl hfollows⟩
      have hdot : r.rhs.drop 0 = r.rhs ++ [] := by rw [List.drop_zero, List.append_nil]
      obtain ⟨pushed, hlen, hholds, hreach⟩ := h.reaches hp haug hdot
        (fun s hs heq => hp.augmentable.end_not_mem r hmem (heq ▸ hs)) hinitial hcomplete below
        taken
      rw [Nat.zero_add] at hholds
      rw [postorder, List.reverse_append]
      exact hreach.tail (moves_reduce hp hr hlen hholds ha hfollows hleads)

/-- In a state with the symbols of a forest after a dot the machine takes the steps of the
    forest and pushes a state for each symbol. -/
theorem IsForest.reaches (hp : p.Lawful) {symbols more : List Symbol} {trees : List ParseTree}
    (h : p.IsForest symbols trees) {q id dot : Nat} {r : Rule} (hr : p.augmented[id]? = some r)
    (hdot : r.rhs.drop dot = symbols ++ more) (hend : ∀ s ∈ symbols, s ≠ endToken)
    (hi : Holds p.augmented q ⟨id, dot⟩) {rest : List Token}
    (hawaits : p.Awaits ⟨id, dot + symbols.length⟩ rest) (below : List Nat) (taken : List Step) :
    ∃ pushed : List Nat, pushed.length = symbols.length ∧
      Holds p.augmented ((pushed ++ q :: below).headD 0) ⟨id, dot + symbols.length⟩ ∧
      p.Reaches ⟨q :: below, taken, forestLeaves trees ++ rest⟩
        ⟨pushed ++ q :: below, (forestPostorder trees).reverse ++ taken, rest⟩ := by
  cases h with
  | nil => exact ⟨[], rfl, hi, .refl⟩
  | @cons s t symbols trees ht h =>
      have hsym : r.rhs[dot]? = some s := by
        have hget : (r.rhs.drop dot)[0]? = some s := by rw [hdot]; rfl
        rwa [List.getElem?_drop] at hget
      have hnext : nextSymbol? p.augmented ⟨id, dot⟩ = some s :=
        nextSymbol?_eq_some.2 ⟨r, hr, hsym⟩
      have hdot' : r.rhs.drop (dot + 1) = symbols ++ more := by
        rw [← List.drop_drop, hdot]
        rfl
      rw [List.length_cons, Nat.add_comm symbols.length, ← Nat.add_assoc] at hawaits
      -- first the run over the first tree, then that over the others
      obtain ⟨q', hleads, hfirst⟩ := ht.reaches hp hi hnext (hend s List.mem_cons_self)
        (h.awaits hp hr hdot' hawaits) below taken
      obtain ⟨pushed, hlen, hholds, hrest⟩ := h.reaches hp hr hdot'
        (fun s' hs' => hend s' (List.mem_cons_of_mem s hs')) (hleads.holds_succ hi hnext) hawaits
        (q :: below) (t.postorder.reverse ++ taken)
      refine ⟨pushed ++ [q'], by simp [hlen], ?_, ?_⟩
      · rw [List.length_cons, Nat.add_comm symbols.length, ← Nat.add_assoc, List.append_assoc]
        exact hholds
      · rw [forestLeaves, forestPostorder, List.append_assoc, List.append_assoc,
          List.reverse_append, List.append_assoc]
        exact hfirst.trans hrest

end

/-! ## Acceptance -/

/-- The machine accepts the leaves of a tree of the start symbol. -/
theorem IsTree.exists_accepted (hp : p.Lawful) {t : ParseTree} (h : p.IsTree p.start t) :
    ∃ c, p.Reaches (init t.leaves) c ∧ p.turn c = .done (.ok t.postorder) := by
  have hroot : Holds p.augmented 0 ⟨p.rules.size, 0⟩ := holds_zero_of_root augmented_root rfl
  have hstart : nextSymbol? p.augmented ⟨p.rules.size, 0⟩ = some p.start :=
    nextSymbol?_eq_some.2 ⟨_, augmented_root, rfl⟩
  have hend : nextSymbol? p.augmented ⟨p.rules.size, 1⟩ = some endToken :=
    nextSymbol?_eq_some.2 ⟨_, augmented_root, rfl⟩
  have hne := ne_endToken hp.augmentable.start_nonterminal
  have hawaits : p.Awaits ⟨p.rules.size, 0 + 1⟩ [] :=
    ⟨endToken, hp.getElem?_endId, .begins hend (.terminal isNonterminal_endToken)⟩
  obtain ⟨q, hleads, hreach⟩ := h.reaches hp hroot hstart hne hawaits [] []
  have haction : p.action q endId = .accept :=
    hp.action_of_asks hp.getElem?_endId (.accept rfl (hleads.holds_succ hroot hstart) hend)
  rw [List.append_nil, List.append_nil] at hreach
  refine ⟨_, hreach, ?_⟩
  simp [turn, nextToken, haction]

/-- The parser turns the leaves of every tree of the start symbol into its post-order. -/
theorem parse_leaves (hp : p.Lawful) {t : ParseTree} (h : p.IsTree p.start t) :
    p.parse t.leaves = .ok t.postorder :=
  (parse_eq_iff hp).2 (h.exists_accepted hp)

/-- Trees of the start symbol with the same terminals at their leaves differ in the texts
    of their tokens only. -/
theorem bare_eq_of_leaves_eq (hp : p.Lawful) {t u : ParseTree} (ht : p.IsTree p.start t)
    (hu : p.IsTree p.start u) (h : t.leaves.map Token.terminal = u.leaves.map Token.terminal) :
    t.bare = u.bare := by
  have hleaves : t.bare.leaves = u.bare.leaves := by
    have hmap := congrArg (List.map fun id => (⟨id, ""⟩ : Token)) h
    rw [List.map_map, List.map_map] at hmap
    rw [leaves_bare, leaves_bare]
    exact hmap
  have hpostorder : t.bare.postorder = u.bare.postorder := by
    have hparse := parse_leaves hp ht.isTree_bare
    rw [hleaves, parse_leaves hp hu.isTree_bare] at hparse
    exact (Except.ok.inj hparse).symm
  exact postorder_injective ht.isTree_bare hu.isTree_bare hpostorder

/-- The parser of a compiled grammar accepts the leaves of every parse tree with the
    post-order of the tree, whatever the texts of the tokens; and no sequence of terminals
    has two parse trees. -/
theorem parse_complete {g : RuleSet} {start : Symbol} {c : Compiled} (hg : g.WellFormed start)
    (hc : (compile g start).1 = .ok c) :
    (∀ t, c.parser.IsTree start t → c.parser.parse t.leaves = .ok t.postorder) ∧
      ∀ t u, c.parser.IsTree start t → c.parser.IsTree start u →
        t.leaves.map Token.terminal = u.leaves.map Token.terminal → t.bare = u.bare := by
  have hp := lawful_of_compile hg hc
  rw [← parser_start hc]
  exact ⟨fun t ht => parse_leaves hp ht, fun t u ht hu h => bare_eq_of_leaves_eq hp ht hu h⟩

/-- The tree of a sum of two numbers. -/
def sumTree (left plus right : String) : ParseTree :=
  .node 0 [.node 1 [.node 2 [.leaf ⟨3, left⟩]], .leaf ⟨4, plus⟩, .node 2 [.leaf ⟨3, right⟩]]

theorem isTree_sumTree (left plus right : String) :
    sumsCompiled.parser.IsTree "$Sum" (sumTree left plus right) := by
  have hone : sumsCompiled.parser.terminals[3]? = some "one" := by decide +kernel
  have hplus : sumsCompiled.parser.terminals[4]? = some "plus" := by decide +kernel
  have hadd : sumsCompiled.parser.rules[0]? = some ⟨"$Sum", ["$Sum", "plus", "$Num"]⟩ := by
    decide +kernel
  have hsum : sumsCompiled.parser.rules[1]? = some ⟨"$Sum", ["$Num"]⟩ := by decide +kernel
  have hnum : sumsCompiled.parser.rules[2]? = some ⟨"$Num", ["one"]⟩ := by decide +kernel
  have hnumber : ∀ text, sumsCompiled.parser.IsTree "$Num" (.node 2 [.leaf ⟨3, text⟩]) :=
    fun _ => .node hnum (.cons (.leaf hone) .nil)
  exact .node hadd (.cons (.node hsum (.cons (hnumber left) .nil))
    (.cons (.leaf hplus) (.cons (hnumber right) .nil)))

theorem parse_complete_sums :
    sumsCompiled.parser.IsTree "$Sum" (sumTree "i" "+" "1") ∧
      sumsCompiled.parser.parse [⟨3, "i"⟩, ⟨4, "+"⟩, ⟨3, "1"⟩] =
        .ok [.shift ⟨3, "i"⟩, .reduce 2, .reduce 1, .shift ⟨4, "+"⟩, .shift ⟨3, "1"⟩, .reduce 2,
          .reduce 0] ∧
      ∀ t, sumsCompiled.parser.IsTree "$Sum" t → t.leaves.map Token.terminal = [3, 4, 3] →
        t.bare = (sumTree "i" "+" "1").bare := by
  have htree := isTree_sumTree "i" "+" "1"
  obtain ⟨hparse, hunique⟩ := parse_complete sums_wellFormed compile_sums
  exact ⟨htree, hparse _ htree, fun t ht hleaves => hunique t _ ht htree hleaves⟩

end Parser

end ParseBench.Grammar
