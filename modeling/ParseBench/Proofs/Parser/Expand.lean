/-
  ParseBench.Proofs.Parser.Expand

  Decoding a listing from the root down. What is pending in front of the leftmost
  non-terminal comes out first, and the listing of a tree for the symbol at the
  front is used up before the others come to be expanded (`Fits.expand`). In the
  other direction an expansion that ends has read the listings of trees for all
  pending symbols, with their terminals in order (`exists_row_of_expand`). From
  both it follows that no listing begins another one (`preorder_eq_of_begins`).
-/

import ParseBench.Proofs.Parser.Rebuild
import ParseBench.Proofs.Parser.Viable

namespace ParseBench.Grammar.Parser

open ParseTree

variable {p : Parser}

/-! ## The symbol at the front -/

@[simp] theorem expand_nil (rules : List Nat) : p.expand rules [] = some ([], rules) := by
  cases rules with
  | nil => rfl
  | cons => rfl

/-- A terminal at the front comes out. -/
theorem expand_terminal {s : Symbol} (hs : isNonterminal s = false) (rules : List Nat)
    (after : List Symbol) :
    p.expand rules (s :: after) = (p.expand rules after).map fun e => (s :: e.1, e.2) := by
  cases rules with
  | nil =>
      unfold expand
      rw [List.any_cons, hs, Bool.false_or]
      split <;> rfl
  | cons rule rules =>
      unfold expand
      rw [List.dropWhile_cons_of_pos (by rw [hs]; rfl),
        List.takeWhile_cons_of_pos (by rw [hs]; rfl)]
      split
      · rfl
      · next s' after' hdrop =>
          cases p.rules[rule]? with
          | none => rfl
          | some r =>
              simp only [Option.bind_eq_bind, Option.bind_some]
              cases p.expand rules (r.rhs ++ after') with
              | none => rfl
              | some e => rfl

/-- A non-terminal at the front needs a rule. -/
theorem expand_nonterminal {s : Symbol} (hs : isNonterminal s = true) (rule : Nat)
    (rules : List Nat) (after : List Symbol) :
    p.expand (rule :: rules) (s :: after) =
      (p.rules[rule]?).bind fun r => p.expand rules (r.rhs ++ after) := by
  simp [expand, hs]

theorem expand_nil_nonterminal {s : Symbol} (hs : isNonterminal s = true) (after : List Symbol) :
    p.expand [] (s :: after) = none := by
  rw [expand, List.any_cons, hs, Bool.true_or, if_pos rfl]

/-! ## Trees and their listings -/

/-- The names of the tokens' terminals. -/
def names (p : Parser) (tokens : List Token) : List Symbol :=
  tokens.map fun token => p.terminalName token.terminal

theorem names_append (tokens more : List Token) :
    p.names (tokens ++ more) = p.names tokens ++ p.names more :=
  List.map_append

mutual

/-- The listing of a tree for the symbol at the front is read to its end, and its terminals
    come out. -/
theorem Fits.expand {s : Symbol} {t : ParseTree} (h : p.Fits s t) (rest : List Nat)
    (after : List Symbol) :
    p.expand (t.preorder ++ rest) (s :: after) =
      (p.expand rest after).map fun e => (p.names t.leaves ++ e.1, e.2) := by
  cases h with
  | leaf hs ht =>
      rw [preorder, List.nil_append, expand_terminal hs]
      simp [names, leaves, terminalName, ht]
  | node hs hr h =>
      rw [preorder, List.cons_append, expand_nonterminal hs, hr, Option.bind_some, h.expand]
      rfl

theorem FitsRow.expand {symbols : List Symbol} {trees : List ParseTree}
    (h : p.FitsRow symbols trees) (rest : List Nat) (after : List Symbol) :
    p.expand (forestPreorder trees ++ rest) (symbols ++ after) =
      (p.expand rest after).map fun e => (p.names (forestLeaves trees) ++ e.1, e.2) := by
  cases h with
  | nil =>
      rw [forestPreorder, List.nil_append, List.nil_append]
      simp [names, forestLeaves]
  | cons ht h =>
      rw [forestPreorder, List.append_assoc, List.cons_append, ht.expand, h.expand, Option.map_map,
        forestLeaves, names_append]
      simp only [Function.comp_def, List.append_assoc]

end

/-- An expansion that ends has read the listings of trees for the pending symbols. A
    terminal at the front leaves the rules as they are, and a rule brings new symbols to the
    front, so the rules count first. -/
theorem exists_row_of_expand (hp : p.Lawful) {rules unread : List Nat}
    {pending terminals : List Symbol}
    (hids : ∀ s ∈ pending, isNonterminal s = false → ∃ id : Nat, p.terminals[id]? = some s)
    (h : p.expand rules pending = some (terminals, unread)) :
    ∃ row, p.FitsRow pending row ∧ rules = forestPreorder row ++ unread ∧
      terminals = p.names (forestLeaves row) := by
  match pending with
  | [] =>
      rw [expand_nil] at h
      cases h
      exact ⟨[], .nil, rfl, rfl⟩
  | s :: after =>
      obtain ⟨hid, hids⟩ := List.forall_mem_cons.1 hids
      cases hs : isNonterminal s with
      | false =>
          rw [expand_terminal hs] at h
          obtain ⟨⟨terminals', unread'⟩, hafter, heq⟩ := Option.map_eq_some_iff.1 h
          cases heq
          obtain ⟨id, hid⟩ := hid hs
          obtain ⟨row, hrow, hrules, rfl⟩ := exists_row_of_expand hp hids hafter
          refine ⟨.leaf ⟨id, ""⟩ :: row, .cons (.leaf hs hid) hrow, hrules, ?_⟩
          simp [names, forestLeaves, leaves, terminalName, hid]
      | true =>
          match rules with
          | [] =>
              rw [expand_nil_nonterminal hs] at h
              cases h
          | rule :: rules =>
              rw [expand_nonterminal hs] at h
              obtain ⟨r, hr, hexpand⟩ := Option.bind_eq_some_iff.1 h
              have hids' : ∀ s ∈ r.rhs ++ after, isNonterminal s = false →
                  ∃ id : Nat, p.terminals[id]? = some s := by
                intro s' hs'
                rcases List.mem_append.1 hs' with hs' | hs'
                · exact hp.exists_terminalId hr hs'
                · exact hids s' hs'
              obtain ⟨row, hrow, rfl, rfl⟩ := exists_row_of_expand hp hids' hexpand
              obtain ⟨children, others, rfl, hchildren, hothers⟩ := fitsRow_append hrow
              refine ⟨.node rule children :: others, .cons (.node hs hr hchildren) hothers, ?_, ?_⟩
              · rw [forestPreorder, preorder, forestPreorder_append, List.cons_append,
                  List.cons_append]
              · rw [forestLeaves, leaves, forestLeaves_append]
termination_by (rules.length, pending.length)

/-! ## Listings -/

theorem Fits.expand_singleton {s : Symbol} {t : ParseTree} (h : p.Fits s t) (rest : List Nat) :
    p.expand (t.preorder ++ rest) [s] = some (p.names t.leaves, rest) := by
  rw [h.expand, expand_nil, Option.map_some, List.append_nil]

/-- The listing of a tree is decoded to its terminals, whatever comes after it. -/
theorem Fits.terminalsDown_eq {s : Symbol} {t : ParseTree} (h : p.Fits s t)
    (hs : isNonterminal s = true) (rest : List Nat) :
    p.terminalsDown (t.preorder ++ rest) = .ok (p.names t.leaves) := by
  rw [terminalsDown, (h.of_nonterminal hs isNonterminal_rootSymbol).expand_singleton]

/-- What is decoded begins with the listing of a tree. -/
theorem exists_tree_of_terminalsDown (hp : p.Lawful) {rules : List Nat} {terminals : List Symbol}
    (h : p.terminalsDown rules = .ok terminals) :
    ∃ t, p.Fits p.start t ∧ t.preorder <+: rules ∧ terminals = p.names t.leaves := by
  unfold terminalsDown at h
  split at h
  · next terminals' unread hexpand =>
      cases h
      have hids : ∀ s ∈ [rootSymbol], isNonterminal s = false →
          ∃ id : Nat, p.terminals[id]? = some s := by
        intro s hs hterminal
        rw [List.mem_singleton.1 hs, isNonterminal_rootSymbol] at hterminal
        cases hterminal
      obtain ⟨row, hrow, hrules, hnames⟩ := exists_row_of_expand hp hids hexpand
      obtain ⟨t, rfl, ht⟩ := fitsRow_singleton hrow
      simp only [forestPreorder, forestLeaves_singleton, List.append_nil] at hrules hnames
      exact ⟨t, ht.of_nonterminal isNonterminal_rootSymbol hp.augmentable.start_nonterminal,
        ⟨unread, hrules.symm⟩, hnames⟩
  · cases h

/-- A decoding that does not succeed fails in one way only. -/
theorem terminalsDown_cases (p : Parser) (rules : List Nat) :
    (∃ terminals, p.terminalsDown rules = .ok terminals) ∨
      p.terminalsDown rules = .error .invalidSequence := by
  unfold terminalsDown
  split
  · exact .inl ⟨_, rfl⟩
  · exact .inr rfl

/-- No listing begins another one. -/
theorem preorder_eq_of_begins {s : Symbol} {t u : ParseTree} (ht : p.Fits s t) (hu : p.Fits s u)
    (h : t.preorder <+: u.preorder) : t.preorder = u.preorder := by
  obtain ⟨rest, hrest⟩ := h
  have hexpand := hu.expand_singleton []
  rw [List.append_nil, ← hrest, ht.expand_singleton, Option.some.injEq, Prod.mk.injEq] at hexpand
  rw [← hrest, hexpand.2, List.append_nil]

/-! ## Tokens and the names of their terminals -/

/-- Ids of terminals are determined by their names. -/
theorem Spells.ids_unique (hp : p.Lawful) {ids ids' : List Nat} {symbols : List Symbol}
    (h : p.Spells ids symbols) (h' : p.Spells ids' symbols) : ids = ids' := by
  unfold Spells at h h'
  induction symbols generalizing ids ids' with
  | nil => rw [List.map_eq_nil_iff.1 h, List.map_eq_nil_iff.1 h']
  | cons s symbols ih =>
      obtain ⟨id, ids, rfl, hid, hids⟩ := List.map_eq_cons_iff.1 h
      obtain ⟨id', ids', rfl, hid', hids'⟩ := List.map_eq_cons_iff.1 h'
      rw [← Array.getElem?_toList] at hid hid'
      rw [eq_of_getElem?_of_nodup hp.nodup_terminals hid hid', ih hids hids']

theorem Spells.names_eq {tokens : List Token} {symbols : List Symbol}
    (h : p.Spells (tokens.map Token.terminal) symbols) : p.names tokens = symbols := by
  induction tokens generalizing symbols with
  | nil =>
      cases symbols with
      | nil => rfl
      | cons => cases h
  | cons token tokens ih =>
      cases symbols with
      | nil => cases h
      | cons s symbols =>
          unfold Spells at h
          rw [List.map_cons, List.map_cons, List.map_cons, List.cons.injEq] at h
          rw [names, List.map_cons, terminalName, h.1, Option.getD_some]
          exact congrArg (s :: ·) (ih h.2)

/-- Trees whose leaves have the same names have the same terminals at them. -/
theorem terminals_eq_of_names_eq (hp : p.Lawful) {s s' : Symbol} {t u : ParseTree}
    (ht : p.IsTree s t) (hu : p.IsTree s' u) (h : p.names t.leaves = p.names u.leaves) :
    t.leaves.map Token.terminal = u.leaves.map Token.terminal := by
  obtain ⟨symbols, hspells, -⟩ := ht.exists_derives
  obtain ⟨symbols', hspells', -⟩ := hu.exists_derives
  rw [hspells.names_eq, hspells'.names_eq] at h
  exact Spells.ids_unique hp hspells (h ▸ hspells')

/-! ## Decoding what was encoded -/

/-- A listing that a token list has is that of a parse tree of what comes before the end of
    the input. -/
theorem exists_tree_of_parseDown_ok (hp : p.Lawful) {tokens : List Token} {rules : List Nat}
    (h : p.parseDown tokens = .ok rules) :
    ∃ t, p.IsTree p.start t ∧ t.leaves = untilEnd tokens ∧ t.preorder = rules := by
  cases hparse : p.parse tokens with
  | error e =>
      rw [parseDown_of_error hparse] at h
      cases h
  | ok steps =>
      obtain ⟨t, ht, hleaves, rfl⟩ := exists_tree_untilEnd hp hparse
      rw [parseDown_of_parse hp.augmentable.start_nonterminal (ht.fits hp) hparse] at h
      exact ⟨t, ht, hleaves, Except.ok.inj h⟩

/-- Token lists with the same reductions have the same terminals. -/
theorem terminals_eq_of_reductions_eq (hp : p.Lawful) {tokens tokens' : List Token}
    {steps steps' : List Step} (h : p.parse tokens = .ok steps) (h' : p.parse tokens' = .ok steps')
    (heq : reductions steps = reductions steps') :
    (untilEnd tokens).map Token.terminal = (untilEnd tokens').map Token.terminal := by
  have hleaves := rebuild_of_parse hp h fun _ => false
  rw [keepShifts_none, heq, ← keepShifts_none, rebuild_of_parse hp h'] at hleaves
  have hterminals := congrArg (List.map Leaf.terminal) (Except.ok.inj hleaves)
  rw [List.map_map, List.map_map] at hterminals
  exact hterminals.symm

/-- Decoding a listing from the root down undoes its encoding up to the texts: the names of
    the terminals before the end of the input come back in order. So token lists with the
    same listing, or with the same reductions, have the same terminals there. -/
theorem terminalsDown_parseDown {g : RuleSet} {start : Symbol} {c : Compiled}
    (hg : g.WellFormed start) (hc : (compile g start).1 = .ok c) :
    (∀ tokens rules, c.parser.parseDown tokens = .ok rules →
        c.parser.terminalsDown rules = .ok (c.parser.names (untilEnd tokens))) ∧
      (∀ tokens tokens' rules, c.parser.parseDown tokens = .ok rules →
        c.parser.parseDown tokens' = .ok rules →
        (untilEnd tokens).map Token.terminal = (untilEnd tokens').map Token.terminal) ∧
      ∀ tokens tokens' steps steps', c.parser.parse tokens = .ok steps →
        c.parser.parse tokens' = .ok steps' → reductions steps = reductions steps' →
        (untilEnd tokens).map Token.terminal = (untilEnd tokens').map Token.terminal := by
  have hp := lawful_of_compile hg hc
  have hdecode : ∀ tokens rules, c.parser.parseDown tokens = .ok rules →
      c.parser.terminalsDown rules = .ok (c.parser.names (untilEnd tokens)) := by
    intro tokens rules h
    obtain ⟨t, ht, hleaves, rfl⟩ := exists_tree_of_parseDown_ok hp h
    have hterminals := (ht.fits hp).terminalsDown_eq hp.augmentable.start_nonterminal []
    rw [List.append_nil, hleaves] at hterminals
    exact hterminals
  refine ⟨hdecode, fun tokens tokens' rules h h' => ?_, fun _ _ _ _ h h' heq =>
    terminals_eq_of_reductions_eq hp h h' heq⟩
  have hnames := Except.ok.inj ((hdecode tokens rules h).symm.trans (hdecode tokens' rules h'))
  obtain ⟨t, ht, hleaves, -⟩ := exists_tree_of_parseDown_ok hp h
  obtain ⟨u, hu, hleaves', -⟩ := exists_tree_of_parseDown_ok hp h'
  rw [← hleaves, ← hleaves'] at hnames ⊢
  exact terminals_eq_of_names_eq hp ht hu hnames

theorem terminalsDown_parseDown_sums :
    sumsCompiled.parser.parseDown [⟨3, "1"⟩, ⟨4, "+"⟩, ⟨3, "i"⟩, ⟨endId, ""⟩, ⟨4, "+"⟩] =
        .ok [0, 1, 2, 2] ∧
      sumsCompiled.parser.terminalsDown [0, 1, 2, 2] = .ok ["one", "plus", "one"] := by
  have hdown : sumsCompiled.parser.parseDown
      [⟨3, "1"⟩, ⟨4, "+"⟩, ⟨3, "i"⟩, ⟨endId, ""⟩, ⟨4, "+"⟩] = .ok [0, 1, 2, 2] :=
    eq_ok_of_toOption (by decide +kernel)
  have hnames : sumsCompiled.parser.names
      (untilEnd [⟨3, "1"⟩, ⟨4, "+"⟩, ⟨3, "i"⟩, ⟨endId, ""⟩, ⟨4, "+"⟩]) =
        ["one", "plus", "one"] := by decide +kernel
  refine ⟨hdown, ?_⟩
  rw [← hnames]
  exact (terminalsDown_parseDown sums_wellFormed compile_sums).1 _ _ hdown

/-- What comes after the end of the input has no name in the decoded listing, and lists that
    differ there have the same listing. -/
theorem terminalsDown_after_end :
    sums.WellFormed "$Sum" ∧ (compile sums "$Sum").1 = .ok sumsCompiled ∧
      sumsCompiled.parser.parseDown [⟨3, "i"⟩, ⟨endId, ""⟩] = .ok [1, 2] ∧
      sumsCompiled.parser.terminalsDown [1, 2] ≠
        .ok (sumsCompiled.parser.names [⟨3, "i"⟩, ⟨endId, ""⟩]) ∧
      sumsCompiled.parser.parseDown [⟨3, "i"⟩] = .ok [1, 2] := by
  have hterminals : sumsCompiled.parser.terminalsDown [1, 2] = .ok ["one"] :=
    eq_ok_of_toOption (by decide +kernel)
  refine ⟨sums_wellFormed, compile_sums, eq_ok_of_toOption (by decide +kernel), ?_,
    eq_ok_of_toOption (by decide +kernel)⟩
  intro h
  rw [hterminals] at h
  have hlength := congrArg List.length (Except.ok.inj h)
  cases hlength

end ParseBench.Grammar.Parser
