/-
  ParseBench.Proofs.Grammar.Compile

  What compiling a well-formed rule set yields. `Parser.Lawful` states, in terms
  of the parser alone, what its tables are: its rules with the root rule added
  have an automaton, the action of a state on a terminal is the one the state
  asks for, and the state after a non-terminal is where the automaton leads. All
  that is proved about runs of the parser rests on it; that it holds of every
  compiled parser is `lawful_of_compile`.
-/

import ParseBench.Grammar.Compile
import ParseBench.Proofs.Grammar.Survivors
import ParseBench.Proofs.Grammar.Table

namespace ParseBench.Grammar

open Relation (ReflTransGen)

/-- A rule set as it is meant to be written: no left-hand side is given twice, left-hand
    sides and start symbol are non-terminals and not the root symbol, and no alternative
    mentions the end of the input. -/
structure RuleSet.WellFormed (g : RuleSet) (start : Symbol) : Prop where
  nodup : (g.map RuleGroup.lhs).Nodup
  lhs_nonterminal : ∀ group ∈ g, isNonterminal group.lhs = true
  start_nonterminal : isNonterminal start = true
  lhs_ne_root : ∀ group ∈ g, group.lhs ≠ rootSymbol
  end_not_mem : ∀ group ∈ g, ∀ rhs ∈ group.alternatives, endToken ∉ rhs

instance (g : RuleSet) (start : Symbol) : Decidable (g.WellFormed start) :=
  decidable_of_iff
    ((g.map RuleGroup.lhs).Nodup ∧ (∀ group ∈ g, isNonterminal group.lhs = true) ∧
      isNonterminal start = true ∧ (∀ group ∈ g, group.lhs ≠ rootSymbol) ∧
      ∀ group ∈ g, ∀ rhs ∈ group.alternatives, endToken ∉ rhs)
    ⟨fun h => ⟨h.1, h.2.1, h.2.2.1, h.2.2.2.1, h.2.2.2.2⟩,
      fun h => ⟨h.nodup, h.lhs_nonterminal, h.start_nonterminal, h.lhs_ne_root, h.end_not_mem⟩⟩

theorem RuleSet.WellFormed.nodup_lefts {g : RuleSet} {start : Symbol} (hg : g.WellFormed start) :
    g.lefts.Nodup :=
  hg.nodup

theorem RuleSet.WellFormed.lefts_nonterminal {g : RuleSet} {start : Symbol}
    (hg : g.WellFormed start) : ∀ s ∈ g.lefts, isNonterminal s = true :=
  List.forall_mem_map.2 hg.lhs_nonterminal

/-! ## Rules and the root rule -/

/-- The rule that puts the end of the input after the start symbol. -/
def rootRule (start : Symbol) : Rule := ⟨rootSymbol, [start, endToken]⟩

/-- The rules with the root rule after them. -/
def augment (base : List Rule) (start : Symbol) : List Rule := base ++ [rootRule start]

/-- A rule for `a` mentions the symbol `b`. -/
def Uses (base : List Rule) (a b : Symbol) : Prop := ∃ r ∈ base, r.lhs = a ∧ b ∈ r.rhs

/-- Rules to which the root rule can be added: the root symbol and the end of the input
    do not occur in them, none is empty, and the start symbol reaches them all. -/
structure Augmentable (base : List Rule) (start : Symbol) : Prop where
  lhs_nonterminal : ∀ r ∈ base, isNonterminal r.lhs = true
  lhs_ne_root : ∀ r ∈ base, r.lhs ≠ rootSymbol
  rhs_ne_nil : ∀ r ∈ base, r.rhs ≠ []
  end_not_mem : ∀ r ∈ base, endToken ∉ r.rhs
  root_not_mem : ∀ r ∈ base, rootSymbol ∉ r.rhs
  start_nonterminal : isNonterminal start = true
  start_ne_root : start ≠ rootSymbol
  reached : ∀ r ∈ base, ReflTransGen (Uses base) start r.lhs

theorem isNonterminal_endToken : isNonterminal endToken = false := by decide

theorem ne_endToken {s : Symbol} (hs : isNonterminal s = true) : s ≠ endToken := by
  rintro rfl
  rw [isNonterminal_endToken] at hs
  cases hs

theorem isNonterminal_rootSymbol : isNonterminal rootSymbol = true := by decide

theorem mem_augment {base : List Rule} {start : Symbol} {r : Rule} :
    r ∈ augment base start ↔ r ∈ base ∨ r = rootRule start := by
  simp [augment]

theorem isNonterminal_of_mem_augment {base : List Rule} {start : Symbol}
    (hlhs : ∀ r ∈ base, isNonterminal r.lhs = true) :
    ∀ r ∈ augment base start, isNonterminal r.lhs = true := by
  intro r hr
  rcases mem_augment.1 hr with hr | rfl
  · exact hlhs r hr
  · exact isNonterminal_rootSymbol

theorem Augmentable.augment_lhs {base : List Rule} {start : Symbol}
    (hbase : Augmentable base start) : ∀ r ∈ augment base start, isNonterminal r.lhs = true :=
  isNonterminal_of_mem_augment hbase.lhs_nonterminal

theorem Augmentable.augment_rhs {base : List Rule} {start : Symbol}
    (hbase : Augmentable base start) : ∀ r ∈ augment base start, r.rhs ≠ [] := by
  intro r hr
  rcases mem_augment.1 hr with hr | rfl
  · exact hbase.rhs_ne_nil r hr
  · exact List.cons_ne_nil _ _

theorem getElem?_augment {base : List Rule} {start : Symbol} {id : Nat} {r : Rule}
    (h : (augment base start)[id]? = some r) :
    base[id]? = some r ∨ (id = base.length ∧ r = rootRule start) := by
  rw [augment] at h
  by_cases hid : id < base.length
  · rw [List.getElem?_append_left hid] at h
    exact .inl h
  · rw [List.getElem?_append_right (by omega), List.getElem?_singleton] at h
    split at h
    · exact .inr ⟨by omega, (Option.some.inj h).symm⟩
    · cases h

theorem getElem?_augment_base {base : List Rule} {start : Symbol} {id : Nat} {r : Rule}
    (h : base[id]? = some r) : (augment base start)[id]? = some r := by
  rw [augment, List.getElem?_append_left (List.getElem?_eq_some_iff.1 h).1]
  exact h

theorem getElem?_augment_root {base : List Rule} {start : Symbol} :
    (augment base start)[base.length]? = some (rootRule start) := by
  simp [augment]

/-! ## The stages of the compiler -/

theorem firstFault_eq_none_iff {rules seen : List Rule} :
    firstFault seen rules = none ↔
      (∀ r ∈ rules, r.rhs ≠ []) ∧ rules.Nodup ∧ ∀ r ∈ rules, r ∉ seen := by
  induction rules generalizing seen with
  | nil => simp [firstFault]
  | cons r rules ih =>
      unfold firstFault
      split
      · next hempty =>
          simp only [reduceCtorEq, false_iff]
          exact fun h => h.1 r (List.mem_cons_self ..) (List.isEmpty_iff.1 hempty)
      · next hne =>
          split
          · next hseen =>
              simp only [reduceCtorEq, false_iff]
              exact fun h => h.2.2 r (List.mem_cons_self ..) hseen
          · next hseen =>
              rw [ih, List.forall_mem_cons, List.forall_mem_cons, List.nodup_cons]
              have hne' : r.rhs ≠ [] := by simpa using hne
              constructor
              · rintro ⟨hrhs, hnodup, hfresh⟩
                refine ⟨⟨hne', hrhs⟩, ⟨fun hr => ?_, hnodup⟩, hseen, fun r' hr' => ?_⟩
                · exact hfresh r hr (List.mem_cons_self ..)
                · exact fun h => hfresh r' hr' (List.mem_cons_of_mem _ h)
              · rintro ⟨⟨-, hrhs⟩, ⟨hnew, hnodup⟩, -, hfresh⟩
                refine ⟨hrhs, hnodup, fun r' hr' h => ?_⟩
                rcases List.mem_cons.1 h with rfl | h
                · exact hnew hr'
                · exact hfresh r' hr' h

theorem number_ok_iff {g : RuleSet} {rules : List Rule} :
    (number g).1 = .ok rules ↔
      rules = g.rules ∧ (∀ r ∈ g.rules, r.rhs ≠ []) ∧ g.rules.Nodup := by
  have hfault : firstFault [] g.rules = none ↔ (∀ r ∈ g.rules, r.rhs ≠ []) ∧ g.rules.Nodup := by
    simp [firstFault_eq_none_iff]
  rw [← hfault]
  simp only [number]
  split
  · next e he => simp [he]
  · next hnone =>
      rw [Except.ok.injEq]
      exact ⟨fun h => ⟨h.symm, hnone⟩, fun h => h.1.symm⟩

namespace Alphabet

theorem mem_terminals_ofRules {rules : List Rule} {s : Symbol} :
    s ∈ (ofRules rules).terminals ↔
      s ∈ reservedTokens ∨ ∃ r ∈ rules, s ∈ r.rhs ∧ isNonterminal s = false := by
  simp [ofRules, Ordered.mem_ofList]

theorem mem_nonterminals_ofRules {rules : List Rule} {s : Symbol} :
    s ∈ (ofRules rules).nonterminals ↔
      ∃ r ∈ rules, s = r.lhs ∨ (s ∈ r.rhs ∧ isNonterminal s = true) := by
  simp [ofRules, Ordered.mem_ofList]

theorem lhs_mem_nonterminals_ofRules {rules : List Rule} {r : Rule} (hr : r ∈ rules) :
    r.lhs ∈ (ofRules rules).nonterminals :=
  mem_nonterminals_ofRules.2 ⟨r, hr, .inl rfl⟩

theorem nodup_terminals_ofRules (rules : List Rule) : (ofRules rules).terminals.Nodup :=
  Ordered.nodup_ofList _

theorem nodup_nonterminals_ofRules (rules : List Rule) : (ofRules rules).nonterminals.Nodup :=
  Ordered.nodup_ofList _

theorem isNonterminal_of_mem_terminals {rules : List Rule} {s : Symbol}
    (h : s ∈ (ofRules rules).terminals) : isNonterminal s = false := by
  rcases mem_terminals_ofRules.1 h with h | ⟨-, -, -, h⟩
  · have hreserved : ∀ s ∈ reservedTokens, isNonterminal s = false := by decide
    exact hreserved s h
  · exact h

theorem reserved_subset_terminals {rules : List Rule} {s : Symbol} (hs : s ∈ reservedTokens) :
    s ∈ (ofRules rules).terminals :=
  mem_terminals_ofRules.2 (.inl hs)

theorem isPrefix_of_find?_zip_eq_none {l reserved : List Symbol}
    (hlength : reserved.length ≤ l.length)
    (h : (l.zip reserved).find? (fun p => p.1 != p.2) = none) : reserved <+: l := by
  induction reserved generalizing l with
  | nil => exact List.nil_prefix
  | cons r reserved ih =>
      cases l with
      | nil => cases hlength
      | cons b l =>
          rw [List.zip_cons_cons, List.find?_cons] at h
          split at h
          · cases h
          · next hsame =>
              obtain rfl : b = r := by simpa using hsame
              exact List.cons_prefix_cons.2 ⟨rfl, ih (Nat.le_of_succ_le_succ hlength) h⟩

/-- When no terminal stands in the place of a reserved token, the reserved tokens come first. -/
theorem reserved_isPrefix_terminals {rules : List Rule} (h : (ofRules rules).misplaced? = none) :
    reservedTokens <+: (ofRules rules).terminals := by
  have hlength : reservedTokens.length ≤ (ofRules rules).terminals.length :=
    (List.subperm_of_subset (by decide) fun _ => reserved_subset_terminals).length_le
  exact isPrefix_of_find?_zip_eq_none hlength (Option.map_eq_none_iff.1 h)

theorem getElem?_reserved {rules : List Rule} (h : (ofRules rules).misplaced? = none) {id : Nat}
    {s : Symbol} (hs : reservedTokens[id]? = some s) : (ofRules rules).terminals[id]? = some s := by
  obtain ⟨rest, hrest⟩ := reserved_isPrefix_terminals h
  rw [← hrest, List.getElem?_append_left (List.getElem?_eq_some_iff.1 hs).1]
  exact hs

theorem getElem?_endId {rules : List Rule} (h : (ofRules rules).misplaced? = none) :
    (ofRules rules).terminals[endId]? = some endToken :=
  getElem?_reserved h rfl

theorem ofRules?_ok_iff {rules : List Rule} {a : Alphabet} :
    ofRules? rules = .ok a ↔ a = ofRules rules ∧ (ofRules rules).misplaced? = none := by
  unfold ofRules?
  split
  · next terminal hterminal => simp [hterminal]
  · next hplaced =>
      rw [Except.ok.injEq]
      exact ⟨fun h => ⟨h.symm, hplaced⟩, fun h => h.1.symm⟩

end Alphabet

/-- What numbered rules are compiled to when no state asks for two actions. -/
def Compiled.ofRules (start : Symbol) (rules : List Rule) (alphabet : Alphabet) : Compiled where
  start := start
  rules := rules
  alphabet := alphabet
  automaton := Automaton.ofRules rules
  first := alphabet.nonterminals.map fun s => (s, firstSet rules s)
  follow := alphabet.nonterminals.map fun s => (s, followSet rules s)
  actions := (TableInput.ofRules rules alphabet).actionTable
  gotos := (TableInput.ofRules rules alphabet).gotoTable

theorem tabulate_ok_iff {start : Symbol} {rules : List Rule} {alphabet : Alphabet} {c : Compiled} :
    (tabulate start rules alphabet).1 = .ok c ↔
      (TableInput.ofRules rules alphabet).conflict? = none ∧
        c = Compiled.ofRules start rules alphabet := by
  have hinput : TableInput.ofRules rules alphabet =
      { rules, alphabet, automaton := Automaton.ofRules rules,
        follow := alphabet.nonterminals.map fun s => (s, followSet rules s) } := rfl
  rw [hinput]
  unfold tabulate
  simp only
  split
  · next conflict hconflict => simp [hconflict]
  · next hconflict =>
      simp only [hconflict, true_and, Except.ok.injEq]
      exact eq_comm

theorem tabulate_error_iff {start : Symbol} {rules : List Rule} {alphabet : Alphabet}
    {e : GrammarError} :
    (tabulate start rules alphabet).1 = .error e ↔
      ∃ c, (TableInput.ofRules rules alphabet).conflict? = some c ∧
        e = .conflict c.state c.terminal c.rule c.existing := by
  have hinput : TableInput.ofRules rules alphabet =
      { rules, alphabet, automaton := Automaton.ofRules rules,
        follow := alphabet.nonterminals.map fun s => (s, followSet rules s) } := rfl
  rw [hinput]
  unfold tabulate
  simp only
  split
  · next conflict hconflict =>
      simp only [hconflict, Except.error.injEq, Option.some.injEq, exists_eq_left']
      exact eq_comm
  · next hconflict => simp [hconflict]

/-- A cleaned rule set is compiled when none of its rules is empty or given twice, the
    reserved tokens come first, and no state asks for two actions. -/
theorem compileCleaned_ok_iff {g : RuleSet} {start : Symbol} {c : Compiled} :
    (compileCleaned g start).1 = .ok c ↔
      ((∀ r ∈ g.rules, r.rhs ≠ []) ∧ g.rules.Nodup) ∧
        (Alphabet.ofRules g.rules).misplaced? = none ∧
        (tabulate start g.rules (Alphabet.ofRules g.rules)).1 = .ok c := by
  unfold compileCleaned
  split
  · next e notices hnumber =>
      have hfault : (number g).1 = .error e := by rw [hnumber]
      simp only [reduceCtorEq, false_iff]
      rintro ⟨hrules, -⟩
      rw [number_ok_iff.2 ⟨rfl, hrules⟩] at hfault
      cases hfault
  · next rules notices hnumber =>
      obtain ⟨rfl, hrules⟩ := number_ok_iff.1 (congrArg Prod.fst hnumber)
      split
      · next e halphabet =>
          simp only [reduceCtorEq, false_iff]
          rintro ⟨-, hplaced, -⟩
          rw [Alphabet.ofRules?_ok_iff.2 ⟨rfl, hplaced⟩] at halphabet
          cases halphabet
      · next alphabet halphabet =>
          obtain ⟨rfl, hplaced⟩ := Alphabet.ofRules?_ok_iff.1 halphabet
          exact ⟨fun h => ⟨hrules, hplaced, h⟩, fun h => h.2.2⟩

theorem compile_ok_iff {g : RuleSet} {start : Symbol} {c : Compiled} :
    (compile g start).1 = .ok c ↔ ∃ cleaned, (clean g start).1 = .ok cleaned ∧
      (compileCleaned (withRoot cleaned start) start).1 = .ok c := by
  unfold compile
  split
  · next e notices hclean => simp [hclean]
  · next cleaned notices hclean => simp [hclean]

/-- What is left to fail after the cleaning and the numbering are the alphabet and the check for
    conflicts. -/
theorem compile_eq_of_number {g cleaned : RuleSet} {start : Symbol} {rules : List Rule}
    (hclean : (clean g start).1 = .ok cleaned)
    (hnumber : (number (withRoot cleaned start)).1 = .ok rules) :
    (compile g start).1 =
      (Alphabet.ofRules? rules).bind fun alphabet => (tabulate start rules alphabet).1 := by
  have hcleaned : (compile g start).1 = (compileCleaned (withRoot cleaned start) start).1 := by
    unfold compile
    generalize clean g start = result at hclean
    obtain ⟨result, notices⟩ := result
    simp only at hclean
    subst hclean
    rfl
  rw [hcleaned, compileCleaned]
  generalize number (withRoot cleaned start) = result at hnumber
  obtain ⟨result, notices⟩ := result
  simp only at hnumber
  subst hnumber
  simp only
  cases Alphabet.ofRules? rules with
  | error e => rfl
  | ok alphabet => rfl

theorem compile_eq_tabulate {g cleaned : RuleSet} {start : Symbol} {rules : List Rule}
    {alphabet : Alphabet} (hclean : (clean g start).1 = .ok cleaned)
    (hnumber : (number (withRoot cleaned start)).1 = .ok rules)
    (halphabet : Alphabet.ofRules? rules = .ok alphabet) :
    (compile g start).1 = (tabulate start rules alphabet).1 := by
  rw [compile_eq_of_number hclean hnumber, halphabet]
  rfl

/-! ## The rules of a compiled grammar -/

theorem rules_withRoot (g : RuleSet) (start : Symbol) :
    (withRoot g start).rules = augment g.rules start := by
  rw [withRoot, RuleSet.rules_append]
  rfl

/-- Cleaning a well-formed rule set leaves the survivors, and they are connected. -/
theorem RuleSet.WellFormed.eq_survivors {g cleaned : RuleSet} {start : Symbol}
    (hg : g.WellFormed start) (hclean : (clean g start).1 = .ok cleaned) :
    cleaned = survivors g start ∧ Connected cleaned start := by
  obtain ⟨rfl, hstart, hbarren, hdefined⟩ :=
    (clean_ok_iff hg.nodup_lefts hg.lefts_nonterminal).1 hclean
  exact ⟨rfl, connected_survivors hg.lefts_nonterminal hstart hbarren hdefined⟩

theorem augmentable_of_connected {g h : RuleSet} {start : Symbol} (hg : g.WellFormed start)
    (href : h.Refines g) (hconn : Connected h start) (hne : ∀ r ∈ h.rules, r.rhs ≠ []) :
    Augmentable h.rules start := by
  have hlefts : ∀ s ∈ h.lefts, isNonterminal s = true ∧ s ≠ rootSymbol := by
    intro s hs
    obtain ⟨group, hgroup, rfl⟩ := List.mem_map.1 (href.lefts.subset hs)
    exact ⟨hg.lhs_nonterminal group hgroup, hg.lhs_ne_root group hgroup⟩
  have hmem : ∀ r ∈ h.rules, r.lhs ∈ h.lefts := by
    intro r hr
    obtain ⟨group, hgroup, hlhs, -⟩ := RuleSet.mem_rules.1 hr
    exact List.mem_map.2 ⟨group, hgroup, hlhs⟩
  exact
    { lhs_nonterminal := fun r hr => (hlefts _ (hmem r hr)).1
      lhs_ne_root := fun r hr => (hlefts _ (hmem r hr)).2
      rhs_ne_nil := hne
      end_not_mem := fun r hr => by
        obtain ⟨group, hgroup, -, hrhs⟩ := RuleSet.mem_rules.1 (href.rules.subset hr)
        exact hg.end_not_mem group hgroup r.rhs hrhs
      root_not_mem := fun r hr hroot =>
        (hlefts _ (hconn.defined r hr _ hroot isNonterminal_rootSymbol)).2 rfl
      start_nonterminal := (hlefts start hconn.start_mem).1
      start_ne_root := (hlefts start hconn.start_mem).2
      reached := fun r hr => by
        refine (hconn.reached r.lhs (hmem r hr)).lift id ?_
        rintro a b ⟨r', hr', hlhs, hb, -⟩
        exact ⟨r', hr', hlhs, hb⟩ }

/-- The root rule can be added to what cleaning leaves, if no rule of it is empty. -/
theorem RuleSet.WellFormed.augmentable {g : RuleSet} {start : Symbol} (hg : g.WellFormed start)
    (hclean : (clean g start).1 = .ok (survivors g start))
    (hne : ∀ r ∈ augment (survivors g start).rules start, r.rhs ≠ []) :
    Augmentable (survivors g start).rules start :=
  augmentable_of_connected hg (survivors_refines g start) (hg.eq_survivors hclean).2
    fun r hr => hne r (mem_augment.2 (.inl hr))

/-! ## Ids of symbols -/

namespace Parser

variable {p : Parser} {s : Symbol}

theorem symbolId?_of_not_mem (hs : s ∉ p.nonterminals) :
    p.symbolId? s = p.terminals.toList.idxOf? s := by
  rw [symbolId?, List.idxOf?_eq_none_iff.2 (Array.mem_toList_iff.not.2 hs)]

/-- The ids of the non-terminals come after those of the terminals. -/
theorem terminalId?_of_mem (hs : s ∈ p.nonterminals) : p.terminalId? s = none := by
  rw [terminalId?, symbolId?]
  split
  · next column _ => simp
  · next hnone =>
      exact absurd (Array.mem_toList_iff.2 hs) (List.idxOf?_eq_none_iff.1 hnone)

/-- A terminal's id is its place, and nothing else has the id of a terminal. -/
theorem terminalId?_eq_some_iff_of_disjoint (hterminals : p.terminals.toList.Nodup)
    (hdisjoint : ∀ s ∈ p.terminals, s ∉ p.nonterminals) {id : Nat} :
    p.terminalId? s = some id ↔ p.terminals[id]? = some s := by
  by_cases hs : s ∈ p.nonterminals
  · rw [terminalId?_of_mem hs]
    constructor
    · rintro ⟨⟩
    · exact fun hid => absurd hs (hdisjoint s (Array.mem_of_getElem? hid))
  · rw [terminalId?, Option.filter_eq_some_iff, symbolId?_of_not_mem hs,
      idxOf?_eq_some_iff_getElem? hterminals, Array.getElem?_toList, decide_eq_true_eq]
    exact ⟨And.left, fun hid => ⟨hid, (Array.getElem?_eq_some_iff.1 hid).1⟩⟩

end Parser

/-! ## The tables of a compiled grammar -/

namespace Parser

/-- The rules of the parser with the root rule. -/
def augmented (p : Parser) : List Rule := augment p.rules.toList p.start

/-- What the tables of a parser are in terms of its rules. -/
structure Lawful (p : Parser) : Prop where
  augmentable : Augmentable p.rules.toList p.start
  action_iff : ∀ q id action, action ≠ .invalid →
    (p.action q id = action ↔ ∃ s, p.terminals[id]? = some s ∧ Asks p.augmented q s action)
  goto?_iff : ∀ q s q', isNonterminal s = true →
    (p.goto? q s = some q' ↔ Leads p.augmented q s q')
  nodup_terminals : p.terminals.toList.Nodup
  getElem?_endId : p.terminals[endId]? = some endToken
  isTerminal : ∀ (id : Nat) (s : Symbol), p.terminals[id]? = some s → isNonterminal s = false
  mem_terminals : ∀ r ∈ p.augmented, ∀ s ∈ r.rhs, isNonterminal s = false → s ∈ p.terminals
  mem_nonterminals : ∀ r ∈ p.augmented, r.lhs ∈ p.nonterminals
  nonterminal_of_mem : ∀ s ∈ p.nonterminals, isNonterminal s = true

theorem Lawful.not_mem_nonterminals {p : Parser} (hp : p.Lawful) {s : Symbol}
    (hs : s ∈ p.terminals) : s ∉ p.nonterminals := by
  intro hmem
  obtain ⟨id, hid⟩ := Array.mem_iff_getElem?.1 hs
  have hterminal := hp.isTerminal id s hid
  rw [hp.nonterminal_of_mem s hmem] at hterminal
  cases hterminal

end Parser

namespace Compiled

variable {c : Compiled} {rules : List Rule} {alphabet : Alphabet}

theorem parser_action
    (hactions : c.actions = (TableInput.ofRules rules alphabet).actionTable) {q id : Nat} :
    c.parser.action q id =
      (((itemSets rules)[q]?.bind fun set => alphabet.terminals[id]?.map fun s =>
        ((TableInput.ofRules rules alphabet).actionsAt q set s).headD .invalid)).getD .invalid := by
  simp only [Parser.action, parser, hactions, List.getElem?_toArray, List.getElem?_map,
    TableInput.getElem?_actionTable]
  cases (itemSets rules)[q]? with
  | none => rfl
  | some set => simp

theorem parser_goto? (halphabet : c.alphabet = alphabet) (hnodup : alphabet.nonterminals.Nodup)
    (hgotos : c.gotos = (TableInput.ofRules rules alphabet).gotoTable) {q : Nat} {s : Symbol}
    (hs : s ∈ alphabet.nonterminals) :
    c.parser.goto? q s = (Automaton.ofRules rules).next? q s := by
  obtain ⟨column, hcolumn⟩ := List.getElem?_of_mem hs
  have hidx := (idxOf?_eq_some_iff_getElem? hnodup).2 hcolumn
  simp only [Parser.goto?, parser, hgotos, halphabet, hidx, List.getElem?_toArray,
    List.getElem?_map, TableInput.getElem?_gotoTable, Option.bind_eq_bind, Option.bind_some]
  cases hset : (itemSets rules)[q]? with
  | none =>
      have hnone : (Automaton.ofRules rules).next? q s = none := by
        have hrow : (Automaton.ofRules rules).transitions[q]? = none := by
          simp only [Automaton.ofRules]
          rw [List.getElem?_map, hset, Option.map_none]
        rw [Automaton.next?, hrow, Option.bind_none]
      rw [hnone]
      rfl
  | some set => simp [hcolumn]

/-- Without conflicts a state does on a terminal what it asks for. -/
theorem parser_action_iff (halphabet : c.alphabet = Alphabet.ofRules rules)
    (hactions : c.actions = (TableInput.ofRules rules (Alphabet.ofRules rules)).actionTable)
    (hconflict : (TableInput.ofRules rules (Alphabet.ofRules rules)).conflict? = none) {q id : Nat}
    {action : Action} (hne : action ≠ .invalid) :
    c.parser.action q id = action ↔
      ∃ s, c.parser.terminals[id]? = some s ∧ Asks rules q s action := by
  have hterminals : c.parser.terminals[id]? = (Alphabet.ofRules rules).terminals[id]? := by
    simp [parser, halphabet]
  have hlhs : ∀ r ∈ rules, r.lhs ∈ (Alphabet.ofRules rules).nonterminals :=
    fun _ hr => Alphabet.lhs_mem_nonterminals_ofRules hr
  rw [parser_action hactions, hterminals]
  constructor
  · intro haction
    cases hset : (itemSets rules)[q]? with
    | none =>
        rw [hset] at haction
        exact absurd haction.symm hne
    | some set =>
        cases hs : (Alphabet.ofRules rules).terminals[id]? with
        | none =>
            rw [hset, hs] at haction
            exact absurd haction.symm hne
        | some s =>
            rw [hset, hs] at haction
            exact ⟨s, rfl, (TableInput.headD_actionsAt hlhs hconflict
              (List.mem_of_getElem? hs) hset hne).1 haction⟩
  · rintro ⟨s, hs, hask⟩
    obtain ⟨set, hset⟩ := hask.exists_set
    rw [hset, hs]
    exact (TableInput.headD_actionsAt hlhs hconflict (List.mem_of_getElem? hs) hset hne).2 hask

/-- On a non-terminal a state is followed by the one the automaton leads to. -/
theorem parser_goto?_iff (halphabet : c.alphabet = Alphabet.ofRules rules)
    (hgotos : c.gotos = (TableInput.ofRules rules (Alphabet.ofRules rules)).gotoTable)
    {q q' : Nat} {s : Symbol} (hs : isNonterminal s = true) :
    c.parser.goto? q s = some q' ↔ Leads rules q s q' := by
  by_cases hmem : s ∈ (Alphabet.ofRules rules).nonterminals
  · rw [parser_goto? halphabet (Alphabet.nodup_nonterminals_ofRules _) hgotos hmem]
    rfl
  -- no rule mentions the symbol, so neither the table nor the automaton knows it
  · constructor
    · intro hgoto
      have hidx : c.parser.nonterminals.toList.idxOf? s = none := by
        rw [List.idxOf?_eq_none_iff]
        simpa [parser, halphabet] using hmem
      simp [Parser.goto?, hidx] at hgoto
    · intro hleads
      obtain ⟨i, -, hnext⟩ := hleads.exists_item
      obtain ⟨r, hr, hsr⟩ := nextSymbol?_eq_some.1 hnext
      exact absurd (Alphabet.mem_nonterminals_ofRules.2
        ⟨r, List.mem_of_getElem? hr, .inr ⟨List.mem_of_getElem? hsr, hs⟩⟩) hmem

end Compiled

/-- The parser of numbered rules works with these rules and the root rule. -/
theorem augmented_parser_ofRules {start : Symbol} {base : List Rule} {alphabet : Alphabet} :
    (Compiled.ofRules start (augment base start) alphabet).parser.augmented =
      augment base start := by
  simp [Parser.augmented, Compiled.parser, Compiled.ofRules, augment]

theorem lawful_of_tabulate {start : Symbol} {base : List Rule} {c : Compiled}
    (hbase : Augmentable base start)
    (hplaced : (Alphabet.ofRules (augment base start)).misplaced? = none)
    (h : (tabulate start (augment base start) (Alphabet.ofRules (augment base start))).1 = .ok c) :
    c.parser.Lawful := by
  obtain ⟨hconflict, rfl⟩ := tabulate_ok_iff.1 h
  have haugmented : (Compiled.ofRules start (augment base start)
      (Alphabet.ofRules (augment base start))).parser.augmented = augment base start :=
    augmented_parser_ofRules
  generalize hc : Compiled.ofRules start (augment base start)
    (Alphabet.ofRules (augment base start)) = c at haugmented ⊢
  have hbaseRules : c.parser.rules.toList = base := by
    simp [Compiled.parser, ← hc, Compiled.ofRules, augment]
  have hstart : c.parser.start = start := by rw [← hc]; rfl
  have hterminals :
      c.parser.terminals.toList = (Alphabet.ofRules (augment base start)).terminals := by
    simp [Compiled.parser, ← hc, Compiled.ofRules]
  have hnonterminals :
      c.parser.nonterminals.toList = (Alphabet.ofRules (augment base start)).nonterminals := by
    simp [Compiled.parser, ← hc, Compiled.ofRules]
  constructor
  case augmentable =>
    rw [hbaseRules, hstart]
    exact hbase
  case action_iff =>
    intro q id action hne
    rw [haugmented]
    exact Compiled.parser_action_iff (by rw [← hc]; rfl) (by rw [← hc]; rfl) hconflict hne
  case goto?_iff =>
    intro q s q' hs
    rw [haugmented]
    exact Compiled.parser_goto?_iff (by rw [← hc]; rfl) (by rw [← hc]; rfl) hs
  case nodup_terminals =>
    rw [hterminals]
    exact Alphabet.nodup_terminals_ofRules _
  case getElem?_endId =>
    rw [← Array.getElem?_toList, hterminals]
    exact Alphabet.getElem?_endId hplaced
  case isTerminal =>
    intro id s hs
    rw [← Array.getElem?_toList, hterminals] at hs
    exact Alphabet.isNonterminal_of_mem_terminals (List.mem_of_getElem? hs)
  case mem_terminals =>
    intro r hr s hs hterminal
    rw [haugmented] at hr
    rw [← Array.mem_toList_iff, hterminals]
    exact Alphabet.mem_terminals_ofRules.2 (.inr ⟨r, hr, hs, hterminal⟩)
  case mem_nonterminals =>
    intro r hr
    rw [haugmented] at hr
    rw [← Array.mem_toList_iff, hnonterminals]
    exact Alphabet.lhs_mem_nonterminals_ofRules hr
  case nonterminal_of_mem =>
    intro s hs
    rw [← Array.mem_toList_iff, hnonterminals] at hs
    obtain ⟨r, hr, rfl | ⟨-, hnt⟩⟩ := Alphabet.mem_nonterminals_ofRules.1 hs
    · exact hbase.augment_lhs r hr
    · exact hnt

/-- How a compiled well-formed rule set came about: its rules are the cleaned ones and the
    root rule, and its tables are theirs. -/
theorem exists_tabulate_of_compile {g : RuleSet} {start : Symbol} {c : Compiled}
    (hg : g.WellFormed start) (h : (compile g start).1 = .ok c) :
    ∃ cleaned, (clean g start).1 = .ok cleaned ∧ Augmentable cleaned.rules start ∧
      (Alphabet.ofRules (augment cleaned.rules start)).misplaced? = none ∧
      (tabulate start (augment cleaned.rules start)
        (Alphabet.ofRules (augment cleaned.rules start))).1 = .ok c := by
  obtain ⟨cleaned, hclean, hcleaned⟩ := compile_ok_iff.1 h
  obtain ⟨⟨hne, -⟩, hplaced, htabulate⟩ := compileCleaned_ok_iff.1 hcleaned
  rw [rules_withRoot] at hne hplaced htabulate
  obtain ⟨rfl, -⟩ := hg.eq_survivors hclean
  exact ⟨_, hclean, hg.augmentable hclean hne, hplaced, htabulate⟩

/-- A compiled well-formed rule set has a lawful parser. -/
theorem lawful_of_compile {g : RuleSet} {start : Symbol} {c : Compiled}
    (hg : g.WellFormed start) (h : (compile g start).1 = .ok c) : c.parser.Lawful := by
  obtain ⟨cleaned, -, hbase, hplaced, htabulate⟩ := exists_tabulate_of_compile hg h
  exact lawful_of_tabulate hbase hplaced htabulate

theorem parser_start {g : RuleSet} {start : Symbol} {c : Compiled}
    (h : (compile g start).1 = .ok c) : c.parser.start = start := by
  obtain ⟨cleaned, -, hcleaned⟩ := compile_ok_iff.1 h
  obtain ⟨-, -, htabulate⟩ := compileCleaned_ok_iff.1 hcleaned
  obtain ⟨-, rfl⟩ := tabulate_ok_iff.1 htabulate
  rfl

/-- The FIRST set of a non-terminal of the alphabet is that of the rules. -/
theorem first?_ofRules {start s : Symbol} {rules : List Rule} {alphabet : Alphabet}
    (hs : s ∈ alphabet.nonterminals) :
    (Compiled.ofRules start rules alphabet).first? s = some (firstSet rules s) :=
  lookup_map_pair _ hs

/-- The FOLLOW set of a non-terminal of the alphabet is that of the rules. -/
theorem follow?_ofRules {start s : Symbol} {rules : List Rule} {alphabet : Alphabet}
    (hs : s ∈ alphabet.nonterminals) :
    (Compiled.ofRules start rules alphabet).follow? s = some (followSet rules s) :=
  lookup_map_pair _ hs

theorem follow?_eq {g : RuleSet} {start : Symbol} {c : Compiled} (hg : g.WellFormed start)
    (h : (compile g start).1 = .ok c) {s : Symbol} (hs : s ∈ c.parser.nonterminals) :
    c.follow? s = some (followSet c.parser.augmented s) := by
  obtain ⟨cleaned, -, -, -, htabulate⟩ := exists_tabulate_of_compile hg h
  obtain ⟨-, rfl⟩ := tabulate_ok_iff.1 htabulate
  rw [augmented_parser_ofRules]
  exact follow?_ofRules (by simpa [Compiled.parser, Compiled.ofRules] using hs)

/-! ## Sums -/

theorem eq_ok_of_toOption {ε α : Type} {x : Except ε α} {a : α} (h : x.toOption = some a) :
    x = .ok a := by
  cases x with
  | error _ => cases h
  | ok _ => rw [Option.some.inj h]

/-- Sums of ones, nested to the left. -/
def sums : RuleSet :=
  [⟨"$Sum", [["$Sum", "plus", "$Num"], ["$Num"]]⟩, ⟨"$Num", [["one"]]⟩]

theorem sums_wellFormed : sums.WellFormed "$Sum" := by decide +kernel

/-- The compiled sums. The terminals after the reserved ones are `one` and `plus`. -/
def sumsCompiled : Compiled :=
  (compile sums "$Sum").1.toOption.get (by decide +kernel)

theorem compile_sums : (compile sums "$Sum").1 = .ok sumsCompiled :=
  eq_ok_of_toOption (Option.some_get _).symm

end ParseBench.Grammar
