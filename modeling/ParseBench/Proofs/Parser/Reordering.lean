/-
  ParseBench.Proofs.Parser.Reordering

  The order of the rules only renames. Two parsers are the same up to numbering when
  their tables agree after a renaming of rules and states (`Renamed`). A turn of the
  one is then a turn of the other (`Renamed.turn_rename`), so their results differ in
  the ids of the rules that are applied and, where a token is refused, in the number
  of the state (`Renamed.parse_rename`).

  The parsers of two rule sets that differ in the order of their rules are such
  parsers (`exists_reorders`, `Reorders.renamed`): each state of the one has a state
  of the other with the same items, and these have the same actions. The number of
  the state is not the same for both, as two rules in either order show.
-/

import ParseBench.Proofs.Grammar.Reordering
import ParseBench.Proofs.Parser.Machine

namespace ParseBench.Grammar

/-! ## Renaming results -/

/-- The step with another id of its rule. -/
def Step.rename (σ : Nat → Nat) : Step → Step
  | .shift token => .shift token
  | .reduce rule => .reduce (σ rule)

/-- The error with another number of the state in which a token was refused. -/
def refusalRename (τ : Nat → Nat) : GrammarError → GrammarError
  | .parse unexpected state expected => .parse unexpected (τ state) expected
  | e => e

namespace Parser

/-- The result of a parse with other ids of rules and another number of the state in which a
    token was refused. -/
def renameResult (σ τ : Nat → Nat) :
    Except GrammarError (List Step) → Except GrammarError (List Step)
  | .ok steps => .ok (steps.map (Step.rename σ))
  | .error e => .error (refusalRename τ e)

/-- The configuration with other numbers. -/
def Config.rename (σ τ : Nat → Nat) (c : Config) : Config :=
  ⟨c.stack.map τ, c.taken.map (Step.rename σ), c.input⟩

/-- What a turn leads to, with other numbers. -/
def Turn.rename (σ τ : Nat → Nat) : Turn → Turn
  | .done result => .done (renameResult σ τ result)
  | .more c => .more (c.rename σ τ)

/-! ## Parsers with renamed tables -/

/-- The tables of the second parser are those of the first with `σ` applied to the ids of
    rules and `τ` to the states. -/
structure Renamed (p p' : Parser) (σ τ : Nat → Nat) : Prop where
  terminals : p'.terminals = p.terminals
  nonterminals : p'.nonterminals = p.nonterminals
  rule : ∀ id, p'.rules[σ id]? = p.rules[id]?
  state_zero : τ 0 = 0
  action : ∀ q t, p'.action (τ q) t = (p.action q t).rename σ τ
  goto? : ∀ (q id : Nat) (r : Rule), p.rules[id]? = some r →
    p'.goto? (τ q) r.lhs = (p.goto? q r.lhs).map τ

namespace Renamed

variable {p p' : Parser} {σ τ : Nat → Nat}

theorem rename_eq_invalid {a : Action} : a.rename σ τ = .invalid ↔ a = .invalid := by
  cases a <;> simp [Action.rename]

theorem expected_eq (h : Renamed p p' σ τ) (q : Nat) : p'.expected (τ q) = p.expected q := by
  unfold expected
  rw [h.terminals]
  congr 1
  refine List.filter_congr fun t _ => ?_
  rw [h.action, Bool.eq_iff_iff, bne_iff_ne, bne_iff_ne, ne_eq, ne_eq, rename_eq_invalid]

/-- A turn with other numbers leads to the same with other numbers. -/
theorem turn_rename (h : Renamed p p' σ τ) (c : Config) :
    p'.turn (c.rename σ τ) = (p.turn c).rename σ τ := by
  have hstate : (c.stack.map τ).headD 0 = τ (c.stack.headD 0) := by
    cases c.stack with
    | nil => exact h.state_zero.symm
    | cons q stack => rfl
  unfold turn
  simp only [Config.rename, hstate, h.action]
  cases haction : p.action (c.stack.headD 0) (nextToken c.input).terminal with
  | invalid =>
      simp only [Action.rename, Turn.rename, renameResult, refusalRename, h.expected_eq,
        terminalName, h.terminals]
  | accept => simp only [Action.rename, Turn.rename, renameResult, List.map_reverse]
  | shift q => rfl
  | reduce rule =>
      simp only [Action.rename, h.rule]
      cases hr : p.rules[rule]? with
      | none => rfl
      | some r =>
          have hgoto :
              ((c.stack.map τ).drop r.rhs.length).head?.bind (fun top => p'.goto? top r.lhs) =
                ((c.stack.drop r.rhs.length).head?.bind fun top => p.goto? top r.lhs).map τ := by
            rw [← List.map_drop]
            cases c.stack.drop r.rhs.length with
            | nil => rfl
            | cons top below => exact h.goto? top rule r hr
          simp only [hgoto]
          cases (c.stack.drop r.rhs.length).head?.bind fun top => p.goto? top r.lhs with
          | none => rfl
          | some next =>
              simp only [Option.map_some, Turn.rename, Config.rename, List.map_cons, Step.rename,
                List.map_drop]

theorem run_rename (h : Renamed p p' σ τ) (bound : Nat) (c : Config) :
    p'.run bound (c.rename σ τ) = (p.run bound c).map (renameResult σ τ) := by
  induction bound generalizing c with
  | zero => rfl
  | succ bound ih =>
      rw [run, run, h.turn_rename]
      cases p.turn c with
      | done result => rfl
      | more c => exact ih c

/-- The results differ in the ids of the rules and in the number of the state in which a token
    is refused. -/
theorem parse_rename (h : Renamed p p' σ τ) (tokens : List Token) :
    p'.parse tokens = renameResult σ τ (p.parse tokens) := by
  have hinit : init tokens = (init tokens).rename σ τ := by
    simp only [init, Config.rename, List.map_cons, List.map_nil, h.state_zero]
  have hbound : p'.turnBound tokens.length = p.turnBound tokens.length := by
    rw [turnBound, turnBound, h.nonterminals]
  unfold parse
  rw [hbound, hinit, h.run_rename, ← hinit]
  cases p.run (p.turnBound tokens.length) (init tokens) with
  | none => rfl
  | some result => rfl

end Renamed

/-! ## Parsers of the same rules -/

/-- Lawful parsers of the same rules in different orders. -/
structure Reorders (p p' : Parser) (σ τ : Equiv.Perm Nat) : Prop where
  lawful : p.Lawful
  lawful' : p'.Lawful
  terminals : p'.terminals = p.terminals
  nonterminals : p'.nonterminals = p.nonterminals
  nodup : p.augmented.Nodup
  nodup' : p'.augmented.Nodup
  translates : Translates p.augmented p'.augmented σ τ
  rule : ∀ id, p'.rules[σ id]? = p.rules[id]?

namespace Reorders

variable {p p' : Parser} {σ τ : Equiv.Perm Nat}

theorem symm (h : Reorders p p' σ τ) : Reorders p' p σ.symm τ.symm where
  lawful := h.lawful'
  lawful' := h.lawful
  terminals := h.terminals.symm
  nonterminals := h.nonterminals.symm
  nodup := h.nodup'
  nodup' := h.nodup
  translates := h.translates.symm
  rule id := by rw [← h.rule, Equiv.apply_symm_apply]

/-- An action of the one parser is an action of the other under the other numbers. -/
theorem action_of_ne (h : Reorders p p' σ τ) {q t : Nat} (hne : p.action q t ≠ .invalid) :
    p'.action (τ q) t = (p.action q t).rename σ τ := by
  obtain ⟨s, hs, hasks⟩ := (h.lawful.action_iff q t _ hne).1 rfl
  have hasks' := h.translates.asks h.lawful.augmentable h.lawful'.augmentable h.nodup h.nodup'
    (h.lawful.isTerminal t s hs) hasks
  have hne' : (p.action q t).rename σ τ ≠ .invalid :=
    fun heq => hne (Renamed.rename_eq_invalid.1 heq)
  exact (h.lawful'.action_iff _ _ _ hne').2 ⟨s, by rw [h.terminals]; exact hs, hasks'⟩

theorem action (h : Reorders p p' σ τ) (q t : Nat) :
    p'.action (τ q) t = (p.action q t).rename σ τ := by
  by_cases hinvalid : p.action q t = .invalid
  -- an action of the other parser would be one of this parser, back under its own numbers
  · rw [hinvalid]
    by_contra hne
    have hback := h.symm.action_of_ne hne
    rw [Equiv.symm_apply_apply, hinvalid] at hback
    exact hne (Renamed.rename_eq_invalid.1 hback.symm)
  · exact h.action_of_ne hinvalid

theorem goto?_of_eq_some (h : Reorders p p' σ τ) {q q' : Nat} {s : Symbol}
    (hs : isNonterminal s = true) (hgoto : p.goto? q s = some q') :
    p'.goto? (τ q) s = some (τ q') :=
  (h.lawful'.goto?_iff _ _ _ hs).2
    (h.translates.leads h.nodup h.nodup' ((h.lawful.goto?_iff _ _ _ hs).1 hgoto))

theorem goto? (h : Reorders p p' σ τ) {q : Nat} {s : Symbol} (hs : isNonterminal s = true) :
    p'.goto? (τ q) s = (p.goto? q s).map τ := by
  ext q'
  rw [Option.map_eq_some_iff]
  constructor
  · intro hgoto
    have hback := h.symm.goto?_of_eq_some hs hgoto
    rw [Equiv.symm_apply_apply] at hback
    exact ⟨_, hback, τ.apply_symm_apply q'⟩
  · rintro ⟨q'', hgoto, rfl⟩
    exact h.goto?_of_eq_some hs hgoto

/-- The tables of the one parser are those of the other with other numbers. -/
theorem renamed (h : Reorders p p' σ τ) : Renamed p p' σ τ where
  terminals := h.terminals
  nonterminals := h.nonterminals
  rule := h.rule
  state_zero := h.translates.state_zero h.nodup'
  action := h.action
  goto? q id r hr := h.goto? (h.lawful.augmentable.lhs_nonterminal r
    (List.mem_of_getElem? (by rw [Array.getElem?_toList]; exact hr)))

end Reorders

/-! ## Rule sets in another order -/

/-- Compiled rule sets that differ in the order of their groups and alternatives only have
    parsers that are the same up to numbering. -/
theorem exists_reorders {g h : RuleSet} {start : Symbol} {c c' : Compiled}
    (hg : g.WellFormed start) (hh : h.WellFormed start) (hgh : g.Reordered h)
    (hc : (compile g start).1 = .ok c) (hc' : (compile h start).1 = .ok c') :
    ∃ σ τ : Equiv.Perm Nat, Reorders c.parser c'.parser σ τ := by
  have hlawful := lawful_of_compile hg hc
  have hlawful' := lawful_of_compile hh hc'
  obtain ⟨-, ⟨-, hrules⟩, -, -, rfl⟩ := hg.compile_ok_iff.1 hc
  obtain ⟨-, ⟨-, hrules'⟩, -, -, rfl⟩ := hh.compile_ok_iff.1 hc'
  have hperm := @RuleSet.Reordered.rules_survivors_perm g h start hgh
  have hsame : ∀ r, r ∈ augment (survivors h start).rules start ↔
      r ∈ augment (survivors g start).rules start := fun r => (hperm.append_right _).mem_iff.symm
  have halphabet := Alphabet.ofRules_congr hsame
  obtain ⟨σ, τ, htranslates, hrule⟩ := exists_translates hperm hrules
  refine ⟨σ, τ, hlawful, hlawful', ?_, ?_, ?_, ?_, ?_, fun id => ?_⟩
  · simp only [Compiled.parser, Compiled.ofRules, halphabet]
  · simp only [Compiled.parser, Compiled.ofRules, halphabet]
  · rw [augmented_parser_ofRules]
    exact hrules
  · rw [augmented_parser_ofRules]
    exact hrules'
  · rw [augmented_parser_ofRules, augmented_parser_ofRules]
    exact htranslates
  · simpa [Compiled.parser, Compiled.ofRules, augment] using hrule id

end Parser

/-- Rule sets that differ in the order of their groups and alternatives only compile both or
    both not. When they do, their alphabets, FIRST sets, FOLLOW sets and numbers of states are
    the same. The results of their parsers are the same after the ids of equal rules and, where
    a token is refused, the numbers of the states with the same items are exchanged. -/
theorem compile_reordered {g h : RuleSet} {start : Symbol} (hg : g.WellFormed start)
    (hh : h.WellFormed start) (hgh : g.Reordered h) :
    ((∃ c, (compile g start).1 = .ok c) ↔ ∃ c', (compile h start).1 = .ok c') ∧
      ∀ c c', (compile g start).1 = .ok c → (compile h start).1 = .ok c' →
        c'.alphabet = c.alphabet ∧ (∀ s, c'.parser.symbolId? s = c.parser.symbolId? s) ∧
          c'.automaton.sets.length = c.automaton.sets.length ∧
          c'.first = c.first ∧ c'.follow = c.follow ∧
          ∃ σ τ : Equiv.Perm Nat, (∀ id, c'.parser.rules[σ id]? = c.parser.rules[id]?) ∧
            (∀ q, c'.automaton.sets[τ q]?.map (dotted c'.rules) =
              c.automaton.sets[q]?.map (dotted c.rules)) ∧
            ∀ tokens, c'.parser.parse tokens =
              Parser.renameResult σ τ (c.parser.parse tokens) := by
  refine ⟨⟨hgh.exists_compile_ok hg hh, hgh.symm.exists_compile_ok hh hg⟩, fun c c' hc hc' => ?_⟩
  obtain ⟨σ, τ, hreorders⟩ := Parser.exists_reorders hg hh hgh hc hc'
  have hlawful := lawful_of_compile hg hc
  obtain ⟨-, ⟨-, hrules⟩, -, -, rfl⟩ := hg.compile_ok_iff.1 hc
  obtain ⟨-, ⟨-, hrules'⟩, -, -, rfl⟩ := hh.compile_ok_iff.1 hc'
  have hsame : ∀ r, r ∈ augment (survivors g start).rules start ↔
      r ∈ augment (survivors h start).rules start := fun r => hgh.augment_perm.mem_iff
  have hstates := stateItems_perm hsame hrules hrules'
  refine ⟨(Alphabet.ofRules_congr hsame).symm, fun s => ?_, ?_, (first_ofRules_congr hsame ?_).symm,
    (follow_ofRules_congr hsame).symm, σ, τ, hreorders.rule, fun q => ?_,
    hreorders.renamed.parse_rename⟩
  · simp only [Parser.symbolId?, hreorders.terminals, hreorders.nonterminals]
  · simpa [Compiled.ofRules, Automaton.ofRules, stateItems] using hstates.length_eq.symm
  · exact fun s hs => hlawful.nonterminal_of_mem s (by simpa [Compiled.parser, Compiled.ofRules])
  · have hstate := hreorders.translates.state q
    rw [augmented_parser_ofRules, augmented_parser_ofRules, stateItems, stateItems,
      List.getElem?_map, List.getElem?_map] at hstate
    exact hstate

/-- Two sentences of two words each. -/
def sentences : RuleSet := [⟨"$S", [["a", "x"], ["b", "y"]]⟩]

/-- The same sentences in the other order. -/
def sentencesBack : RuleSet := [⟨"$S", [["b", "y"], ["a", "x"]]⟩]

theorem sentences_reordered : sentences.Reordered sentencesBack :=
  ⟨sentences, .refl _, .cons ⟨rfl, .swap ..⟩ .nil⟩

/-- The compiled sentences. -/
def sentencesCompiled : Compiled :=
  (compile sentences "$S").1.toOption.get (by decide +kernel)

theorem compile_sentences : (compile sentences "$S").1 = .ok sentencesCompiled :=
  eq_ok_of_toOption (Option.some_get _).symm

/-- The compiled sentences of the other order. -/
def sentencesBackCompiled : Compiled :=
  (compile sentencesBack "$S").1.toOption.get (by decide +kernel)

theorem compile_sentencesBack : (compile sentencesBack "$S").1 = .ok sentencesBackCompiled :=
  eq_ok_of_toOption (Option.some_get _).symm

theorem compile_reordered_sentences :
    sentencesBackCompiled.follow = sentencesCompiled.follow ∧
      ∃ σ τ : Equiv.Perm Nat,
        (∀ id, sentencesBackCompiled.parser.rules[σ id]? = sentencesCompiled.parser.rules[id]?) ∧
          sentencesBackCompiled.parser.parse [⟨3, "a"⟩, ⟨5, "x"⟩] =
            Parser.renameResult σ τ
              (sentencesCompiled.parser.parse [⟨3, "a"⟩, ⟨5, "x"⟩]) := by
  obtain ⟨-, hboth⟩ := @compile_reordered sentences sentencesBack "$S" (by decide +kernel)
    (by decide +kernel) sentences_reordered
  obtain ⟨-, -, -, -, hfollow, σ, τ, hrule, -, hparse⟩ :=
    hboth _ _ compile_sentences compile_sentencesBack
  exact ⟨hfollow, σ, τ, hrule, hparse _⟩

/-- The number of the state in which a token is refused is not the same in both orders. -/
theorem refused_in_different_states :
    sentences.WellFormed "$S" ∧ sentencesBack.WellFormed "$S" ∧
      sentences.Reordered sentencesBack ∧
      (compile sentences "$S").1 = .ok sentencesCompiled ∧
      (compile sentencesBack "$S").1 = .ok sentencesBackCompiled ∧
      ∀ σ : Nat → Nat, sentencesBackCompiled.parser.parse [⟨3, "a"⟩] ≠
        Parser.renameResult σ id (sentencesCompiled.parser.parse [⟨3, "a"⟩]) := by
  refine ⟨by decide +kernel, by decide +kernel, sentences_reordered, compile_sentences,
    compile_sentencesBack, fun σ hsame => ?_⟩
  have hfirst : sentencesCompiled.parser.parse [⟨3, "a"⟩] =
      .error (.parse endToken 1 ["x"]) := by decide +kernel
  have hsecond : sentencesBackCompiled.parser.parse [⟨3, "a"⟩] =
      .error (.parse endToken 2 ["x"]) := by decide +kernel
  rw [hfirst, hsecond] at hsame
  simp [Parser.renameResult, refusalRename] at hsame

end ParseBench.Grammar
