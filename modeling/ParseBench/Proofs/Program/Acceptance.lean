/-
  ParseBench.Proofs.Program.Acceptance

  Which programs a compiled grammar file encodes. A program is read token by token
  (`tokenize_eq_ok_iff`), and the first token that stands for no terminal is the answer
  when there is one (`tokenize_eq_error_iff`). What is left goes to the parser, which
  accepts it just when the rules of the file derive it: rules that cleaning dropped take
  part in no derivation of a token list (`derivable_iff_derives`). The tokens are those
  before and after the end of the input to the parser, so none of them may stand for the
  end itself; a token without spaces does not, unless a class is named so
  (`terminal_ne_endId`).
-/

import Mathlib
import ParseBench.Json.Reading
import ParseBench.Proofs.Grammar.Language
import ParseBench.Proofs.Parser.Errors
import ParseBench.Proofs.Parser.Listing
import ParseBench.Proofs.Parser.Rebuild
import ParseBench.Proofs.Program.Classes

namespace ParseBench

open Grammar

/-! ## One element after the other -/

section Traversal

variable {ε α β : Type} {f : α → Except ε β}

theorem mapM_eq_ok_iff {l : List α} {r : List β} :
    l.mapM f = .ok r ↔ List.Forall₂ (fun a b => f a = .ok b) l r := by
  induction l generalizing r with
  | nil => cases r <;> simp [pure, Except.pure]
  | cons a l ih =>
      rw [List.mapM_cons]
      cases ha : f a with
      | error e => cases r <;> simp [bind, Except.bind, ha]
      | ok b =>
          cases hl : l.mapM f with
          | error e => cases r <;> simp [bind, Except.bind, ← ih, hl]
          | ok bs => cases r <;> simp [bind, Except.bind, pure, Except.pure, ← ih, hl, ha]

/-- The answer is an error when it is that of the first element that has one. -/
theorem mapM_eq_error_iff {l : List α} {e : ε} :
    l.mapM f = .error e ↔ ∃ read a rest, l = read ++ a :: rest ∧
      (∀ x ∈ read, ∃ b, f x = .ok b) ∧ f a = .error e := by
  induction l with
  | nil => simp [pure, Except.pure]
  | cons a l ih =>
      rw [List.mapM_cons]
      cases ha : f a with
      | error e' =>
          constructor
          · intro h
            cases h
            exact ⟨[], a, l, rfl, by simp, ha⟩
          · rintro ⟨read, x, rest, hl, hread, hx⟩
            cases read with
            | nil =>
                cases hl
                rw [ha] at hx
                cases hx
                rfl
            | cons y read =>
                cases hl
                obtain ⟨b, hb⟩ := hread a List.mem_cons_self
                rw [ha] at hb
                cases hb
      | ok b =>
          have hrest : (do let bs ← l.mapM f; pure (b :: bs) : Except ε (List β)) = .error e ↔
              l.mapM f = .error e := by
            cases l.mapM f <;> simp [bind, Except.bind, pure, Except.pure]
          refine Iff.trans hrest (ih.trans ?_)
          constructor
          · rintro ⟨read, x, rest, rfl, hread, hx⟩
            exact ⟨a :: read, x, rest, rfl, List.forall_mem_cons.2 ⟨⟨b, ha⟩, hread⟩, hx⟩
          · rintro ⟨read, x, rest, hl, hread, hx⟩
            cases read with
            | nil =>
                cases hl
                rw [ha] at hx
                cases hx
            | cons y read =>
                cases hl
                exact ⟨read, x, rest, rfl, (List.forall_mem_cons.1 hread).2, hx⟩

end Traversal

/-! ## The rules of a file -/

namespace GrammarFile

variable {f : GrammarFile} {rules : RuleSet}

/-- A file as it is meant to be written, with its rules read: left-hand sides and start symbol
    are non-terminals and not the root symbol, no alternative mentions the end of the input,
    and no class is named like a reserved token. -/
structure WellFormed (f : GrammarFile) (rules : RuleSet) : Prop where
  lhs_nonterminal : ∀ group ∈ rules, isNonterminal group.lhs = true
  start_nonterminal : isNonterminal f.start = true
  lhs_ne_root : ∀ group ∈ rules, group.lhs ≠ rootSymbol
  end_not_mem : ∀ group ∈ rules, ∀ rhs ∈ group.alternatives, endToken ∉ rhs
  tokenClass_not_reserved : ∀ c ∈ f.tokenClasses, c.1 ∉ reservedTokens
  leadClass_not_reserved : ∀ c ∈ f.leadClasses, c.1 ∉ reservedTokens

instance (f : GrammarFile) (rules : RuleSet) : Decidable (f.WellFormed rules) :=
  decidable_of_iff
    ((∀ group ∈ rules, isNonterminal group.lhs = true) ∧ isNonterminal f.start = true ∧
      (∀ group ∈ rules, group.lhs ≠ rootSymbol) ∧
      (∀ group ∈ rules, ∀ rhs ∈ group.alternatives, endToken ∉ rhs) ∧
      (∀ c ∈ f.tokenClasses, c.1 ∉ reservedTokens) ∧ ∀ c ∈ f.leadClasses, c.1 ∉ reservedTokens)
    ⟨fun h => ⟨h.1, h.2.1, h.2.2.1, h.2.2.2.1, h.2.2.2.2.1, h.2.2.2.2.2⟩,
      fun h => ⟨h.lhs_nonterminal, h.start_nonterminal, h.lhs_ne_root, h.end_not_mem,
        h.tokenClass_not_reserved, h.leadClass_not_reserved⟩⟩

/-- Reading the alternatives leaves the left-hand sides as they are. -/
theorem lefts_of_ruleSet (h : f.ruleSet = .ok rules) : rules.lefts = f.rules.map Prod.fst := by
  have hlefts : List.Forall₂ (fun rule (group : RuleGroup) => rule.1 = group.lhs)
      f.rules rules := by
    refine (mapM_eq_ok_iff.1 h).imp fun rule grp hgroup => ?_
    unfold group at hgroup
    split at hgroup
    · cases hgroup
      rfl
    · cases hgroup
  rw [RuleSet.lefts]
  have hmap := List.forall₂_map_left_iff.2 (List.forall₂_map_right_iff.2 hlefts)
  rw [List.forall₂_eq_eq_eq] at hmap
  exact hmap.symm

theorem nodup_of_ruleSet (hf : f.Tabular) (h : f.ruleSet = .ok rules) : rules.lefts.Nodup := by
  rw [lefts_of_ruleSet h]
  exact hf.nodup_rules

theorem WellFormed.ruleSet (h : f.WellFormed rules) (hf : f.Tabular)
    (hrules : f.ruleSet = .ok rules) : rules.WellFormed f.start where
  nodup := nodup_of_ruleSet hf hrules
  lhs_nonterminal := h.lhs_nonterminal
  start_nonterminal := h.start_nonterminal
  lhs_ne_root := h.lhs_ne_root
  end_not_mem := h.end_not_mem

end GrammarFile

/-! ## The input of the parser -/

namespace Grammar.Parser

variable {p : Parser}

theorem Lawful.terminalId?_eq_some_iff (hp : p.Lawful) {s : Symbol} {id : Nat} :
    p.terminalId? s = some id ↔ p.terminals[id]? = some s :=
  terminalId?_eq_some_iff_of_disjoint hp.nodup_terminals fun _ => hp.not_mem_nonterminals

theorem Lawful.terminalId?_eq_none_iff (hp : p.Lawful) {s : Symbol} :
    p.terminalId? s = none ↔ s ∉ p.terminals := by
  rw [← Array.mem_toList_iff]
  refine eq_none_iff_not_mem fun id => ?_
  rw [Array.getElem?_toList]
  exact hp.terminalId?_eq_some_iff

end Grammar.Parser

namespace ProgramGrammar

variable {g : ProgramGrammar} {p : Program}

theorem inputToken_eq_ok_iff (hp : g.parser.Lawful) {token : String} {t : Token} :
    g.inputToken token = .ok t ↔
      t.text = token ∧ g.parser.terminals[t.terminal]? = some (g.classify token) := by
  rw [← hp.terminalId?_eq_some_iff]
  unfold inputToken
  split
  · next id hid =>
      rw [hid, Except.ok.injEq, Option.some.injEq]
      constructor
      · rintro rfl
        exact ⟨rfl, rfl⟩
      · rintro ⟨rfl, rfl⟩
        rfl
  · next hnone => simp [hnone]

theorem exists_inputToken_iff (hp : g.parser.Lawful) {token : String} :
    (∃ t, g.inputToken token = .ok t) ↔ g.classify token ∈ g.parser.terminals := by
  rw [Array.mem_iff_getElem?]
  constructor
  · rintro ⟨t, ht⟩
    exact ⟨t.terminal, ((inputToken_eq_ok_iff hp).1 ht).2⟩
  · rintro ⟨id, hid⟩
    exact ⟨⟨id, token⟩, (inputToken_eq_ok_iff hp).2 ⟨rfl, hid⟩⟩

theorem inputToken_eq_error_iff (hp : g.parser.Lawful) {token : String} {e : GrammarError} :
    g.inputToken token = .error e ↔
      g.classify token ∉ g.parser.terminals ∧ e = .unknownToken token := by
  rw [← hp.terminalId?_eq_none_iff]
  unfold inputToken
  split
  · next id hid => simp [hid]
  · next hnone => simp [hnone, eq_comm]

/-- The input tokens have the texts of the program's tokens and the ids of what these stand
    for. -/
theorem tokenize_eq_ok_iff (hp : g.parser.Lawful) {tokens : List Token} :
    g.tokenize p = .ok tokens ↔
      tokens.map Token.text = g.prepare p ∧
        g.parser.Spells (tokens.map Token.terminal) ((g.prepare p).map g.classify) := by
  rw [tokenize, mapM_eq_ok_iff]
  simp only [inputToken_eq_ok_iff hp, Parser.Spells]
  generalize g.prepare p = words
  induction tokens generalizing words with
  | nil => cases words <;> simp
  | cons t tokens ih =>
      cases words with
      | nil => simp
      | cons word words =>
          rw [List.forall₂_cons, ih]
          simp only [List.map_cons, List.cons.injEq]
          tauto

/-- A program is refused for its first token that stands for no terminal. -/
theorem tokenize_eq_error_iff (hp : g.parser.Lawful) {e : GrammarError} :
    g.tokenize p = .error e ↔ ∃ read token rest, g.prepare p = read ++ token :: rest ∧
      (∀ t ∈ read, g.classify t ∈ g.parser.terminals) ∧
      g.classify token ∉ g.parser.terminals ∧ e = .unknownToken token := by
  rw [tokenize, mapM_eq_error_iff]
  simp only [exists_inputToken_iff hp, inputToken_eq_error_iff hp]

end ProgramGrammar

/-! ## The end of the input -/

theorem Text.mem_of_mem_beforeLast? {α : Type} [DecidableEq α] {sep a : α} {s front : List α}
    (h : beforeLast? sep s = some front) (ha : a ∈ front) : a ∈ s := by
  obtain ⟨back, rfl, -⟩ := beforeLast?_eq_some_iff.1 h
  exact List.mem_append_left _ ha

namespace ProgramGrammar

variable {f : GrammarFile} {rules : RuleSet} {kind : Kind} {g : ProgramGrammar} {p : Program}

/-- Splitting off devices brings in no spaces. -/
theorem space_not_mem_of_mem_prepare (hp : ∀ token ∈ p, ' ' ∉ token.toList) :
    ∀ token ∈ g.prepare p, ' ' ∉ token.toList := by
  unfold prepare
  split
  · intro device hdevice
    obtain ⟨token, htoken, hmem⟩ := List.mem_flatMap.1 hdevice
    rcases List.mem_append.1 hmem with hsplit | hsame
    · have hspace := hp token htoken
      rw [Option.mem_toList, Program.deviceOf?] at hsplit
      split at hsplit
      · cases hsplit
      · next name _ hname =>
          obtain ⟨front, hfront, rfl⟩ := Option.map_eq_some_iff.1 hsplit
          rw [hname] at hspace
          intro hin
          simp only [String.toList_ofList, List.mem_cons] at hin
          rcases hin with hin | hin | hin
          · cases hin
          · cases hin
          · exact hspace (List.mem_cons_of_mem _ (Text.mem_of_mem_beforeLast? hfront hin))
      · cases hsplit
    · rw [List.mem_singleton.1 hsame]
      exact hp token htoken
  · exact hp

/-- A token without spaces does not stand for a reserved token. -/
theorem classify_not_reserved (h : f.WellFormed rules) (hf : f.Tabular)
    (hg : (ofFile f kind).1 = .ok g) {token : String} (hspace : ' ' ∉ token.toList) :
    g.classify token ∉ reservedTokens := by
  have hstands : f.StandsFor token (g.classify token) := (classify_eq_iff hf hg).1 rfl
  generalize g.classify token = s at hstands ⊢
  cases hstands with
  | listed hc _ _ => exact h.tokenClass_not_reserved _ hc
  | led _ hc _ _ => exact h.leadClass_not_reserved _ hc
  | itself _ _ =>
      have hreserved : ∀ s ∈ reservedTokens, ' ' ∈ s.toList := by decide +kernel
      exact fun hmem => hspace (hreserved _ hmem)

/-- So the input tokens of a program without spaces do not end the input. -/
theorem terminal_ne_endId (h : f.WellFormed rules) (hf : f.Tabular)
    (hg : (ofFile f kind).1 = .ok g) (hparser : g.parser.Lawful)
    (hp : ∀ token ∈ p, ' ' ∉ token.toList) {tokens : List Token}
    (htokens : g.tokenize p = .ok tokens) : ∀ token ∈ tokens, token.terminal ≠ endId := by
  intro t ht hend
  obtain ⟨word, hword, htoken⟩ := exists_left_of_forall₂ (mapM_eq_ok_iff.1 htokens) ht
  obtain ⟨-, hid⟩ := (inputToken_eq_ok_iff hparser).1 htoken
  rw [hend, hparser.getElem?_endId, Option.some.injEq] at hid
  refine classify_not_reserved h hf hg (space_not_mem_of_mem_prepare hp word hword) ?_
  rw [← hid]
  decide

end ProgramGrammar

/-! ## Derivations with the rules of the file -/

namespace Grammar.Parser

theorem Spells.right_unique {p : Parser} {ids : List Nat} {symbols symbols' : List Symbol}
    (h : p.Spells ids symbols) (h' : p.Spells ids symbols') : symbols = symbols' := by
  rw [Spells, h] at h'
  exact List.map_injective_iff.2 (Option.some_injective _) h'

theorem Lawful.isTerminal_of_spells {p : Parser} (hp : p.Lawful) {ids : List Nat}
    {symbols : List Symbol} (h : p.Spells ids symbols) :
    ∀ s ∈ symbols, isNonterminal s = false := by
  intro s hs
  have hmem : some s ∈ ids.map fun id => p.terminals[id]? := by
    rw [h]
    exact List.mem_map_of_mem hs
  obtain ⟨id, -, hid⟩ := List.mem_map.1 hmem
  exact hp.isTerminal id s hid

/-- The parser of a compiled rule set accepts what its rules derive, also with the rules that
    cleaning has dropped. -/
theorem derivable_iff_derives {g : RuleSet} {start : Symbol} {c : Compiled}
    (hg : g.WellFormed start) (hc : (compile g start).1 = .ok c) {ids : List Nat}
    {symbols : List Symbol} (hspells : c.parser.Spells ids symbols) :
    c.parser.Derivable ids ↔ Derives g.rules [start] symbols := by
  have hp := lawful_of_compile hg hc
  obtain ⟨cleaned, hclean, -⟩ := compile_ok_iff.1 hc
  have hrules := parser_rules_of_compile hclean hc
  obtain ⟨rfl, -⟩ := hg.eq_survivors hclean
  unfold Derivable
  rw [hrules, parser_start hc]
  constructor
  · rintro ⟨symbols', hspells', hderives⟩
    rw [hspells.right_unique hspells']
    exact hderives.mono fun r hr => (mem_rules_survivors.1 hr).mem
  · intro hderives
    refine ⟨symbols, hspells, ?_⟩
    refine derives_survivors hg.nodup_lefts hg.lefts_nonterminal (hp.isTerminal_of_spells hspells)
      hderives fun s hs => ?_
    rw [List.mem_singleton.1 hs]
    exact .refl

end Grammar.Parser

/-! ## Encodings -/

/-- The rules of a parse tree in a direction. -/
def Direction.listing : Direction → ParseTree → List Nat
  | .bottomUp, t => reductions t.postorder
  | .topDown, t => t.preorder

namespace ProgramGrammar

variable {g : ProgramGrammar} {p : Program}

theorem encode_of_parse_error {tokens : List Token} (htokens : g.tokenize p = .ok tokens)
    {e : GrammarError} (h : g.parser.parse tokens = .error e) : g.encode p = .error e := by
  unfold encode
  rw [htokens]
  cases hdirection : g.kind.direction with
  | bottomUp => simp [bind, Except.bind, h, Except.map]
  | topDown => exact Parser.parseDown_of_error h

/-- The encoding of a program lists its parse tree in the direction of the grammar. -/
theorem encode_of_isTree (hparser : g.parser.Lawful) (hstart : isNonterminal g.parser.start = true)
    {tokens : List Token} (htokens : g.tokenize p = .ok tokens) {t : ParseTree}
    (ht : g.parser.IsTree g.parser.start t) (hleaves : t.leaves = tokens) :
    g.encode p = .ok (g.kind.direction.listing t) := by
  have hparse : g.parser.parse tokens = .ok t.postorder := by
    rw [← hleaves]
    exact Parser.parse_leaves hparser ht
  unfold encode
  rw [htokens]
  cases hdirection : g.kind.direction with
  | bottomUp => simp [bind, Except.bind, hparse, Except.map, Direction.listing]
  | topDown => exact Parser.parseDown_of_parse hstart (ht.fits hparser) hparse

/-- What is encoded has a parse tree with the program at its leaves. -/
theorem encode_eq_ok_iff (hparser : g.parser.Lawful) (hstart : isNonterminal g.parser.start = true)
    {tokens : List Token} (htokens : g.tokenize p = .ok tokens)
    (hend : ∀ token ∈ tokens, token.terminal ≠ endId) {ids : List Nat} :
    g.encode p = .ok ids ↔ ∃ t, g.parser.IsTree g.parser.start t ∧ t.leaves = tokens ∧
      ids = g.kind.direction.listing t := by
  constructor
  · intro hencode
    cases hparse : g.parser.parse tokens with
    | error e =>
        rw [encode_of_parse_error htokens hparse] at hencode
        cases hencode
    | ok steps =>
        obtain ⟨t, ht, hleaves, -⟩ := Parser.exists_tree_of_parse_ok hparser hend hparse
        rw [encode_of_isTree hparser hstart htokens ht hleaves] at hencode
        cases hencode
        exact ⟨t, ht, hleaves, rfl⟩
  · rintro ⟨t, ht, hleaves, rfl⟩
    exact encode_of_isTree hparser hstart htokens ht hleaves

theorem encode_of_tokenize_error {e : GrammarError} (h : g.tokenize p = .error e) :
    g.encode p = .error e := by
  rw [encode, h]
  rfl

theorem vectorize_eq_ok_iff {maxLength : Nat} {ids : List Nat} :
    g.vectorize p maxLength = .ok ids ↔ ∃ all, g.encode p = .ok all ∧ ids = all.take maxLength := by
  unfold vectorize
  cases g.encode p with
  | error e => simp [Except.map]
  | ok all => simp [Except.map, eq_comm]

theorem vectorize_eq_error_iff {maxLength : Nat} {e : GrammarError} :
    g.vectorize p maxLength = .error e ↔ g.encode p = .error e := by
  unfold vectorize
  cases g.encode p with
  | error e => simp [Except.map]
  | ok all => simp [Except.map]

/-- What is encoded was parsed. The encoding has as many rules as the parser has reductions;
    from the root down that rests on what the rules are. -/
theorem exists_parse_of_encode {ids : List Nat} (h : g.encode p = .ok ids) :
    ∃ tokens steps, g.tokenize p = .ok tokens ∧ g.parser.parse tokens = .ok steps ∧
      (g.kind.direction = .bottomUp ∨
          g.parser.Lawful ∧ isNonterminal g.parser.start = true →
        ids.length = (reductions steps).length) := by
  cases htokens : g.tokenize p with
  | error e =>
      rw [encode_of_tokenize_error htokens] at h
      cases h
  | ok tokens =>
      cases hparse : g.parser.parse tokens with
      | error e =>
          rw [encode_of_parse_error htokens hparse] at h
          cases h
      | ok steps =>
          refine ⟨tokens, steps, rfl, hparse, ?_⟩
          rw [encode, htokens] at h
          intro hlisted
          cases hdirection : g.kind.direction with
          | bottomUp =>
              simp only [hdirection, bind, Except.bind, hparse, Except.map, Except.ok.injEq] at h
              rw [← h]
          | topDown =>
              -- the listing from the root down is right only for what is a tree of the rules
              obtain ⟨hparser, hstart⟩ := hlisted.resolve_left (by rw [hdirection]; exact nofun)
              obtain ⟨t, ht, -, rfl⟩ := Parser.exists_tree_untilEnd hparser hparse
              have hdown := Parser.parseDown_of_parse hstart (ht.fits hparser) hparse
              simp only [hdirection, bind, Except.bind, hdown, Except.ok.injEq] at h
              rw [← h]
              exact t.preorder_perm.length_eq

/-! ## The programs that are encoded -/

variable {f : GrammarFile} {rules : RuleSet} {kind : Kind}

theorem forall₂_standsFor_iff (hf : f.Tabular) (hg : (ofFile f kind).1 = .ok g)
    {words : List String} {symbols : List Symbol} :
    List.Forall₂ f.StandsFor words symbols ↔ symbols = words.map g.classify := by
  have hstands : f.StandsFor = fun token s => g.classify token = s := by
    funext token s
    exact propext (classify_eq_iff hf hg).symm
  rw [hstands, eq_comm, ← List.forall₂_eq_eq_eq, List.forall₂_map_left_iff]

/-- The parser of a file is that of its rules. -/
theorem exists_compiled_of_ofFile (hrules : f.ruleSet = .ok rules)
    (hg : (ofFile f kind).1 = .ok g) :
    ∃ c : Compiled, (compile rules f.start).1 = .ok c ∧ g.parser = c.parser := by
  obtain ⟨rules', c, hrules', hc, hgc⟩ := ofFile_ok_iff.1 hg
  rw [hrules, Except.ok.injEq] at hrules'
  rw [← hrules'] at hc
  exact ⟨c, hc, by rw [hgc]⟩

theorem lawful_of_ofFile (hwell : rules.WellFormed f.start) (hrules : f.ruleSet = .ok rules)
    (hg : (ofFile f kind).1 = .ok g) : g.parser.Lawful ∧ g.parser.start = f.start := by
  obtain ⟨c, hc, hparser⟩ := exists_compiled_of_ofFile hrules hg
  rw [hparser]
  exact ⟨lawful_of_compile hwell hc, parser_start hc⟩

/-- The parser of a file accepts what the rules of the file derive. -/
theorem parser_of_ofFile (htab : f.Tabular) (hrules : f.ruleSet = .ok rules)
    (hf : f.WellFormed rules) (hg : (ofFile f kind).1 = .ok g) :
    g.parser.Lawful ∧ g.parser.start = f.start ∧
      ∀ ids symbols, g.parser.Spells ids symbols →
        (g.parser.Derivable ids ↔ Derives rules.rules [f.start] symbols) := by
  have hwell := hf.ruleSet htab hrules
  obtain ⟨hlawful, hstart⟩ := lawful_of_ofFile hwell hrules hg
  obtain ⟨c, hc, hparser⟩ := exists_compiled_of_ofFile hrules hg
  refine ⟨hlawful, hstart, fun ids symbols hspells => ?_⟩
  rw [hparser] at hspells ⊢
  exact Parser.derivable_iff_derives hwell hc hspells

/-- All tokens are read when they stand for terminals. -/
theorem exists_tokenize_ok_iff (hparser : g.parser.Lawful) :
    (∃ tokens, g.tokenize p = .ok tokens) ↔
      ∀ token ∈ g.prepare p, g.classify token ∈ g.parser.terminals := by
  constructor
  · rintro ⟨tokens, htokens⟩ token htoken
    obtain ⟨t, -, ht⟩ := exists_left_of_forall₂ (mapM_eq_ok_iff.1 htokens).flip htoken
    exact (exists_inputToken_iff hparser).1 ⟨t, ht⟩
  · intro hall
    cases htokens : g.tokenize p with
    | ok tokens => exact ⟨tokens, rfl⟩
    | error e =>
        obtain ⟨read, token, rest, hsplit, -, hnot, -⟩ := (tokenize_eq_error_iff hparser).1 htokens
        refine absurd (hall token ?_) hnot
        rw [hsplit]
        exact List.mem_append_right _ List.mem_cons_self

theorem exists_encode_ok_iff (htab : f.Tabular) (hrules : f.ruleSet = .ok rules)
    (hf : f.WellFormed rules) (hg : (ofFile f kind).1 = .ok g)
    (hp : ∀ token ∈ p, ' ' ∉ token.toList) :
    (∃ ids, g.encode p = .ok ids) ↔
      (∀ token ∈ g.prepare p, g.classify token ∈ g.parser.terminals) ∧
        Derives rules.rules [f.start] ((g.prepare p).map g.classify) := by
  obtain ⟨hparser, hstart, hderivable⟩ := parser_of_ofFile htab hrules hf hg
  have hnt : isNonterminal g.parser.start = true := by
    rw [hstart]
    exact hf.start_nonterminal
  rw [← exists_tokenize_ok_iff hparser]
  cases htokens : g.tokenize p with
  | error e =>
      rw [encode_of_tokenize_error htokens]
      simp
  | ok tokens =>
      have hend := terminal_ne_endId hf htab hg hparser hp htokens
      obtain ⟨-, hspells⟩ := (tokenize_eq_ok_iff hparser).1 htokens
      rw [← hderivable _ _ hspells, Parser.derivable_iff]
      simp only [encode_eq_ok_iff hparser hnt htokens hend]
      constructor
      · rintro ⟨-, t, ht, hleaves, -⟩
        exact ⟨⟨tokens, rfl⟩, t, ht, hleaves⟩
      · rintro ⟨-, t, ht, hleaves⟩
        exact ⟨_, t, ht, hleaves, rfl⟩

theorem vectorize_of_tokenize_error {e : GrammarError} (h : g.tokenize p = .error e)
    (maxLength : Nat) : g.vectorize p maxLength = .error e :=
  vectorize_eq_error_iff.2 (encode_of_tokenize_error h)

theorem exists_vectorize_ok_iff (htab : f.Tabular) (hrules : f.ruleSet = .ok rules)
    (hf : f.WellFormed rules) (hg : (ofFile f kind).1 = .ok g)
    (hp : ∀ token ∈ p, ' ' ∉ token.toList) {maxLength : Nat} :
    (∃ ids, g.vectorize p maxLength = .ok ids) ↔
      ∃ symbols, List.Forall₂ f.StandsFor (g.prepare p) symbols ∧
        (∀ s ∈ symbols, s ∈ g.parser.terminals) ∧ Derives rules.rules [f.start] symbols := by
  have hencode : (∃ ids, g.vectorize p maxLength = .ok ids) ↔ ∃ all, g.encode p = .ok all := by
    simp only [vectorize_eq_ok_iff]
    constructor
    · rintro ⟨_, all, hall, -⟩
      exact ⟨all, hall⟩
    · rintro ⟨all, hall⟩
      exact ⟨_, all, hall, rfl⟩
  rw [hencode, exists_encode_ok_iff htab hrules hf hg hp]
  simp only [forall₂_standsFor_iff htab hg, exists_eq_left, List.forall_mem_map]

/-- The first token that stands for no terminal is named. -/
theorem vectorize_of_first_unknown (htab : f.Tabular) (hg : (ofFile f kind).1 = .ok g)
    (hparser : g.parser.Lawful) {read rest : List String} {token : String}
    (hsplit : g.prepare p = read ++ token :: rest)
    (hread : ∀ t ∈ read, ∃ s ∈ g.parser.terminals, f.StandsFor t s)
    (hnot : ∀ s, f.StandsFor token s → s ∉ g.parser.terminals) (maxLength : Nat) :
    g.vectorize p maxLength = .error (.unknownToken token) := by
  refine vectorize_of_tokenize_error ((tokenize_eq_error_iff hparser).2
    ⟨read, token, rest, hsplit, ?_, ?_, rfl⟩) maxLength
  · intro t ht
    obtain ⟨s, hs, hfor⟩ := hread t ht
    rwa [(classify_eq_iff htab hg).2 hfor]
  · exact hnot _ ((classify_eq_iff htab hg).1 rfl)

theorem exists_unknown_of_not_terminal (hparser : g.parser.Lawful) {token : String}
    (htoken : token ∈ g.prepare p) (hnot : g.classify token ∉ g.parser.terminals)
    (maxLength : Nat) :
    ∃ unknown ∈ g.prepare p, g.vectorize p maxLength = .error (.unknownToken unknown) := by
  cases htokens : g.tokenize p with
  | ok tokens =>
      have hall := (exists_tokenize_ok_iff hparser).1 ⟨tokens, htokens⟩
      exact absurd (hall token htoken) hnot
  | error e =>
      obtain ⟨read, unknown, rest, hsplit, -, -, rfl⟩ := (tokenize_eq_error_iff hparser).1 htokens
      refine ⟨unknown, ?_, vectorize_of_tokenize_error htokens maxLength⟩
      rw [hsplit]
      exact List.mem_append_right _ List.mem_cons_self

/-- A token that no class takes is itself, and so no terminal when it is spelled like what is
    none. -/
theorem not_terminal_of_spelled (htab : f.Tabular) (hf : f.WellFormed rules)
    (hg : (ofFile f kind).1 = .ok g) (hparser : g.parser.Lawful) {token : String}
    (hspace : ' ' ∉ token.toList) (hlists : ¬ f.Lists token) (hleads : ¬ f.Leads token)
    (hspelled : isNonterminal token = true ∨ token ∈ reservedTokens) :
    g.classify token ∉ g.parser.terminals := by
  have hself : g.classify token = token := (classify_eq_iff htab hg).2 (.itself hlists hleads)
  rcases hspelled with hnonterminal | hreserved
  · rw [hself, Array.mem_iff_getElem?]
    rintro ⟨id, hid⟩
    rw [hparser.isTerminal id token hid] at hnonterminal
    cases hnonterminal
  · rw [← hself] at hreserved
    exact absurd hreserved (classify_not_reserved hf htab hg hspace)

theorem exists_tree_of_vectorize (htab : f.Tabular) (hrules : f.ruleSet = .ok rules)
    (hf : f.WellFormed rules) (hg : (ofFile f kind).1 = .ok g)
    (hp : ∀ token ∈ p, ' ' ∉ token.toList) {maxLength : Nat} {ids : List Nat}
    (h : g.vectorize p maxLength = .ok ids) :
    ∃ t, g.parser.IsTree f.start t ∧ t.leaves.map Token.text = g.prepare p ∧
      ids = (kind.direction.listing t).take maxLength := by
  obtain ⟨hparser, hstart, -⟩ := parser_of_ofFile htab hrules hf hg
  have hkind : g.kind = kind := by
    obtain ⟨_, _, -, -, rfl⟩ := ofFile_ok_iff.1 hg
    rfl
  have hnt : isNonterminal g.parser.start = true := by
    rw [hstart]
    exact hf.start_nonterminal
  obtain ⟨all, hall, rfl⟩ := vectorize_eq_ok_iff.1 h
  cases htokens : g.tokenize p with
  | error e =>
      rw [encode_of_tokenize_error htokens] at hall
      cases hall
  | ok tokens =>
      have hend := terminal_ne_endId hf htab hg hparser hp htokens
      obtain ⟨t, ht, rfl, rfl⟩ := (encode_eq_ok_iff hparser hnt htokens hend).1 hall
      rw [hstart] at ht
      rw [hkind]
      exact ⟨t, ht, ((tokenize_eq_ok_iff hparser).1 htokens).1, rfl⟩

/-- A program whose tokens have no spaces is encoded just when all its tokens stand for
    terminals and the rules of the file derive these. Otherwise the first token that stands for
    no terminal is named, if there is one; a token that no class takes is such a token when it
    is spelled like a non-terminal or like a reserved token. The encoding lists a parse tree with
    all tokens of the program at its leaves. -/
theorem vectorize_accepts_derivable {json : Json.Reader} {text : String}
    (htext : GrammarFile.ofText? json text = some f)
    (hrules : f.ruleSet = .ok rules) (hf : f.WellFormed rules) (hg : (ofFile f kind).1 = .ok g)
    (hp : ∀ token ∈ p, ' ' ∉ token.toList) (maxLength : Nat) :
    ((∃ ids, g.vectorize p maxLength = .ok ids) ↔
        ∃ symbols, List.Forall₂ f.StandsFor (g.prepare p) symbols ∧
          (∀ s ∈ symbols, s ∈ g.parser.terminals) ∧ Derives rules.rules [f.start] symbols) ∧
      (∀ read token rest, g.prepare p = read ++ token :: rest →
        (∀ t ∈ read, ∃ s ∈ g.parser.terminals, f.StandsFor t s) →
        (∀ s, f.StandsFor token s → s ∉ g.parser.terminals) →
        g.vectorize p maxLength = .error (.unknownToken token)) ∧
      (∀ token ∈ g.prepare p, ¬ f.Lists token → ¬ f.Leads token →
        isNonterminal token = true ∨ token ∈ reservedTokens →
        ∃ unknown ∈ g.prepare p, g.vectorize p maxLength = .error (.unknownToken unknown)) ∧
      ∀ ids, g.vectorize p maxLength = .ok ids → ∃ t, g.parser.IsTree f.start t ∧
        t.leaves.map Token.text = g.prepare p ∧
        ids = (kind.direction.listing t).take maxLength := by
  have htab := GrammarFile.tabular_of_ofText? htext
  obtain ⟨hparser, -, -⟩ := parser_of_ofFile htab hrules hf hg
  refine ⟨exists_vectorize_ok_iff htab hrules hf hg hp, ?first, ?spelled, ?tree⟩
  case first =>
    intro read token rest hsplit hread hnot
    exact vectorize_of_first_unknown htab hg hparser hsplit hread hnot maxLength
  case spelled =>
    intro token htoken hlists hleads hspelled
    have hspace := space_not_mem_of_mem_prepare hp token htoken
    have hnot := not_terminal_of_spelled htab hf hg hparser hspace hlists hleads hspelled
    exact exists_unknown_of_not_terminal hparser htoken hnot maxLength
  case tree =>
    intro ids hids
    exact exists_tree_of_vectorize htab hrules hf hg hp hids

/-- A grammar file with classes of both sorts. -/
def callsText : String :=
  "\x7b\"start\":\"$Call\",\"rules\":\x7b\"$Call\":[[\"DEV\",\"FN\"]]\x7d," ++
    "\"terminal_classes\":\x7b\"FN\":[\"$Call\"]\x7d," ++
    "\"prefix_classes\":\x7b\"DEV\":\"@@\",\"FN\":\"@\"\x7d\x7d"

def callsFile : GrammarFile where
  start := "$Call"
  rules := [("$Call", .array [.array [.string "DEV", .string "FN"]])]
  tokenClasses := [("FN", ["$Call"])]
  leadClasses := [("DEV", "@@"), ("FN", "@")]

theorem ofText?_calls : GrammarFile.ofText? Json.Tree.ofText? callsText = some callsFile := by cbv

def callsRules : RuleSet := [⟨"$Call", [["DEV", "FN"]]⟩]

theorem ruleSet_calls : callsFile.ruleSet = .ok callsRules := by rfl

theorem calls_wellFormed : callsFile.WellFormed callsRules := by decide

/-- The grammar of the calls, from the root down and with devices split off. -/
def calls : ProgramGrammar :=
  (ofFile callsFile ⟨.topDown, true⟩).1.toOption.get (by decide +kernel)

theorem ofFile_calls : (ofFile callsFile ⟨.topDown, true⟩).1 = .ok calls :=
  eq_ok_of_toOption (Option.some_get _).symm

theorem vectorize_accepts_derivable_calls :
    calls.prepare ["@light.on"] = ["@@light", "@light.on"] ∧
      Derives callsRules.rules ["$Call"] ["DEV", "FN"] ∧
      calls.vectorize ["@light.on"] 60 = .ok [0] ∧
      calls.vectorize ["@light.on", "off", "on"] 60 = .error (.unknownToken "off") := by
  have hprepare : calls.prepare ["@light.on"] = ["@@light", "@light.on"] := by decide +kernel
  have hclassify : ["@@light", "@light.on"].map calls.classify = ["DEV", "FN"] := by decide +kernel
  have hids : calls.vectorize ["@light.on"] 60 = .ok [0] := eq_ok_of_toOption (by decide +kernel)
  obtain ⟨haccepts, -⟩ := vectorize_accepts_derivable ofText?_calls ruleSet_calls
    calls_wellFormed ofFile_calls (p := ["@light.on"]) (by decide) 60
  obtain ⟨symbols, hstands, -, hderives⟩ := haccepts.1 ⟨_, hids⟩
  have htab := GrammarFile.tabular_of_ofText? ofText?_calls
  rw [forall₂_standsFor_iff htab ofFile_calls, hprepare, hclassify] at hstands
  rw [hstands] at hderives
  obtain ⟨-, hfirst, -⟩ := vectorize_accepts_derivable ofText?_calls ruleSet_calls
    calls_wellFormed ofFile_calls (p := ["@light.on", "off", "on"]) (by decide) 60
  refine ⟨hprepare, hderives, hids, hfirst ["@@light", "@light.on"] "off" ["on"] ?_ ?_ ?_⟩
  · decide +kernel
  · intro token htoken
    refine ⟨calls.classify token, ?_, (classify_eq_iff htab ofFile_calls).1 rfl⟩
    revert token
    decide +kernel
  · intro s hs
    rw [← (classify_eq_iff htab ofFile_calls).2 hs]
    decide +kernel

/-- A class may list a token that is spelled like a non-terminal. The token then gets through. -/
theorem vectorize_listed_nonterminal :
    GrammarFile.ofText? Json.Tree.ofText? callsText = some callsFile ∧
      callsFile.WellFormed callsRules ∧
      (ofFile callsFile ⟨.topDown, true⟩).1 = .ok calls ∧ isNonterminal "$Call" = true ∧
      calls.vectorize ["@@light", "$Call"] 60 = .ok [0] :=
  ⟨ofText?_calls, calls_wellFormed, ofFile_calls, by decide,
    eq_ok_of_toOption (by decide +kernel)⟩

end ProgramGrammar

end ParseBench
