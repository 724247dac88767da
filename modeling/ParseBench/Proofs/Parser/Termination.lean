/-
  ParseBench.Proofs.Parser.Termination

  The parser comes to an end on every token list, within its bound on turns.

  Only rules that rename a symbol leave the stack as high as it was. Where such
  rules form a cycle, nothing can follow its symbols: take the last step of a
  derivation that puts a terminal after one of them. The state in which that step
  has its symbol at the dot also holds the rules of the cycle, so after the symbol
  there are two actions on the terminal (`not_follows_of_cycle`). Hence each renaming leaves
  fewer symbols that can still be renamed to, and together with the unread tokens
  and the height of the stack this gives a number that every turn makes smaller
  (`exists_potential_lt`).
-/

import Mathlib.Data.Finset.Card
import ParseBench.Proofs.Parser.Machine

namespace ParseBench.Grammar

open Relation (ReflTransGen TransGen)

/-- A rule renames the symbol `a` to `b`: its right-hand side is `a` alone. -/
def Renames (rules : List Rule) (a b : Symbol) : Prop := ∃ r ∈ rules, r.lhs = b ∧ r.rhs = [a]

namespace Parser

variable {p : Parser}

namespace Lawful

/-! ## States for the symbols of the rules -/

/-- The dot of a rule that has begun can be moved to every place. -/
theorem exists_holds_dot (hp : p.Lawful) {q id dot : Nat} {r : Rule} (hr : p.rules[id]? = some r)
    (hi : Holds p.augmented q ⟨id, 0⟩) (hdot : dot ≤ r.rhs.length) :
    ∃ q', Holds p.augmented q' ⟨id, dot⟩ := by
  induction dot with
  | zero => exact ⟨q, hi⟩
  | succ dot ih =>
      obtain ⟨q', hq'⟩ := ih (by omega)
      have hsym : r.rhs[dot]? = some r.rhs[dot] := List.getElem?_eq_getElem (by omega)
      have hne : r.rhs[dot] ≠ endToken := by
        intro heq
        exact hp.augmentable.end_not_mem r (mem_rules hr) (heq ▸ List.getElem_mem _)
      obtain ⟨q'', -, hq''⟩ := hq'.exists_holds_succ
        (nextSymbol?_eq_some.2 ⟨r, augmented_of_getElem? hr, hsym⟩) hne
      exact ⟨q'', hq''⟩

/-- Every left-hand side stands at a dot in some state. -/
theorem exists_holds_before (hp : p.Lawful) {s : Symbol} (hs : isNonterminal s = true)
    (h : ReflTransGen (Uses p.rules.toList) p.start s) :
    ∃ q i, Holds p.augmented q i ∧ nextSymbol? p.augmented i = some s := by
  induction h with
  | refl =>
      exact ⟨0, ⟨p.rules.size, 0⟩, holds_zero_of_root augmented_root rfl,
        nextSymbol?_eq_some.2 ⟨_, augmented_root, rfl⟩⟩
  | @tail a b _ huses ih =>
      obtain ⟨r, hr, rfl, hb⟩ := huses
      have hlhs := hp.augmentable.lhs_nonterminal r hr
      obtain ⟨q, i, hi, hnext⟩ := ih hlhs
      obtain ⟨id, hid⟩ := exists_id hr
      obtain ⟨dot, hdot⟩ := List.getElem?_of_mem hb
      have hlt := (List.getElem?_eq_some_iff.1 hdot).1
      have hinitial := holds_initial (augmented_of_getElem? hid) hi hlhs hnext
      obtain ⟨q', hq'⟩ := hp.exists_holds_dot hid hinitial (Nat.le_of_lt hlt)
      exact ⟨q', ⟨id, dot⟩, hq', nextSymbol?_eq_some.2 ⟨r, augmented_of_getElem? hid, hdot⟩⟩

/-- Every non-terminal in a rule stands at the dot in some state. -/
theorem exists_holds_at (hp : p.Lawful) {r : Rule} {dot : Nat} {s : Symbol}
    (hr : r ∈ p.augmented) (hdot : r.rhs[dot]? = some s) (hs : isNonterminal s = true) :
    ∃ q id, p.augmented[id]? = some r ∧ Holds p.augmented q ⟨id, dot⟩ := by
  rcases mem_augment.1 hr with hbase | rfl
  · obtain ⟨id, hid⟩ := exists_id hbase
    have hlhs := hp.augmentable.lhs_nonterminal r hbase
    obtain ⟨q, i, hi, hnext⟩ := hp.exists_holds_before hlhs (hp.augmentable.reached r hbase)
    have hlt := (List.getElem?_eq_some_iff.1 hdot).1
    have hinitial := holds_initial (augmented_of_getElem? hid) hi hlhs hnext
    obtain ⟨q', hq'⟩ := hp.exists_holds_dot hid hinitial (Nat.le_of_lt hlt)
    exact ⟨q', id, augmented_of_getElem? hid, hq'⟩
  · -- in the root rule only the start symbol is a non-terminal
    match dot, hdot with
    | 0, _ => exact ⟨0, p.rules.size, augmented_root, holds_zero_of_root augmented_root rfl⟩
    | 1, hdot => exact absurd (Option.some.inj hdot).symm (ne_endToken hs)

/-! ## Cycles of renamings -/

/-- A state with a symbol at a dot reads every terminal that the symbol can begin with. -/
theorem exists_asks_of_begins {q : Nat} {i : Item} {s t : Symbol}
    (hi : Holds p.augmented q i) (hnext : nextSymbol? p.augmented i = some s)
    (h : Begins p.augmented s t) :
    ∃ action, Asks p.augmented q t action ∧ ∀ rule, action ≠ .reduce rule := by
  induction h generalizing i with
  | @terminal t _ =>
      by_cases hend : t = endToken
      · subst hend
        exact ⟨.accept, .accept rfl hi hnext, by simp⟩
      · obtain ⟨q', hq'⟩ := hi.exists_leads hnext hend
        exact ⟨.shift q', .shift hq', by simp⟩
  | @rule r s t hr hlhs hhead _ ih =>
      obtain ⟨id, hid⟩ := List.getElem?_of_mem hr
      rw [List.head?_eq_getElem?] at hhead
      exact ih (holds_initial hid hi hlhs hnext) (nextSymbol?_eq_some.2 ⟨r, hid, hhead⟩)

/-- In a state with a symbol at a dot, all symbols that can be renamed to it stand at
    dots as well. -/
theorem exists_holds_of_renames (hp : p.Lawful) {q : Nat} {a b : Symbol}
    (hb : ∃ i, Holds p.augmented q i ∧ nextSymbol? p.augmented i = some b)
    (h : ReflTransGen (Renames p.rules.toList) a b) :
    ∃ i, Holds p.augmented q i ∧ nextSymbol? p.augmented i = some a := by
  induction h using ReflTransGen.head_induction_on with
  | refl => exact hb
  | head hstep _ ih =>
      obtain ⟨i, hi, hnext⟩ := ih
      obtain ⟨r, hr, rfl, hrhs⟩ := hstep
      obtain ⟨id, hid⟩ := exists_id hr
      have hinitial := holds_initial (augmented_of_getElem? hid) hi
        (hp.augmentable.lhs_nonterminal r hr) hnext
      exact ⟨⟨id, 0⟩, hinitial,
        nextSymbol?_eq_some.2 ⟨r, augmented_of_getElem? hid, by rw [hrhs]; rfl⟩⟩

/-- What follows a symbol follows all symbols that can be renamed to it. -/
theorem follows_of_renames (hp : p.Lawful) {a b t : Symbol} (ha : isNonterminal a = true)
    (h : ReflTransGen (Renames p.rules.toList) a b) (ht : Follows p.augmented b t) :
    Follows p.augmented a t := by
  induction h using ReflTransGen.head_induction_on with
  | refl => exact ht
  | head hstep _ ih =>
      obtain ⟨r, hr, rfl, hrhs⟩ := hstep
      refine .last (mem_augment.2 (.inl hr)) ha (by rw [hrhs]; rfl) (ih ?_)
      exact hp.augmentable.lhs_nonterminal r hr

/-- After a symbol on a cycle of renamings, the state applies a rule of the cycle on all
    that follows the symbol. -/
theorem exists_asks_of_cycle (hp : p.Lawful) {q q' : Nat} {i : Item} {a b t : Symbol}
    (hi : Holds p.augmented q i) (hnext : nextSymbol? p.augmented i = some a)
    (hleads : Leads p.augmented q a q') (ht : Follows p.augmented a t)
    (hab : Renames p.rules.toList a b) (hba : ReflTransGen (Renames p.rules.toList) b a) :
    ∃ id r, p.rules[id]? = some r ∧ r.lhs = b ∧ Asks p.augmented q' t (.reduce id) := by
  obtain ⟨r, hr, rfl, hrhs⟩ := hab
  have hlhs := hp.augmentable.lhs_nonterminal r hr
  obtain ⟨id, hid⟩ := exists_id hr
  have haug := augmented_of_getElem? hid
  obtain ⟨j, hj, hnextj⟩ := hp.exists_holds_of_renames ⟨i, hi, hnext⟩ hba
  have hinitial := holds_initial haug hj hlhs hnextj
  have hcomplete := hleads.holds_succ hinitial (nextSymbol?_eq_some.2 ⟨r, haug, by rw [hrhs]; rfl⟩)
  refine ⟨id, r, hid, rfl, .reduce haug ?_ (hp.follows_of_renames hlhs hba ht)⟩
  rw [hrhs]
  exact hcomplete

/-- What follows a symbol is a terminal of the parser. -/
theorem mem_terminals_of_follows (hp : p.Lawful) {s t : Symbol} (h : Follows p.augmented s t) :
    t ∈ p.terminals := by
  obtain ⟨r, hr, ht⟩ := h.exists_mem_rhs
  exact hp.mem_terminals r hr t ht h.isTerminal

/-- Nothing follows a symbol on a cycle of renamings. -/
theorem not_follows_of_cycle (hp : p.Lawful) {a t : Symbol} (hfollow : Follows p.augmented a t) :
    ¬ TransGen (Renames p.rules.toList) a a := by
  have ht := hp.mem_terminals_of_follows hfollow
  obtain ⟨id, hid⟩ := List.getElem?_of_mem (Array.mem_toList_iff.2 ht)
  rw [Array.getElem?_toList] at hid
  -- a state does not ask for two actions on one terminal
  have hunique : ∀ {q : Nat} {x y : Action}, Asks p.augmented q t x → Asks p.augmented q t y →
      x = y := fun hx hy => (hp.action_of_asks hid hx).symm.trans (hp.action_of_asks hid hy)
  induction hfollow with
  | @inner r before after a next t hr ha hrhs hbegins =>
      intro hcycle
      obtain ⟨b, hab, hba⟩ := TransGen.head'_iff.1 hcycle
      have hdot : r.rhs[before.length]? = some a := by simp [hrhs]
      obtain ⟨q, ident, hr', hi⟩ := hp.exists_holds_at hr hdot ha
      have hnext : nextSymbol? p.augmented ⟨ident, before.length⟩ = some a :=
        nextSymbol?_eq_some.2 ⟨r, hr', hdot⟩
      obtain ⟨q', hleads, hi'⟩ := hi.exists_holds_succ hnext (ne_endToken ha)
      have hnext' : nextSymbol? p.augmented ⟨ident, before.length + 1⟩ = some next :=
        nextSymbol?_eq_some.2 ⟨r, hr', by simp [hrhs]⟩
      obtain ⟨action, hask, hread⟩ := exists_asks_of_begins hi' hnext' hbegins
      obtain ⟨id', -, -, -, hreduce⟩ :=
        hp.exists_asks_of_cycle hi hnext hleads (.inner hr ha hrhs hbegins) hab hba
      exact hread id' (hunique hask hreduce)
  | @last r a t hr ha hlast hfollow ih =>
      intro hcycle
      obtain ⟨b, hab, hba⟩ := TransGen.head'_iff.1 hcycle
      have hne : r.rhs ≠ [] := by
        rintro heq
        rw [heq] at hlast
        cases hlast
      have hdot : r.rhs[r.rhs.length - 1]? = some a := by
        rw [← List.getLast?_eq_getElem?]
        exact hlast
      have hpos := List.length_pos_iff.2 hne
      obtain ⟨q, ident, hr', hi⟩ := hp.exists_holds_at hr hdot ha
      have hnext : nextSymbol? p.augmented ⟨ident, r.rhs.length - 1⟩ = some a :=
        nextSymbol?_eq_some.2 ⟨r, hr', hdot⟩
      obtain ⟨q', hleads, hi'⟩ := hi.exists_holds_succ hnext (ne_endToken ha)
      obtain ⟨id', r', hr'', hlhs, hreduce⟩ :=
        hp.exists_asks_of_cycle hi hnext hleads (.last hr ha hlast hfollow) hab hba
      have hcomplete : Asks p.augmented q' t (.reduce ident) := by
        refine .reduce hr' ?_ hfollow
        have hlen : r.rhs.length - 1 + 1 = r.rhs.length := by omega
        rw [← hlen]
        exact hi'
      -- so the rule of the last step belongs to the cycle itself
      cases hunique hcomplete hreduce
      cases hr'.symm.trans (augmented_of_getElem? hr'')
      refine ih ht hid hunique ?_
      rw [hlhs]
      exact TransGen.tail' hba hab

end Lawful

/-! ## The measure -/

/-- The number of non-terminals that a symbol can be renamed to. -/
noncomputable def renamings (p : Parser) (s : Symbol) : Nat := by
  classical
  exact (p.nonterminals.toList.toFinset.filter (TransGen (Renames p.rules.toList) s)).card

theorem renamings_le (s : Symbol) : p.renamings s ≤ p.nonterminals.size := by
  have hcard := List.toFinset_card_le p.nonterminals.toList
  rw [Array.length_toList] at hcard
  classical
  exact Nat.le_trans (Finset.card_filter_le _ _) hcard

theorem renamings_lt {a b : Symbol} (hab : Renames p.rules.toList a b) (hb : b ∈ p.nonterminals)
    (hcycle : ¬ TransGen (Renames p.rules.toList) b b) : p.renamings b < p.renamings a := by
  classical
  refine Finset.card_lt_card (Finset.ssubset_iff_of_subset ?_ |>.2 ⟨b, ?_, ?_⟩)
  · intro x hx
    rw [Finset.mem_filter] at hx ⊢
    exact ⟨hx.1, TransGen.head hab hx.2⟩
  · rw [Finset.mem_filter, List.mem_toFinset]
    exact ⟨Array.mem_toList_iff.2 hb, TransGen.single hab⟩
  · rw [Finset.mem_filter]
    exact fun hx => hcycle hx.2

/-- A number that every turn makes smaller: a token counts for two symbols on the stack,
    since it is first read and then put under a rule, and a symbol on the stack counts
    for more than all renamings of the topmost one. -/
noncomputable def potential (p : Parser) (symbols : List Symbol) (c : Config) : Nat :=
  (2 * c.input.length + symbols.length) * (p.nonterminals.size + 2) +
    (symbols.head?.map p.renamings).getD 0 + 1

theorem potential_init_le (tokens : List Token) :
    p.potential [] (init tokens) ≤ p.turnBound tokens.length := by
  have hexpand : (2 * tokens.length + 2) * (p.nonterminals.size + 2) =
      2 * tokens.length * (p.nonterminals.size + 2) + 2 * (p.nonterminals.size + 2) :=
    Nat.add_mul _ _ _
  simp only [potential, turnBound, init, List.length_nil, List.head?_nil, Option.map_none,
    Option.getD_none, Nat.add_zero, hexpand]
  omega

/-- A configuration whose weight in tokens and symbols drops has a smaller potential,
    whatever is on top of the stack. -/
theorem potential_lt_of_lt {symbols symbols' : List Symbol} {c d : Config}
    (h : 2 * d.input.length + symbols'.length < 2 * c.input.length + symbols.length) :
    p.potential symbols' d < p.potential symbols c := by
  have htop : (symbols'.head?.map p.renamings).getD 0 ≤ p.nonterminals.size := by
    cases symbols' with
    | nil => exact Nat.zero_le _
    | cons s _ => exact renamings_le s
  have hmul := Nat.mul_le_mul_right (p.nonterminals.size + 2) (Nat.succ_le_of_lt h)
  rw [Nat.succ_mul] at hmul
  unfold potential
  omega

theorem exists_potential_lt (hp : p.Lawful) {symbols : List Symbol} {c d : Config}
    (hpath : Path p.augmented c.stack symbols) (hmove : p.Moves c d) :
    ∃ symbols', Path p.augmented d.stack symbols' ∧
      p.potential symbols' d < p.potential symbols c := by
  cases hp.turned_of_moves hpath hmove with
  | @shifted token input s q hinput _ hpath' =>
      refine ⟨_, hpath', potential_lt_of_lt ?_⟩
      simp only [hinput, List.length_cons]
      omega
  | @reduced rule r s q symbols₀ hr hs hfollow hsymbols hpath' =>
      refine ⟨_, hpath', ?_⟩
      have hmem := mem_rules hr
      match hrhs : r.rhs with
      | [] => exact absurd hrhs (hp.augmentable.rhs_ne_nil r hmem)
      | [a] =>
          -- a renaming: the stack keeps its height
          rw [hrhs, List.reverse_singleton, List.singleton_append] at hsymbols
          have hlt := renamings_lt ⟨r, hmem, rfl, hrhs⟩
            (hp.mem_nonterminals r (mem_augment.2 (.inl hmem)))
            (hp.not_follows_of_cycle hfollow)
          rw [hsymbols]
          simp only [potential, List.length_cons, List.head?_cons, Option.map_some,
            Option.getD_some]
          omega
      | a :: b :: rest =>
          refine potential_lt_of_lt ?_
          simp only [hsymbols, hrhs, List.length_append, List.length_reverse, List.length_cons]
          omega

/-! ## The end of every run -/

theorem exists_run_of_potential (hp : p.Lawful) (bound : Nat) {symbols : List Symbol} {c : Config}
    (hpath : Path p.augmented c.stack symbols) (hbound : p.potential symbols c ≤ bound) :
    ∃ result, p.run bound c = some result := by
  induction bound generalizing symbols c with
  | zero =>
      unfold potential at hbound
      omega
  | succ bound ih =>
      rw [run]
      cases hturn : p.turn c with
      | done result => exact ⟨result, rfl⟩
      | more d =>
          obtain ⟨symbols', hpath', hlt⟩ := exists_potential_lt hp hpath hturn
          exact ih hpath' (by omega)

theorem exists_run_turnBound (hp : p.Lawful) (tokens : List Token) :
    ∃ result, p.run (p.turnBound tokens.length) (init tokens) = some result :=
  exists_run_of_potential hp _ .nil (potential_init_le tokens)

/-- The answer of the parser is that of its run to the end, however many turns this
    takes. -/
theorem parse_eq_iff (hp : p.Lawful) {tokens : List Token}
    {result : Except GrammarError (List Step)} :
    p.parse tokens = result ↔ ∃ c, p.Reaches (init tokens) c ∧ p.turn c = .done result := by
  obtain ⟨result', hrun⟩ := exists_run_turnBound hp tokens
  have hparse : p.parse tokens = result' := by rw [parse, hrun, Option.getD_some]
  rw [hparse, ← run_eq_some_iff]
  constructor
  · rintro rfl
    exact ⟨_, hrun⟩
  · rintro ⟨n, hn⟩
    exact run_unique hrun hn

/-- While every turn leads on, the run has no result. -/
theorem run_eq_none_of_moves {f : Nat → Config} (h : ∀ n, p.Moves (f n) (f (n + 1)))
    (bound start : Nat) : p.run bound (f start) = none := by
  induction bound generalizing start with
  | zero => rfl
  | succ bound ih =>
      rw [run, show p.turn _ = _ from h start]
      exact ih (start + 1)

/-- No rule of a cycle of renamings is ever applied. -/
theorem reduce_not_mem_taken (hp : p.Lawful) {tokens : List Token} {c : Config}
    (h : p.Reaches (init tokens) c) {rule : Nat} {r : Rule} (hr : p.rules[rule]? = some r)
    (hcycle : TransGen (Renames p.rules.toList) r.lhs r.lhs) : .reduce rule ∉ c.taken := by
  induction h with
  | refl => exact List.not_mem_nil
  | @tail c d hreach hmove ih =>
      obtain ⟨symbols, hpath⟩ := Reaches.exists_path hp hreach Path.nil
      cases hp.turned_of_moves hpath hmove with
      | shifted _ _ _ => simpa using ih
      | @reduced rule' r' s _ _ hr' hs hfollow _ _ =>
          rw [List.mem_cons, not_or]
          refine ⟨?_, ih⟩
          rintro heq
          cases heq
          cases hr.symm.trans hr'
          exact hp.not_follows_of_cycle hfollow hcycle

theorem followSet_eq_nil_of_cycle (hp : p.Lawful) {s : Symbol}
    (hcycle : TransGen (Renames p.rules.toList) s s) : followSet p.augmented s = [] := by
  rw [List.eq_nil_iff_forall_not_mem]
  exact fun t ht => hp.not_follows_of_cycle (mem_followSet.1 ht) hcycle

/-- The loop of the parser ends on every token list, within its bound, and can never enter
    a cycle of renamings: no terminal follows a symbol of the cycle, so no rule for it is
    ever applied. -/
theorem parse_terminates {g : RuleSet} {start : Symbol} {c : Compiled} (hg : g.WellFormed start)
    (hc : (compile g start).1 = .ok c) (tokens : List Token) :
    (∃ result, c.parser.run (c.parser.turnBound tokens.length) (init tokens) = some result ∧
        c.parser.parse tokens = result) ∧
      (¬ ∃ f : Nat → Config, f 0 = init tokens ∧ ∀ n, c.parser.turn (f n) = .more (f (n + 1))) ∧
      ∀ s, TransGen (Renames c.parser.rules.toList) s s → c.follow? s = some [] ∧
        ∀ d, c.parser.Reaches (init tokens) d → ∀ rule r, c.parser.rules[rule]? = some r →
          r.lhs = s → .reduce rule ∉ d.taken := by
  have hp := lawful_of_compile hg hc
  obtain ⟨result, hrun⟩ := exists_run_turnBound hp tokens
  refine ⟨⟨result, hrun, by rw [parse, hrun, Option.getD_some]⟩, ?_, fun s hcycle => ⟨?_, ?_⟩⟩
  · rintro ⟨f, hf, hmoves⟩
    rw [← hf, run_eq_none_of_moves hmoves] at hrun
    cases hrun
  · have hs : s ∈ c.parser.nonterminals := by
      obtain ⟨b, -, r, hr, rfl, -⟩ := TransGen.tail'_iff.1 hcycle
      exact hp.mem_nonterminals r (mem_augment.2 (.inl hr))
    rw [follow?_eq hg hc hs, followSet_eq_nil_of_cycle hp hcycle]
  · rintro d hreach rule r hr rfl
    exact reduce_not_mem_taken hp hreach hr hcycle

/-- A grammar with a cycle of renamings that can be compiled: only `$U` can come after the
    cycle, and `$U` begins with no terminal. -/
def circular : RuleSet :=
  [⟨"$S", [["x"], ["y", "$A", "$U"]]⟩, ⟨"$A", [["$B"]]⟩, ⟨"$B", [["$A"]]⟩, ⟨"$U", [["$U", "z"]]⟩]

/-- The compiled grammar. -/
def circularCompiled : Compiled :=
  (compile circular "$S").1.toOption.get (by decide +kernel)

theorem parse_terminates_circular :
    (∃ result, circularCompiled.parser.run (circularCompiled.parser.turnBound 3)
        (init [⟨4, "y"⟩, ⟨99, "?"⟩, ⟨endId, ""⟩]) = some result) ∧
      TransGen (Renames circularCompiled.parser.rules.toList) "$A" "$A" ∧
      circularCompiled.follow? "$A" = some [] := by
  have hcompile : (compile circular "$S").1 = .ok circularCompiled :=
    eq_ok_of_toOption (Option.some_get _).symm
  have hab : Renames circularCompiled.parser.rules.toList "$A" "$B" :=
    ⟨⟨"$B", ["$A"]⟩, by decide +kernel, rfl, rfl⟩
  have hba : Renames circularCompiled.parser.rules.toList "$B" "$A" :=
    ⟨⟨"$A", ["$B"]⟩, by decide +kernel, rfl, rfl⟩
  have hcycle := (TransGen.single hab).tail hba
  obtain ⟨⟨result, hrun, -⟩, -, hcycles⟩ := parse_terminates (by decide +kernel) hcompile
    [⟨4, "y"⟩, ⟨99, "?"⟩, ⟨endId, ""⟩]
  exact ⟨⟨result, hrun⟩, hcycle, (hcycles "$A" hcycle).1⟩

end Parser

end ParseBench.Grammar
