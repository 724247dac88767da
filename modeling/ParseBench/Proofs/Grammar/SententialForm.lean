/-
  ParseBench.Proofs.Grammar.SententialForm

  The FIRST and FOLLOW sets against derivations. A terminal is in the FIRST set of
  a non-terminal exactly when the non-terminal derives a row that begins with it,
  and in its FOLLOW set exactly when the root symbol derives a row in which it comes
  directly after the non-terminal (`mem_first_follow_iff`). The rows need not derive
  any string of terminals, so both hold of unproductive non-terminals too.

  `Begins` and `Follows` lead to derivations by induction on themselves: every
  left-hand side occurs in a row that the root symbol derives. The other way round
  the induction is on the steps of the derivation. What is kept up is that each
  terminal which begins the next symbol of a row follows the symbol before it.
-/

import ParseBench.Proofs.Grammar.Compile
import ParseBench.Proofs.Grammar.Derivation

namespace ParseBench.Grammar

open Relation (ReflTransGen TransGen)

variable {rules base : List Rule} {start : Symbol}

/-! ## What a row begins with -/

/-- A symbol derives a row that begins with each terminal it can begin with. -/
theorem Begins.exists_derives {s t : Symbol} (h : Begins rules s t) :
    ∃ rest, Derives rules [s] (t :: rest) := by
  induction h with
  | terminal => exact ⟨[], .refl _⟩
  | @rule r s t hr _ hhead _ ih =>
      obtain ⟨more, hrhs⟩ : ∃ more, r.rhs = s :: more := List.head?_eq_some_iff.1 hhead
      obtain ⟨rest, hderives⟩ := ih
      refine ⟨rest ++ more, ?_⟩
      have hrule : Derives rules [r.lhs] ([s] ++ more) := by
        simpa [hrhs] using Derives.rule hr [] []
      exact hrule.trans (hderives.append_right more)

/-- The first symbol of a row can begin with the terminal that a derived row begins with. -/
theorem begins_of_derives (hlhs : ∀ r ∈ rules, isNonterminal r.lhs = true)
    (hne : ∀ r ∈ rules, r.rhs ≠ []) {s t : Symbol} {symbols rest : List Symbol}
    (ht : isNonterminal t = false) (h : Derives rules (s :: symbols) (t :: rest)) :
    Begins rules s t := by
  generalize hrow : s :: symbols = row at h
  induction h using ReflTransGen.head_induction_on generalizing s symbols with
  | refl =>
      cases hrow
      exact .terminal ht
  | head hstep _ ih =>
      cases hstep with
      | @intro r hr before after =>
          cases before with
          | nil =>
              -- the first symbol is replaced, by a row that is not empty
              obtain ⟨rfl, rfl⟩ := List.cons.inj hrow
              obtain ⟨x, more, hrhs⟩ := List.exists_cons_of_ne_nil (hne r hr)
              have hbegins : Begins rules x t :=
                ih (by rw [hrhs, List.nil_append, List.cons_append])
              exact .rule hr (hlhs r hr) (by rw [hrhs]; rfl) hbegins
          | cons x before =>
              obtain ⟨rfl, -⟩ := List.cons.inj hrow
              exact ih rfl

theorem begins_iff_derives (hlhs : ∀ r ∈ rules, isNonterminal r.lhs = true)
    (hne : ∀ r ∈ rules, r.rhs ≠ []) {s t : Symbol} (hs : isNonterminal s = true)
    (ht : isNonterminal t = false) :
    Begins rules s t ↔ ∃ rest, TransGen (Rewrites rules) [s] (t :: rest) := by
  constructor
  · intro h
    obtain ⟨rest, hderives⟩ := h.exists_derives
    refine ⟨rest, (Relation.reflTransGen_iff_eq_or_transGen.1 hderives).resolve_left ?_⟩
    intro heq
    rw [(List.cons.inj heq).1, hs] at ht
    cases ht
  · rintro ⟨rest, hderives⟩
    exact begins_of_derives hlhs hne ht hderives.to_reflTransGen

/-- The root rule adds nothing to what other symbols can begin with. -/
theorem Augmentable.begins_iff (hbase : Augmentable base start) {s t : Symbol}
    (hs : s ≠ rootSymbol) : Begins (augment base start) s t ↔ Begins base s t := by
  constructor
  · intro h
    induction h with
    | terminal ht => exact .terminal ht
    | @rule r x t hr hlhs hhead _ ih =>
        rcases mem_augment.1 hr with hr | rfl
        · refine .rule hr hlhs hhead (ih ?_)
          rintro rfl
          exact hbase.root_not_mem r hr (List.mem_of_mem_head? hhead)
        · exact absurd rfl hs
  · intro h
    induction h with
    | terminal ht => exact .terminal ht
    | @rule r x t hr hlhs hhead _ ih =>
        refine .rule (mem_augment.2 (.inl hr)) hlhs hhead (ih ?_)
        rintro rfl
        exact hbase.root_not_mem r hr (List.mem_of_mem_head? hhead)

/-! ## What comes after a symbol in a row -/

/-- Every left-hand side occurs in a row that the root symbol derives. -/
theorem Augmentable.exists_row (hbase : Augmentable base start) {r : Rule}
    (hr : r ∈ augment base start) :
    ∃ before after, Derives (augment base start) [rootSymbol] (before ++ r.lhs :: after) := by
  have hroot : rootRule start ∈ augment base start := mem_augment.2 (.inr rfl)
  rcases mem_augment.1 hr with hr | rfl
  · have hreached := hbase.reached r hr
    generalize r.lhs = s at hreached
    induction hreached with
    | refl => exact ⟨[], [endToken], .rule hroot [] []⟩
    | tail _ huses ih =>
        obtain ⟨r', hr', rfl, hmem⟩ := huses
        obtain ⟨before, after, hderives⟩ := ih
        obtain ⟨left, right, hrhs⟩ := List.append_of_mem hmem
        refine ⟨before ++ left, right ++ after, ?_⟩
        have hmem' : r' ∈ augment base start := mem_augment.2 (.inl hr')
        have hstep := Derives.rule hmem' before after
        rw [hrhs] at hstep
        simpa using hderives.trans hstep
  · exact ⟨[], [], .refl _⟩

theorem Follows.exists_row (hbase : Augmentable base start) {s t : Symbol}
    (h : Follows (augment base start) s t) :
    ∃ before after, Derives (augment base start) [rootSymbol] (before ++ s :: t :: after) := by
  induction h with
  | @inner r left right s next t hr _ hrhs hbegins =>
      obtain ⟨before, after, hrow⟩ := hbase.exists_row hr
      obtain ⟨rest, hnext⟩ := hbegins.exists_derives
      have hstep := Derives.rule hr before after
      have hinside := (hnext.append_right (right ++ after)).append_left (before ++ left ++ [s])
      rw [hrhs] at hstep
      refine ⟨before ++ left, rest ++ right ++ after, ?_⟩
      simpa using (hrow.trans hstep).trans (by simpa using hinside)
  | @last r s t hr _ hlast _ ih =>
      obtain ⟨before, after, hrow⟩ := ih
      obtain ⟨left, hrhs⟩ : ∃ left, r.rhs = left ++ [s] := List.getLast?_eq_some_iff.1 hlast
      have hstep := Derives.rule hr before (t :: after)
      rw [hrhs] at hstep
      refine ⟨before ++ left, after, ?_⟩
      simpa using hrow.trans hstep

/-- What follows a symbol in a row that the root symbol derives. -/
theorem follows_of_row (hlhs : ∀ r ∈ rules, isNonterminal r.lhs = true)
    (hne : ∀ r ∈ rules, r.rhs ≠ []) {row : List Symbol} (h : Derives rules [rootSymbol] row)
    {before after : List Symbol} {s next t : Symbol} (hrow : row = before ++ s :: next :: after)
    (hs : isNonterminal s = true) (ht : Begins rules next t) : Follows rules s t := by
  induction h generalizing before after s next t with
  | refl =>
      have hlen := congrArg List.length hrow
      simp at hlen
      omega
  | tail _ hstep ih =>
      cases hstep with
      | @intro r hr left right =>
          rcases append_cons_cases hrow.symm with ⟨between, hleft, hnext⟩ | ⟨between, rfl, hrest⟩
          · cases between with
            | nil =>
                -- the right-hand side comes directly after the symbol
                obtain ⟨x, more, hrhs⟩ := List.exists_cons_of_ne_nil (hne r hr)
                rw [hrhs] at hnext
                obtain ⟨rfl, -⟩ := List.cons.inj hnext
                have hbegins : Begins rules r.lhs t :=
                  .rule hr (hlhs r hr) (by rw [hrhs]; rfl) ht
                exact ih (by rw [hleft, List.append_assoc]; rfl) hs hbegins
            | cons x between =>
                obtain ⟨rfl, -⟩ := List.cons.inj hnext
                exact ih (by rw [hleft, List.append_assoc]; rfl) hs ht
          · rcases append_cons_cases hrest.symm with ⟨between', hrhs, hnext⟩ | ⟨between', rfl, rfl⟩
            · cases between' with
              | nil =>
                  -- the symbol ends the right-hand side
                  rw [List.nil_append] at hnext
                  have hlast : r.rhs.getLast? = some s := by rw [hrhs]; simp
                  exact .last hr hs hlast (ih (by rw [← hnext]) (hlhs r hr) ht)
              | cons x between' =>
                  obtain ⟨rfl, -⟩ := List.cons.inj hnext
                  exact .inner hr hs hrhs ht
            · have hrow' : left ++ r.lhs :: (between' ++ s :: next :: after) =
                  (left ++ r.lhs :: between') ++ s :: next :: after := by
                rw [List.append_assoc, List.cons_append]
              exact ih hrow' hs ht

/-- A non-terminal can be followed by the terminals that come directly after it in the rows
    that the root symbol derives. -/
theorem Augmentable.follows_iff (hbase : Augmentable base start) {s t : Symbol}
    (hs : isNonterminal s = true) (ht : isNonterminal t = false) :
    Follows (augment base start) s t ↔
      ∃ before after, Derives (augment base start) [rootSymbol] (before ++ s :: t :: after) := by
  constructor
  · exact fun h => h.exists_row hbase
  · rintro ⟨before, after, hrow⟩
    exact follows_of_row hbase.augment_lhs hbase.augment_rhs hrow rfl hs (.terminal ht)

/-! ## The sets of a compiled grammar -/

/-- The FIRST set of a non-terminal of a compiled grammar is what the rows that it derives in
    one or more steps begin with, and its FOLLOW set is what comes directly after it in the
    rows that the root symbol derives. -/
theorem mem_first_follow_iff {g : RuleSet} {c : Compiled} (hg : g.WellFormed start)
    (h : (compile g start).1 = .ok c) :
    ∃ cleaned, (clean g start).1 = .ok cleaned ∧ ∀ s ∈ cleaned.lefts,
      ∃ first follow, c.first? s = some first ∧ c.follow? s = some follow ∧
        (∀ t, t ∈ first ↔ isNonterminal t = false ∧
          ∃ rest, TransGen (Rewrites cleaned.rules) [s] (t :: rest)) ∧
        ∀ t, t ∈ follow ↔ isNonterminal t = false ∧ ∃ before after,
          Derives (withRoot cleaned start).rules [rootSymbol] (before ++ s :: t :: after) := by
  obtain ⟨cleaned, hclean, hbase, -, htabulate⟩ := exists_tabulate_of_compile hg h
  obtain ⟨-, rfl⟩ := tabulate_ok_iff.1 htabulate
  refine ⟨cleaned, hclean, fun s hs => ?_⟩
  -- the left-hand side has a rule, so the alphabet knows it
  obtain ⟨r, hr, rfl⟩ : ∃ r ∈ cleaned.rules, r.lhs = s := by
    obtain ⟨rfl, -⟩ := hg.eq_survivors hclean
    obtain ⟨group, hgroup, rfl⟩ := List.mem_map.1 hs
    obtain ⟨rhs, hrhs⟩ := List.exists_mem_of_ne_nil _ (alternatives_ne_nil_of_survivors hgroup)
    exact ⟨⟨group.lhs, rhs⟩, RuleSet.mem_rules.2 ⟨group, hgroup, rfl, hrhs⟩, rfl⟩
  have hnt := hbase.lhs_nonterminal r hr
  have hmem := Alphabet.lhs_mem_nonterminals_ofRules
    ((@mem_augment cleaned.rules start r).2 (.inl hr))
  refine ⟨_, _, first?_ofRules hmem, follow?_ofRules hmem, fun t => ?_, fun t => ?_⟩
  · rw [mem_firstSet hnt, hbase.begins_iff (hbase.lhs_ne_root r hr)]
    constructor
    · intro hbegins
      exact ⟨hbegins.isTerminal, (begins_iff_derives hbase.lhs_nonterminal hbase.rhs_ne_nil hnt
        hbegins.isTerminal).1 hbegins⟩
    · rintro ⟨ht, hderives⟩
      exact (begins_iff_derives hbase.lhs_nonterminal hbase.rhs_ne_nil hnt ht).2 hderives
  · rw [mem_followSet, rules_withRoot]
    constructor
    · exact fun hfollows =>
        ⟨hfollows.isTerminal, (hbase.follows_iff hnt hfollows.isTerminal).1 hfollows⟩
    · exact fun ⟨ht, hrow⟩ => (hbase.follows_iff hnt ht).2 hrow

/-- A grammar with a non-terminal that begins with no terminal. -/
def endless : RuleSet := [⟨"$S", [["x"], ["y", "$U", "w"]]⟩, ⟨"$U", [["$U", "z"]]⟩]

/-- The compiled grammar. -/
def endlessCompiled : Compiled :=
  (compile endless "$S").1.toOption.get (by decide +kernel)

theorem mem_first_follow_endless :
    ∃ cleaned, (clean endless "$S").1 = .ok cleaned ∧
      (∀ t, isNonterminal t = false →
        ¬ ∃ rest, TransGen (Rewrites cleaned.rules) ["$U"] (t :: rest)) ∧
      ∃ before after,
        Derives (withRoot cleaned "$S").rules [rootSymbol] (before ++ "$U" :: "w" :: after) := by
  have hcompile : (compile endless "$S").1 = .ok endlessCompiled :=
    eq_ok_of_toOption (Option.some_get _).symm
  obtain ⟨cleaned, hclean, hsets⟩ := mem_first_follow_iff (by decide +kernel) hcompile
  have hlefts : "$U" ∈ cleaned.lefts := by
    have hcleaned : (clean endless "$S").1 = .ok endless := by decide +kernel
    rw [hcleaned] at hclean
    cases hclean
    decide
  obtain ⟨first, follow, hfirst, hfollow, hmemFirst, hmemFollow⟩ := hsets "$U" hlefts
  have hempty : endlessCompiled.first? "$U" = some [] := by decide +kernel
  have hafter : endlessCompiled.follow? "$U" = some ["w", "z"] := by decide +kernel
  rw [hempty] at hfirst
  rw [hafter] at hfollow
  cases hfirst
  cases hfollow
  refine ⟨cleaned, hclean, fun t ht hderives => ?_, ((hmemFollow "w").1 (by decide)).2⟩
  exact absurd ((hmemFirst t).2 ⟨ht, hderives⟩) (by simp)

end ParseBench.Grammar
