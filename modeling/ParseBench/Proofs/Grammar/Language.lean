/-
  ParseBench.Proofs.Grammar.Language

  Cleaning is exact and changes no derivation of a row of terminals
  (`clean_exact`). Which answer it gives and which rules are left is known from the
  survivors; what is added here is that nothing is lost with the other rules.

  A row that derives a row of terminals mentions no barren symbol: otherwise the
  last rule that gets rid of one would have none of them on its right-hand side, and
  so its left-hand side would not be barren. Every symbol of a row that the start
  symbol derives is linked to it. So each step of such a derivation is by a rule
  that survives.
-/

import ParseBench.Proofs.Grammar.Compile
import ParseBench.Proofs.Grammar.Derivation

namespace ParseBench.Grammar

open Relation (ReflTransGen)

variable {g : RuleSet} {start : Symbol} {rules more : List Rule} {row word : List Symbol}

theorem Derives.mono (hsub : ∀ r ∈ rules, r ∈ more) (h : Derives rules row word) :
    Derives more row word := by
  refine ReflTransGen.lift id ?_ _ _ h
  rintro _ _ ⟨hr, before, after⟩
  exact .intro (hsub _ hr) before after

/-- A left-hand side with an alternative without barren symbols is not barren. -/
theorem not_barren_of_rule (hg : g.lefts.Nodup) {r : Rule} (hr : r ∈ g.rules)
    (hrhs : ∀ s ∈ r.rhs, ¬ Barren g s) : ¬ Barren g r.lhs := by
  intro hbarren
  obtain ⟨group, hgroup, hlhs, hmem⟩ := RuleSet.mem_rules.1 hr
  obtain ⟨other, hother, hotherLhs, hall⟩ := hbarren.exists_group
  rw [← List.inj_on_of_nodup_map hg hgroup hother (hlhs.trans hotherLhs.symm)] at hall
  obtain ⟨s, hs, hsbarren⟩ := hall r.rhs hmem
  exact hrhs s hs hsbarren

/-- A row that derives a row of terminals mentions no barren symbol. -/
theorem not_barren_of_derives (hg : g.lefts.Nodup)
    (hlhs : ∀ s ∈ g.lefts, isNonterminal s = true) (hword : ∀ s ∈ word, isNonterminal s = false)
    (h : Derives g.rules row word) : ∀ s ∈ row, ¬ Barren g s := by
  induction h using ReflTransGen.head_induction_on with
  | refl =>
      intro s hs hbarren
      have hterminal := hword s hs
      rw [hlhs s hbarren.mem_lefts] at hterminal
      cases hterminal
  | head hstep _ ih =>
      cases hstep with
      | @intro r hr before after =>
          rw [List.forall_mem_append, List.forall_mem_append] at ih
          obtain ⟨hbefore, hrhs, hafter⟩ := ih
          rw [List.forall_mem_append, List.forall_mem_cons]
          exact ⟨hbefore, not_barren_of_rule hg hr hrhs, hafter⟩

/-- A row of linked symbols derives a row of terminals with the rules that survive, if it does
    so at all. -/
theorem derives_survivors (hg : g.lefts.Nodup) (hlhs : ∀ s ∈ g.lefts, isNonterminal s = true)
    (hword : ∀ s ∈ word, isNonterminal s = false) (h : Derives g.rules row word)
    (hlinked : ∀ s ∈ row, Linked g start s) : Derives (survivors g start).rules row word := by
  induction h using ReflTransGen.head_induction_on with
  | refl => exact .refl _
  | head hstep hrest ih =>
      have hfertile := not_barren_of_derives hg hlhs hword hrest
      cases hstep with
      | @intro r hr before after =>
          rw [List.forall_mem_append, List.forall_mem_append] at hfertile
          rw [List.forall_mem_append, List.forall_mem_cons] at hlinked
          obtain ⟨-, hrhs, -⟩ := hfertile
          obtain ⟨hbefore, hleft, hafter⟩ := hlinked
          -- the rule of this step survives, so what it leads to is linked again
          have hsurvives : Survives g start r :=
            ⟨⟨hr, not_barren_of_rule hg hr hrhs, hrhs⟩, hleft⟩
          have hrow : ∀ s ∈ before ++ (r.rhs ++ after), Linked g start s := by
            rw [List.forall_mem_append, List.forall_mem_append]
            exact ⟨hbefore, fun s hs => hleft.tail ⟨r, hsurvives.toFertileRule, rfl, hs⟩, hafter⟩
          exact (Derives.rule (mem_rules_survivors.2 hsurvives) before after).trans (ih hrow)

/-- The rules of a compiled parser are those of the cleaned rule set, in their order. -/
theorem parser_rules_of_compile {cleaned : RuleSet} {c : Compiled}
    (hclean : (clean g start).1 = .ok cleaned) (h : (compile g start).1 = .ok c) :
    c.parser.rules.toList = cleaned.rules := by
  obtain ⟨cleaned', hclean', hcompile⟩ := compile_ok_iff.1 h
  rw [hclean] at hclean'
  cases hclean'
  obtain ⟨-, -, htabulate⟩ := compileCleaned_ok_iff.1 hcompile
  obtain ⟨-, rfl⟩ := tabulate_ok_iff.1 htabulate
  rw [rules_withRoot]
  simp [Compiled.parser, Compiled.ofRules, augment]

open Classical in
/-- Cleaning ends. It fails when the start symbol has no rules or is barren, and otherwise when
    a rule that survives mentions an undefined non-terminal. Else it leaves the rules that
    survive in their order; the start symbol derives the same rows of terminals with them,
    and they are the rules of the parser. -/
theorem clean_exact (hnodup : (g.map RuleGroup.lhs).Nodup)
    (hlhs : ∀ group ∈ g, isNonterminal group.lhs = true) :
    Cleans start g (clean g start).1 ∧
      ((clean g start).1 = .error (.unknownStartSymbol start) ↔
        start ∉ g.lefts ∨ Barren g start) ∧
      ((∃ s r, (clean g start).1 = .error (.undefinedNonterminal s r)) ↔
        ¬ (start ∉ g.lefts ∨ Barren g start) ∧
          ∃ r, Survives g start r ∧ ∃ s ∈ r.rhs, isNonterminal s = true ∧ s ∉ g.lefts) ∧
      (¬ (start ∉ g.lefts ∨ Barren g start) →
        (∀ r, Survives g start r → ∀ s ∈ r.rhs, isNonterminal s = true → s ∈ g.lefts) →
        ∃ cleaned, (clean g start).1 = .ok cleaned ∧ cleaned = survivors g start ∧
          cleaned.rules = g.rules.filter (fun r => Survives g start r) ∧
          (∀ word, (∀ s ∈ word, isNonterminal s = false) →
            (Derives g.rules [start] word ↔ Derives cleaned.rules [start] word)) ∧
          ∀ c, (compile g start).1 = .ok c → c.parser.rules.toList = cleaned.rules) := by
  have hlefts : ∀ s ∈ g.lefts, isNonterminal s = true := List.forall_mem_map.2 hlhs
  have hanswer := @clean_answer g start hnodup hlefts
  refine ⟨cleans_clean g start, ?_, ?_, fun hknown hdefined => ?_⟩
  · generalize (clean g start).1 = result at hanswer
    cases hanswer with
    | unknown h => exact iff_of_true rfl h
    | undefined hmem hbarren =>
        exact iff_of_false (by simp) (not_or.2 ⟨not_not.2 hmem, hbarren⟩)
    | cleaned hmem hbarren => exact iff_of_false (by simp) (not_or.2 ⟨not_not.2 hmem, hbarren⟩)
  · generalize (clean g start).1 = result at hanswer
    cases hanswer with
    | unknown h => exact iff_of_false (by simp) fun hnot => hnot.1 h
    | @undefined r s hmem hbarren hr hs hnt hundefined =>
        exact iff_of_true ⟨s, r, rfl⟩
          ⟨not_or.2 ⟨not_not.2 hmem, hbarren⟩, r, hr, s, hs, hnt, hundefined⟩
    | cleaned _ _ hdefined =>
        refine iff_of_false (by simp) ?_
        rintro ⟨-, r, hr, s, hs, hnt, hundefined⟩
        exact hundefined (hdefined r hr s hs hnt)
  · obtain ⟨hmem, hbarren⟩ := not_or.1 hknown
    have hclean := (clean_ok_iff hnodup hlefts).2 ⟨rfl, not_not.1 hmem, hbarren, hdefined⟩
    refine ⟨_, hclean, rfl, rules_survivors g start, fun word hword => ⟨fun h => ?_, fun h => ?_⟩,
      fun c hc => parser_rules_of_compile hclean hc⟩
    · refine derives_survivors hnodup hlefts hword h fun s hs => ?_
      rw [List.mem_singleton.1 hs]
      exact ReflTransGen.refl
    · exact h.mono fun r hr => (mem_rules_survivors.1 hr).mem

/-- A grammar with a left-hand side without alternatives, one that only mentions it, and one
    that nothing mentions. -/
def wasteful : RuleSet :=
  [⟨"$S", [["x", "$A"], ["y", "$D"]]⟩, ⟨"$A", [["a"], ["$E", "b"]]⟩, ⟨"$D", [["$E"]]⟩, ⟨"$E", []⟩,
    ⟨"$Orphan", [["z"]]⟩]

theorem clean_exact_wasteful :
    ∃ cleaned, (clean wasteful "$S").1 = .ok cleaned ∧
      cleaned.rules = [⟨"$S", ["x", "$A"]⟩, ⟨"$A", ["a"]⟩] ∧
      ∀ word, (∀ s ∈ word, isNonterminal s = false) →
        (Derives wasteful.rules ["$S"] word ↔ Derives cleaned.rules ["$S"] word) := by
  have hclean : (clean wasteful "$S").1 =
      .ok [⟨"$S", [["x", "$A"]]⟩, ⟨"$A", [["a"]]⟩] := by decide +kernel
  obtain ⟨-, hunknown, hundefined, hcleaned⟩ :=
    @clean_exact wasteful "$S" (by decide +kernel) (by decide +kernel)
  have hknown : ¬ ("$S" ∉ wasteful.lefts ∨ Barren wasteful "$S") := by
    rw [← hunknown, hclean]
    simp
  have hdefined : ∀ r, Survives wasteful "$S" r → ∀ s ∈ r.rhs, isNonterminal s = true →
      s ∈ wasteful.lefts := by
    intro r hr s hs hnt
    by_contra hnone
    obtain ⟨x, r', herror⟩ := hundefined.2 ⟨hknown, r, hr, s, hs, hnt, hnone⟩
    rw [hclean] at herror
    cases herror
  obtain ⟨cleaned, hok, -, -, hwords, -⟩ := hcleaned hknown hdefined
  refine ⟨cleaned, hok, ?_, hwords⟩
  rw [hclean] at hok
  cases hok
  rfl

end ParseBench.Grammar
