/-
  ParseBench.Proofs.Grammar.Names

  What a compiled grammar can be relied on for about names. The tables take for granted
  that every non-terminal has rules, that the root symbol belongs to the root rule alone,
  and that the end of the input stands in no other rule (`TidyNames`).

  The search for undefined non-terminals goes through the last group of a left-hand
  side only. What cleaning keeps up is therefore about the rules of last groups
  (`RuleSet.Counts`): it leaves all of them that mention nothing barren (`Trims`), and the
  non-terminals they mention are left-hand sides (`Settled`). No pass looks for the root
  symbol or for the end of the input, so rules that mention them get through. Where no
  left-hand side is given twice and no rule uses the two names, the names of the compiled
  rules are tidy (`names_of_compile`).
-/

import ParseBench.Proofs.Grammar.Compile

namespace ParseBench.Grammar

variable {g h cleaned : RuleSet} {start : Symbol}

/-- The names of rules are as the tables take them to be. -/
structure TidyNames (start : Symbol) (rules : List Rule) : Prop where
  defined : ∀ r ∈ rules, ∀ s ∈ r.rhs, isNonterminal s = true → ∃ r' ∈ rules, r'.lhs = s
  root_lhs : ∀ r ∈ rules, r.lhs = rootSymbol → r = rootRule start
  root_rhs : ∀ r ∈ rules, rootSymbol ∉ r.rhs
  ending : ∀ r ∈ rules, r.lhs = endToken ∨ endToken ∈ r.rhs → r = rootRule start

/-! ## The alternatives that count -/

/-- The rule stands in the last group of its left-hand side. -/
def RuleSet.Counts (g : RuleSet) (r : Rule) : Prop := r.rhs ∈ (alternativesOf? g r.lhs).getD []

theorem RuleSet.Counts.mem_rules {r : Rule} (hr : g.Counts r) : r ∈ g.rules :=
  mem_rules_of_alternativesOf? hr

/-- Where no left-hand side is given twice, every rule counts. -/
theorem RuleSet.counts_of_nodup (hg : g.lefts.Nodup) {r : Rule} (hr : r ∈ g.rules) :
    g.Counts r := by
  obtain ⟨group, hgroup, hlhs, hrhs⟩ := RuleSet.mem_rules.1 hr
  rw [RuleSet.Counts, ← hlhs, alternativesOf?_of_mem hg hgroup]
  exact hrhs

theorem RuleSet.lhs_mem_lefts {r : Rule} (hr : r ∈ g.rules) : r.lhs ∈ g.lefts := by
  obtain ⟨group, hgroup, hlhs, -⟩ := RuleSet.mem_rules.1 hr
  exact List.mem_map.2 ⟨group, hgroup, hlhs⟩

theorem alternativesOf?_filter (p : Symbol → Bool) (g : RuleSet) {s : Symbol} (hs : p s = true) :
    alternativesOf? (g.filter fun group => p group.lhs) s = alternativesOf? g s := by
  rw [alternativesOf?, alternativesOf?, ← List.filter_reverse, List.find?_filter]
  congr 2
  funext group
  by_cases hlhs : group.lhs = s
  · simp [hlhs, hs]
  · simp [hlhs]

theorem alternativesOf?_map (f : List (List Symbol) → List (List Symbol)) (g : RuleSet)
    (s : Symbol) :
    alternativesOf? (g.map fun group => ⟨group.lhs, f group.alternatives⟩) s =
      (alternativesOf? g s).map f := by
  rw [alternativesOf?, alternativesOf?, ← List.map_reverse, List.find?_map, Option.map_map,
    Option.map_map]
  rfl

theorem alternativesOf?_fertilePart {s : Symbol} (hs : ¬ Barren g s) :
    alternativesOf? (fertilePart g g) s = (alternativesOf? g s).map (fertile g) := by
  classical
  rw [fertilePart, alternativesOf?_map,
    alternativesOf?_filter (fun s => decide ¬ Barren g s) g (decide_eq_true hs)]

/-! ## Cleaning -/

/-- The rules of `h` are some of those of `g`, and those of them that count in `g` count. -/
structure Trims (h g : RuleSet) : Prop where
  rules : ∀ r ∈ h.rules, r ∈ g.rules
  counts : ∀ r ∈ h.rules, g.Counts r → h.Counts r

theorem Trims.trans {k : RuleSet} (hkh : Trims k h) (hhg : Trims h g) : Trims k g where
  rules r hr := hhg.rules r (hkh.rules r hr)
  counts r hr hcounts := hkh.counts r hr (hhg.counts r (hkh.rules r hr) hcounts)

/-- Every left-hand side has a rule and is the start symbol or a non-terminal, and the rules
    that count mention no other non-terminals. -/
structure Settled (start : Symbol) (g : RuleSet) : Prop where
  start_mem : start ∈ g.lefts
  lefts : ∀ s ∈ g.lefts, s = start ∨ isNonterminal s = true
  ruled : ∀ s ∈ g.lefts, ∃ r ∈ g.rules, r.lhs = s
  defined : ∀ r, g.Counts r → ∀ s ∈ r.rhs, isNonterminal s = true → s ∈ g.lefts

theorem mem_lefts_filter {found : List Symbol} {s : Symbol} :
    s ∈ RuleSet.lefts (g.filter fun group => group.lhs ∈ found) ↔ s ∈ g.lefts ∧ s ∈ found := by
  simp only [RuleSet.lefts, List.mem_map, List.mem_filter, decide_eq_true_eq]
  constructor
  · rintro ⟨group, ⟨hgroup, hfound⟩, rfl⟩
    exact ⟨⟨group, hgroup, rfl⟩, hfound⟩
  · rintro ⟨⟨group, hgroup, rfl⟩, hfound⟩
    exact ⟨group, ⟨hgroup, hfound⟩, rfl⟩

theorem mem_rules_filter {found : List Symbol} {r : Rule} :
    r ∈ RuleSet.rules (g.filter fun group => group.lhs ∈ found) ↔ r ∈ g.rules ∧ r.lhs ∈ found := by
  simp only [RuleSet.mem_rules, List.mem_filter, decide_eq_true_eq]
  constructor
  · rintro ⟨group, ⟨hgroup, hfound⟩, hlhs, hrhs⟩
    exact ⟨⟨group, hgroup, hlhs, hrhs⟩, hlhs ▸ hfound⟩
  · rintro ⟨⟨group, hgroup, hlhs, hrhs⟩, hfound⟩
    exact ⟨group, ⟨hgroup, hlhs ▸ hfound⟩, hlhs, hrhs⟩

theorem counts_filter {found : List Symbol} {r : Rule} (hr : r.lhs ∈ found) :
    RuleSet.Counts (g.filter fun group => group.lhs ∈ found) r ↔ g.Counts r := by
  rw [RuleSet.Counts, alternativesOf?_filter (fun s => decide (s ∈ found)) g (decide_eq_true hr)]
  rfl

theorem trims_filter (found : List Symbol) :
    Trims (g.filter fun group => group.lhs ∈ found) g where
  rules _ hr := (mem_rules_filter.1 hr).1
  counts _ hr := (counts_filter (mem_rules_filter.1 hr).2).2

theorem trims_fertilePart : Trims (fertilePart g g) g where
  rules _ hr := (mem_rules_fertilePart.1 hr).mem
  counts r hr hcounts := by
    have hfertile := mem_rules_fertilePart.1 hr
    rw [RuleSet.Counts, alternativesOf?_fertilePart hfertile.lhs]
    rw [RuleSet.Counts] at hcounts
    cases halternatives : alternativesOf? g r.lhs with
    | none =>
        rw [halternatives] at hcounts
        cases hcounts
    | some alternatives =>
        rw [halternatives] at hcounts
        exact mem_fertile.2 ⟨hcounts, hfertile.rhs⟩

/-- What a search of the fertile part leaves when it ends well. -/
theorem Visits.settled (hstart : start ∈ (fertilePart g g).lefts) {found : List Symbol}
    (hv : Visits (fertilePart g g) [] [start] (.ok found)) :
    Settled start ((fertilePart g g).filter fun group => group.lhs ∈ found) := by
  have hpending : ∀ s ∈ [start], Reached (fertilePart g g) start s := by
    simpa using ⟨.refl, hstart⟩
  have hreached := (hv.reached (by simp) hpending).1 found rfl
  obtain ⟨hfound, -, hclosed⟩ := hv.closed (by simp)
  constructor
  case start_mem => exact mem_lefts_filter.2 ⟨hstart, hfound start (List.mem_singleton.2 rfl)⟩
  case lefts =>
    intro s hs
    -- the search comes to a symbol other than the start symbol through a mention of it
    rcases (hreached s (mem_lefts_filter.1 hs).2).path.cases_tail with rfl | ⟨_, -, hmention⟩
    · exact .inl rfl
    · obtain ⟨_, _, _, _, hnt⟩ := hmention
      exact .inr hnt
  case ruled =>
    intro s hs
    obtain ⟨hleft, hs⟩ := mem_lefts_filter.1 hs
    obtain ⟨group, hgroup, rfl⟩ := List.mem_map.1 hleft
    obtain ⟨whole, hwhole, hbarren, rfl⟩ := mem_fertilePart.1 hgroup
    obtain ⟨rhs, hrhs⟩ := List.exists_mem_of_ne_nil _ (fertile_ne_nil hwhole hbarren)
    exact ⟨⟨whole.lhs, rhs⟩,
      mem_rules_filter.2 ⟨RuleSet.mem_rules.2 ⟨_, hgroup, rfl, hrhs⟩, hs⟩, rfl⟩
  case defined =>
    intro r hr s hs hnt
    have hlhs := (mem_rules_filter.1 hr.mem_rules).2
    have hmem := hclosed r.lhs hlhs s ⟨hnt, r.rhs, (counts_filter hlhs).1 hr, hs⟩
    exact mem_lefts_filter.2 ⟨(hreached s hmem).mem_lefts, hmem⟩

/-- Cleaning only takes rules away and leaves a settled rule set. -/
theorem Cleans.trims_settled {result : Except GrammarError RuleSet} (hc : Cleans start g result)
    (hresult : result = .ok cleaned) : Trims cleaned g ∧ Settled start cleaned := by
  induction hc with
  | unknown _ _ => cases hresult
  | failed _ _ _ => cases hresult
  | @finished g swept found hs hstart hv _ _ =>
      cases hresult
      rw [remaining, hs.remaining_eq] at hstart hv ⊢
      exact ⟨(trims_filter found).trans trims_fertilePart, hv.settled hstart⟩
  | @again g swept found result hs hstart hv _ _ ih =>
      rw [remaining, hs.remaining_eq] at ih
      obtain ⟨htrims, hsettled⟩ := ih hresult
      exact ⟨htrims.trans ((trims_filter found).trans trims_fertilePart), hsettled⟩

theorem Trims.mem_lefts (htrims : Trims cleaned g) (hsettled : Settled start cleaned) {s : Symbol}
    (hs : s ∈ cleaned.lefts) : s ∈ g.lefts := by
  obtain ⟨r, hr, rfl⟩ := hsettled.ruled s hs
  exact RuleSet.lhs_mem_lefts (htrims.rules r hr)

/-! ## Compiled rules -/

/-- The rules of a compiled grammar are the cleaned ones and the root rule. -/
theorem exists_augment_of_compile {c : Compiled} (hc : (compile g start).1 = .ok c) :
    ∃ cleaned, (clean g start).1 = .ok cleaned ∧ c.rules = augment cleaned.rules start := by
  obtain ⟨cleaned, hclean, hcleaned⟩ := compile_ok_iff.1 hc
  obtain ⟨-, -, htabulate⟩ := compileCleaned_ok_iff.1 hcleaned
  obtain ⟨-, rfl⟩ := tabulate_ok_iff.1 htabulate
  exact ⟨cleaned, hclean, rules_withRoot cleaned start⟩

theorem Settled.lhs_nonterminal (hsettled : Settled start g) (hstart : isNonterminal start = true)
    {r : Rule} (hr : r ∈ g.rules) : isNonterminal r.lhs = true := by
  rcases hsettled.lefts _ (RuleSet.lhs_mem_lefts hr) with h | h
  · rw [h]
    exact hstart
  · exact h

/-- The root rule, and the rules that count, mention left-hand sides of the cleaned rule set. -/
theorem mem_lefts_of_counts (htrims : Trims cleaned g) (hsettled : Settled start cleaned) {r : Rule}
    (hr : r ∈ augment cleaned.rules start) (hcounts : r = rootRule start ∨ g.Counts r) {s : Symbol}
    (hs : s ∈ r.rhs) (hnt : isNonterminal s = true) : s ∈ cleaned.lefts := by
  by_cases hroot : r = rootRule start
  · subst hroot
    rcases List.mem_cons.1 hs with rfl | hs
    · exact hsettled.start_mem
    · exact absurd (List.mem_singleton.1 hs) (ne_endToken hnt)
  · have hr := (mem_augment.1 hr).resolve_right hroot
    exact hsettled.defined r (htrims.counts r hr (hcounts.resolve_left hroot)) s hs hnt

theorem exists_rule_of_counts (htrims : Trims cleaned g) (hsettled : Settled start cleaned)
    {r : Rule} (hr : r ∈ augment cleaned.rules start) (hcounts : r = rootRule start ∨ g.Counts r)
    {s : Symbol} (hs : s ∈ r.rhs) (hnt : isNonterminal s = true) :
    ∃ r' ∈ augment cleaned.rules start, r'.lhs = s := by
  obtain ⟨r', hr', hlhs⟩ :=
    hsettled.ruled s (mem_lefts_of_counts htrims hsettled hr hcounts hs hnt)
  exact ⟨r', mem_augment.2 (.inl hr'), hlhs⟩

theorem eq_rootRule_of_lhs (htrims : Trims cleaned g) (hroot : rootSymbol ∉ g.lefts) {r : Rule}
    (hr : r ∈ augment cleaned.rules start) (hlhs : r.lhs = rootSymbol) : r = rootRule start := by
  rcases mem_augment.1 hr with hr | hr
  · exact absurd (hlhs ▸ RuleSet.lhs_mem_lefts (htrims.rules r hr)) hroot
  · exact hr

theorem rootSymbol_not_mem_rhs (htrims : Trims cleaned g) (hsettled : Settled start cleaned)
    (hroot : rootSymbol ∉ g.lefts) {r : Rule} (hr : r ∈ augment cleaned.rules start)
    (hcounts : r = rootRule start ∨ g.Counts r) : rootSymbol ∉ r.rhs := fun hs =>
  hroot (htrims.mem_lefts hsettled
    (mem_lefts_of_counts htrims hsettled hr hcounts hs isNonterminal_rootSymbol))

theorem eq_rootRule_of_ending (htrims : Trims cleaned g) (hsettled : Settled start cleaned)
    (hstart : isNonterminal start = true) (hending : ∀ r ∈ g.rules, endToken ∉ r.rhs) {r : Rule}
    (hr : r ∈ augment cleaned.rules start) (h : r.lhs = endToken ∨ endToken ∈ r.rhs) :
    r = rootRule start := by
  rcases mem_augment.1 hr with hr | hr
  · rcases h with h | h
    · exact absurd h (ne_endToken (hsettled.lhs_nonterminal hstart hr))
    · exact absurd h (hending r (htrims.rules r hr))
  · exact hr

/-- Every rule set that compiles has a root rule after rules of its own, and the non-terminals
    that rules which count mention have rules. The root symbol has no other rules unless the rule
    set gives it some, and the end of the input stands in no other rule unless the rule set
    mentions it; so the names are tidy where it does neither and gives no left-hand side twice. -/
theorem names_of_compile {c : Compiled} (hstart : isNonterminal start = true)
    (hc : (compile g start).1 = .ok c) :
    (∃ base, c.rules = augment base start ∧
        ∀ r ∈ base, r ∈ g.rules ∧ isNonterminal r.lhs = true) ∧
      (∀ r ∈ c.rules, r = rootRule start ∨ g.Counts r → ∀ s ∈ r.rhs, isNonterminal s = true →
        ∃ r' ∈ c.rules, r'.lhs = s) ∧
      (rootSymbol ∉ g.lefts → (∀ r ∈ c.rules, r.lhs = rootSymbol → r = rootRule start) ∧
        ∀ r ∈ c.rules, r = rootRule start ∨ g.Counts r → rootSymbol ∉ r.rhs) ∧
      ((∀ r ∈ g.rules, endToken ∉ r.rhs) →
        ∀ r ∈ c.rules, r.lhs = endToken ∨ endToken ∈ r.rhs → r = rootRule start) ∧
      (g.lefts.Nodup → rootSymbol ∉ g.lefts → (∀ r ∈ g.rules, endToken ∉ r.rhs) →
        TidyNames start c.rules) := by
  obtain ⟨cleaned, hclean, hrules⟩ := exists_augment_of_compile hc
  obtain ⟨htrims, hsettled⟩ := (cleans_clean g start).trims_settled hclean
  rw [hrules]
  refine ⟨⟨cleaned.rules, rfl, fun r hr => ⟨htrims.rules r hr, hsettled.lhs_nonterminal hstart hr⟩⟩,
    ?defined, ?root, ?ending, ?tidy⟩
  case defined =>
    exact fun r hr hcounts s hs hnt => exists_rule_of_counts htrims hsettled hr hcounts hs hnt
  case root =>
    exact fun hroot => ⟨fun r hr => eq_rootRule_of_lhs htrims hroot hr,
      fun r hr => rootSymbol_not_mem_rhs htrims hsettled hroot hr⟩
  case ending =>
    exact fun hending r hr => eq_rootRule_of_ending htrims hsettled hstart hending hr
  case tidy =>
    intro hg hroot hending
    have hcounts : ∀ r ∈ augment cleaned.rules start, r = rootRule start ∨ g.Counts r := by
      intro r hr
      rcases mem_augment.1 hr with hr | hr
      · exact .inr (RuleSet.counts_of_nodup hg (htrims.rules r hr))
      · exact .inl hr
    exact
      { defined := fun r hr s hs hnt =>
          exists_rule_of_counts htrims hsettled hr (hcounts r hr) hs hnt
        root_lhs := fun r hr => eq_rootRule_of_lhs htrims hroot hr
        root_rhs := fun r hr => rootSymbol_not_mem_rhs htrims hsettled hroot hr (hcounts r hr)
        ending := fun r hr => eq_rootRule_of_ending htrims hsettled hstart hending hr }

theorem exists_compiled_of_rules {rules : List Rule}
    (h : (compile g start).1.toOption.map Compiled.rules = some rules) :
    ∃ c, (compile g start).1 = .ok c ∧ c.rules = rules := by
  obtain ⟨c, hc, hrules⟩ := Option.map_eq_some_iff.1 h
  exact ⟨c, eq_ok_of_toOption hc, hrules⟩

/-- A grammar that gives a left-hand side twice. Only the second group counts. -/
def doubled : RuleSet := [⟨"$S", [["x"]]⟩, ⟨"$S", [["a", "$A"]]⟩, ⟨"$A", [["b"]]⟩]

theorem names_of_compile_doubled :
    (∃ c, (compile doubled "$S").1 = .ok c ∧ (∃ r ∈ c.rules, r.lhs = "$A") ∧
      (∀ r ∈ c.rules, r.lhs = rootSymbol → r = rootRule "$S") ∧
      ∀ r ∈ c.rules, r.lhs = endToken ∨ endToken ∈ r.rhs → r = rootRule "$S") ∧
      TidyNames "$Sum" sumsCompiled.rules := by
  obtain ⟨c, hc, hrules⟩ : ∃ c, (compile doubled "$S").1 = .ok c ∧
      c.rules = [⟨"$S", ["x"]⟩, ⟨"$S", ["a", "$A"]⟩, ⟨"$A", ["b"]⟩, rootRule "$S"] :=
    exists_compiled_of_rules (by decide +kernel)
  obtain ⟨-, hdefined, hroot, hending, -⟩ := names_of_compile (by decide) hc
  obtain ⟨-, -, -, -, htidy⟩ := names_of_compile (by decide) compile_sums
  have hcounts : doubled.Counts ⟨"$S", ["a", "$A"]⟩ := by
    rw [RuleSet.Counts]
    decide
  have ha : ∃ r ∈ c.rules, r.lhs = "$A" :=
    hdefined ⟨"$S", ["a", "$A"]⟩ (by simp [hrules]) (.inr hcounts) "$A" (by simp) (by decide)
  exact ⟨⟨c, hc, ha, (hroot (by decide)).1, hending (by decide)⟩,
    htidy (by decide) (by decide) (by decide)⟩

/-- A grammar with a group that is followed by another one of the same left-hand side. -/
def shadowed : RuleSet := [⟨"$S", [["$X"]]⟩, ⟨"$S", [["a"]]⟩]

/-- A grammar that gives rules for the root symbol. -/
def rooted : RuleSet := [⟨"$S", [["$ROOT"]]⟩, ⟨"$ROOT", [["a"]]⟩]

/-- A grammar that mentions the end of the input. -/
def ended : RuleSet := [⟨"$S", [["a", endToken]]⟩]

/-- A group that another one of the same left-hand side follows is numbered but not searched, so it
    can mention a non-terminal without rules. Rules for the root symbol, and the end of the input
    in a rule, are not looked for at all. -/
theorem untidy_names :
    (∃ c, (compile shadowed "$S").1 = .ok c ∧
        c.rules = [⟨"$S", ["$X"]⟩, ⟨"$S", ["a"]⟩, rootRule "$S"] ∧ ¬ TidyNames "$S" c.rules) ∧
      (∃ c, (compile rooted "$S").1 = .ok c ∧
        c.rules = [⟨"$S", ["$ROOT"]⟩, ⟨"$ROOT", ["a"]⟩, rootRule "$S"] ∧
        ¬ TidyNames "$S" c.rules) ∧
      ∃ c, (compile ended "$S").1 = .ok c ∧
        c.rules = [⟨"$S", ["a", endToken]⟩, rootRule "$S"] ∧ ¬ TidyNames "$S" c.rules := by
  refine ⟨?shadowed, ?rooted, ?ended⟩
  case shadowed =>
    obtain ⟨c, hc, hrules⟩ : ∃ c, (compile shadowed "$S").1 = .ok c ∧
        c.rules = [⟨"$S", ["$X"]⟩, ⟨"$S", ["a"]⟩, rootRule "$S"] :=
      exists_compiled_of_rules (by decide +kernel)
    refine ⟨c, hc, hrules, fun htidy => ?_⟩
    rw [hrules] at htidy
    exact absurd (htidy.defined ⟨"$S", ["$X"]⟩ (by simp) "$X" (by simp) (by decide)) (by decide)
  case rooted =>
    obtain ⟨c, hc, hrules⟩ : ∃ c, (compile rooted "$S").1 = .ok c ∧
        c.rules = [⟨"$S", ["$ROOT"]⟩, ⟨"$ROOT", ["a"]⟩, rootRule "$S"] :=
      exists_compiled_of_rules (by decide +kernel)
    refine ⟨c, hc, hrules, fun htidy => ?_⟩
    rw [hrules] at htidy
    exact absurd (htidy.root_lhs ⟨"$ROOT", ["a"]⟩ (by simp) rfl) (by decide)
  case ended =>
    obtain ⟨c, hc, hrules⟩ : ∃ c, (compile ended "$S").1 = .ok c ∧
        c.rules = [⟨"$S", ["a", endToken]⟩, rootRule "$S"] :=
      exists_compiled_of_rules (by decide +kernel)
    refine ⟨c, hc, hrules, fun htidy => ?_⟩
    rw [hrules] at htidy
    exact absurd (htidy.ending ⟨"$S", ["a", endToken]⟩ (by simp) (.inr (by simp))) (by decide)

end ParseBench.Grammar
