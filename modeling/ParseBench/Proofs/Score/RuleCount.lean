/-
  ParseBench.Proofs.Score.RuleCount

  The uses of the rules of a grammar. Every rule that an encoding lists is at a node of a parse
  tree (`exists_rule_of_vectorize`), and the root rule, which is numbered after all others, is at
  none. So a table with a place for each of the other rules is never left while the uses are
  entered in it (`table?_eq`), and the counts in it add up to the number of entries
  (`sum_counts`). The rest does not depend on the grammar: what is counted are the uses of the
  examples one after the other (`uses_append`), so the counts of two lists of examples add up,
  and the order has no part in them.
-/

import Mathlib.Algebra.BigOperators.Group.Finset.Basic
import ParseBench.Proofs.Program.Directions

namespace ParseBench

open Grammar

/-! ## The rules at the nodes of a parse tree -/

namespace Grammar.Parser

open ParseTree

variable {p : Parser}

mutual

/-- The reductions of a parse tree are by rules of the parser. -/
theorem IsTree.exists_rule {s : Symbol} {t : ParseTree} (h : p.IsTree s t) :
    ∀ rule ∈ reductions t.postorder, ∃ r, p.rules[rule]? = some r := by
  cases h with
  | leaf => exact fun rule hrule => absurd hrule List.not_mem_nil
  | @node root r children hr h =>
      intro rule hrule
      rw [postorder, reductions_append, List.mem_append] at hrule
      rcases hrule with hrule | hrule
      · exact h.exists_rule rule hrule
      · obtain rfl := List.mem_singleton.1 hrule
        exact ⟨r, hr⟩

theorem IsForest.exists_rule {symbols : List Symbol} {trees : List ParseTree}
    (h : p.IsForest symbols trees) :
    ∀ rule ∈ reductions (forestPostorder trees), ∃ r, p.rules[rule]? = some r := by
  cases h with
  | nil => exact fun rule hrule => absurd hrule List.not_mem_nil
  | cons ht h =>
      intro rule hrule
      rw [forestPostorder, reductions_append, List.mem_append] at hrule
      rcases hrule with hrule | hrule
      · exact ht.exists_rule rule hrule
      · exact h.exists_rule rule hrule

end

end Grammar.Parser

/-! ## The encoding of a program -/

namespace ProgramGrammar

variable {g : ProgramGrammar} {p : Program} {maxLength : Nat} {ids : List Nat}

/-- The reductions of the parser for a program that it accepts. -/
def reductions? (g : ProgramGrammar) (p : Program) : Option (List Nat) :=
  (g.tokenize p >>= g.parser.parse).toOption.map reductions

/-- The encoding from the leaves up lists the reductions. -/
theorem reductions?_eq_encode (g : ProgramGrammar) (p : Program) :
    g.reductions? p = ((g.turn .bottomUp).encode p).toOption := by
  rw [reductions?, encode, tokenize_turn]
  cases g.tokenize p with
  | error e => rfl
  | ok tokens =>
      simp only [turn, bind, Except.bind]
      cases g.parser.parse tokens with
      | error e => rfl
      | ok steps => rfl

/-- A program that the parser does not accept is not encoded. For the others the rules of the
    reductions are listed, in one order or the other, and the list is cut. -/
theorem vectorize_cases (hparser : g.parser.Lawful)
    (hstart : isNonterminal g.parser.start = true) (p : Program) :
    (g.reductions? p = none ∧ ∃ e, ∀ maxLength, g.vectorize p maxLength = .error e) ∨
      ∃ used listing : List Nat, g.reductions? p = some used ∧
        (∀ rule ∈ used, ∃ r, g.parser.rules[rule]? = some r) ∧ listing.Perm used ∧
        ∀ maxLength, g.vectorize p maxLength = .ok (listing.take maxLength) := by
  rcases encode_turn hparser hstart p with ⟨e, herror⟩ | ⟨tokens, t, -, hparse, hencode⟩
  · refine .inl ⟨?_, e, vectorize_of_encode_error (herror g.kind.direction)⟩
    rw [reductions?_eq_encode, herror]
    rfl
  · -- the rules are those of a tree with the same post-order
    obtain ⟨t', ht', -, hpostorder⟩ := Parser.exists_tree_untilEnd hparser hparse
    refine .inr ⟨reductions t.postorder, g.kind.direction.listing t, ?_, ?_,
      listing_perm _ .bottomUp t, vectorize_of_encode (hencode g.kind.direction)⟩
    · rw [reductions?_eq_encode, hencode]
      rfl
    · rw [← hpostorder]
      exact ht'.exists_rule

theorem exists_listing_of_vectorize (hparser : g.parser.Lawful)
    (hstart : isNonterminal g.parser.start = true) (h : g.vectorize p maxLength = .ok ids) :
    ∃ used listing : List Nat, g.reductions? p = some used ∧
      (∀ rule ∈ used, ∃ r, g.parser.rules[rule]? = some r) ∧ listing.Perm used ∧
      ids = listing.take maxLength := by
  rcases vectorize_cases hparser hstart p with
    ⟨-, e, herror⟩ | ⟨used, listing, hreductions, hused, hperm, hok⟩
  · cases h.symm.trans (herror maxLength)
  · exact ⟨used, listing, hreductions, hused, hperm,
      Except.ok.inj (h.symm.trans (hok maxLength))⟩

/-- No encoding has a rule that is not one of the parser's. -/
theorem exists_rule_of_vectorize (hparser : g.parser.Lawful)
    (hstart : isNonterminal g.parser.start = true) (h : g.vectorize p maxLength = .ok ids) :
    ∀ rule ∈ ids, ∃ r, g.parser.rules[rule]? = some r := by
  obtain ⟨used, listing, -, hused, hperm, rfl⟩ := exists_listing_of_vectorize hparser hstart h
  intro rule hrule
  exact hused rule (hperm.mem_iff.1 (List.mem_of_mem_take hrule))

theorem lt_ruleCount_of_vectorize (hparser : g.parser.Lawful)
    (hstart : isNonterminal g.parser.start = true) (h : g.vectorize p maxLength = .ok ids) :
    ∀ rule ∈ ids, rule < g.ruleCount := by
  intro rule hrule
  obtain ⟨r, hr⟩ := exists_rule_of_vectorize hparser hstart h rule hrule
  exact (Array.getElem?_eq_some_iff.1 hr).1

/-- The uses of rules that a program adds: none if the parser does not accept it. -/
def useCount (g : ProgramGrammar) (maxLength : Nat) (p : Program) : Nat :=
  match g.reductions? p with
  | some used => min maxLength used.length
  | none => 0

theorem useCount_of_vectorize (hparser : g.parser.Lawful)
    (hstart : isNonterminal g.parser.start = true) (h : g.vectorize p maxLength = .ok ids) :
    g.useCount maxLength p = ids.length := by
  obtain ⟨used, listing, hreductions, -, hperm, rfl⟩ := exists_listing_of_vectorize hparser hstart h
  rw [useCount, hreductions, List.length_take, hperm.length_eq]

theorem useCount_of_error (hparser : g.parser.Lawful)
    (hstart : isNonterminal g.parser.start = true) {e : GrammarError}
    (h : g.vectorize p maxLength = .error e) : g.useCount maxLength p = 0 := by
  rcases vectorize_cases hparser hstart p with ⟨hnone, -⟩ | ⟨used, listing, -, -, -, hok⟩
  · rw [useCount, hnone]
  · cases h.symm.trans (hok maxLength)

end ProgramGrammar

/-! ## Counts of uses -/

namespace RuleCount

variable {g : ProgramGrammar} {maxLength n rule : Nat} {examples : List Example}
variable {used rules : List Nat}

/-- How often each of the rules up to `n` is used. -/
def counts (n : Nat) (used : List Nat) : List Nat :=
  (List.range n).map used.count

theorem map_count_tally (g : ProgramGrammar) (examples : List Example) (maxLength : Nat) :
    (tally g examples maxLength).map RuleCount.count =
      counts g.ruleCount (uses g examples maxLength) := by
  rw [tally, List.map_map]
  rfl

/-- Each use is in one of the counts. -/
theorem sum_counts (h : ∀ rule ∈ used, rule < n) : (counts n used).sum = used.length := by
  have hmem : ∀ rule ∈ (used : Multiset Nat), rule ∈ Finset.range n := fun rule hrule =>
    Finset.mem_range.2 (h rule (Multiset.mem_coe.1 hrule))
  have hcard := Multiset.sum_count_eq_card hmem
  simp only [Multiset.coe_count, Multiset.coe_card] at hcard
  rw [counts, ← hcard, ← List.toFinset_range, List.sum_toFinset _ List.nodup_range]

/-! ### A table of counts -/

/-- The table after a use of a rule. There is none if the table has no place for the rule. -/
def enter? (table : List Nat) (rule : Nat) : Option (List Nat) :=
  table[rule]?.map fun count => table.set rule (count + 1)

/-- The table after an example. -/
def enterExample? (g : ProgramGrammar) (maxLength : Nat) (table : List Nat) (e : Example) :
    Option (List Nat) :=
  match g.vectorize e.program maxLength with
  | .ok rules => rules.foldlM enter? table
  | .error _ => some table

/-- The table after all examples, with a place for each rule. -/
def table? (g : ProgramGrammar) (examples : List Example) (maxLength : Nat) : Option (List Nat) :=
  examples.foldlM (enterExample? g maxLength) (List.replicate g.ruleCount 0)

theorem enter?_counts (h : rule < n) :
    enter? (counts n used) rule = some (counts n (used ++ [rule])) := by
  have hcount : (counts n used)[rule]? = some (used.count rule) := by
    rw [counts, List.getElem?_map, List.getElem?_range h, Option.map_some]
  rw [enter?, hcount, Option.map_some, Option.some_inj]
  have hlength : ((counts n used).set rule (used.count rule + 1)).length =
      (counts n (used ++ [rule])).length := by simp [counts]
  refine List.ext_getElem hlength fun i hi _ => ?_
  rw [List.getElem_set]
  -- one count more at the place of the rule, and the same as before at the others
  by_cases heq : rule = i
  · rw [if_pos heq]
    simp [counts, heq]
  · rw [if_neg heq]
    simp [counts, heq]

/-- The rules of a row are entered one after the other. -/
theorem foldlM_enter? (h : ∀ rule ∈ rules, rule < n) :
    rules.foldlM enter? (counts n used) = some (counts n (used ++ rules)) := by
  induction rules generalizing used with
  | nil => rw [List.append_nil]; rfl
  | cons rule rules ih =>
      rw [List.forall_mem_cons] at h
      rw [List.foldlM_cons, enter?_counts h.1, Option.bind_eq_bind, Option.bind_some, ih h.2,
        List.append_assoc, List.singleton_append]

/-! ### The uses of the examples -/

theorem uses_cons_ok {e : Example} (h : g.vectorize e.program maxLength = .ok rules) :
    uses g (e :: examples) maxLength = rules ++ uses g examples maxLength := by
  rw [uses, List.flatMap_cons, h]
  rfl

theorem uses_cons_error {e : Example} {error : GrammarError}
    (h : g.vectorize e.program maxLength = .error error) :
    uses g (e :: examples) maxLength = uses g examples maxLength := by
  rw [uses, List.flatMap_cons, h]
  rfl

theorem uses_append (g : ProgramGrammar) (examples more : List Example) (maxLength : Nat) :
    uses g (examples ++ more) maxLength = uses g examples maxLength ++ uses g more maxLength :=
  List.flatMap_append

theorem lt_of_mem_uses
    (hlt : ∀ p ids, g.vectorize p maxLength = .ok ids → ∀ rule ∈ ids, rule < n) :
    ∀ rule ∈ uses g examples maxLength, rule < n := by
  intro rule hrule
  obtain ⟨e, -, hrule⟩ := List.mem_flatMap.1 hrule
  split at hrule
  case h_1 ids h => exact hlt _ _ h rule hrule
  case h_2 => exact absurd hrule List.not_mem_nil

/-- Entering the uses of all examples never leaves a table that has a place for each rule. -/
theorem foldlM_enterExample?
    (hlt : ∀ p ids, g.vectorize p maxLength = .ok ids → ∀ rule ∈ ids, rule < n) :
    examples.foldlM (enterExample? g maxLength) (counts n used) =
      some (counts n (used ++ uses g examples maxLength)) := by
  induction examples generalizing used with
  | nil =>
      rw [uses, List.flatMap_nil, List.append_nil]
      rfl
  | cons e examples ih =>
      rw [List.foldlM_cons, enterExample?]
      cases h : g.vectorize e.program maxLength with
      | error error =>
          rw [uses_cons_error h, Option.bind_eq_bind, Option.bind_some, ih]
      | ok rules =>
          rw [uses_cons_ok h]
          simp only [foldlM_enter? (hlt _ _ h), Option.bind_eq_bind, Option.bind_some]
          rw [ih, List.append_assoc]

theorem table?_eq
    (hlt : ∀ p ids, g.vectorize p maxLength = .ok ids → ∀ rule ∈ ids, rule < g.ruleCount) :
    table? g examples maxLength = some ((tally g examples maxLength).map RuleCount.count) := by
  have hempty : List.replicate g.ruleCount 0 = counts g.ruleCount [] := by simp [counts]
  rw [table?, hempty, foldlM_enterExample? hlt, List.nil_append, map_count_tally]

theorem length_uses (hparser : g.parser.Lawful) (hstart : isNonterminal g.parser.start = true)
    (examples : List Example) (maxLength : Nat) :
    (uses g examples maxLength).length =
      (examples.map fun e => g.useCount maxLength e.program).sum := by
  induction examples with
  | nil => rfl
  | cons e examples ih =>
      rw [List.map_cons, List.sum_cons, ← ih]
      cases h : g.vectorize e.program maxLength with
      | error error =>
          rw [uses_cons_error h, ProgramGrammar.useCount_of_error hparser hstart h, Nat.zero_add]
      | ok rules =>
          rw [uses_cons_ok h, ProgramGrammar.useCount_of_vectorize hparser hstart h,
            List.length_append]

/-- Two entries for a rule as one. -/
def add (c d : RuleCount) : RuleCount :=
  { c with count := c.count + d.count }

theorem tally_append (g : ProgramGrammar) (examples more : List Example) (maxLength : Nat) :
    tally g (examples ++ more) maxLength =
      List.zipWith add (tally g examples maxLength) (tally g more maxLength) := by
  simp only [tally, uses_append, List.count_append, List.zipWith_map, List.zipWith_self, add]

/-- The tally depends on the uses without their order. -/
theorem tally_congr {other : List Example}
    (h : (uses g examples maxLength).Perm (uses g other maxLength)) :
    tally g examples maxLength = tally g other maxLength := by
  refine List.map_congr_left fun rule _ => ?_
  rw [h.count_eq]

/-- The tally of a grammar file. No encoding has a rule outside of the grammar's, so the root
    rule, which is numbered next, is never used, and a table with a place for each rule ends up
    with the counts of the tally. They add up to the reductions of the programs that the grammar
    derives, as far as the encodings are not cut. A program that is not encoded could as well be
    left out. The entries of two lists of examples add up, and the order of the examples has no
    part in them. -/
theorem tally_complete {f : GrammarFile} {rules : RuleSet} {kind : Kind}
    {json : Json.Reader} {text : String} (htext : GrammarFile.ofText? json text = some f)
    (hrules : f.ruleSet = .ok rules)
    (hlhs : ∀ group ∈ rules, isNonterminal group.lhs = true)
    (hstart : isNonterminal f.start = true) (hroot : ∀ group ∈ rules, group.lhs ≠ rootSymbol)
    (hend : ∀ group ∈ rules, ∀ rhs ∈ group.alternatives, endToken ∉ rhs)
    (hg : (ProgramGrammar.ofFile f kind).1 = .ok g) :
    (∀ p maxLength ids, g.vectorize p maxLength = .ok ids →
      ∀ rule ∈ ids, rule < g.ruleCount ∧
        ∃ r, g.parser.rules[rule]? = some r ∧ r.lhs ≠ rootSymbol) ∧
    g.parser.augmented[g.ruleCount]? = some (rootRule f.start) ∧
    ∀ examples maxLength,
      table? g examples maxLength = some ((tally g examples maxLength).map RuleCount.count) ∧
      (tally g examples maxLength).map RuleCount.rule = List.range g.ruleCount ∧
      (∀ c ∈ tally g examples maxLength,
        ∃ r, g.parser.rules[c.rule]? = some r ∧ c.text = r.text) ∧
      ((tally g examples maxLength).map RuleCount.count).sum =
        (examples.map fun e => match g.reductions? e.program with
          | some used => min maxLength used.length
          | none => 0).sum ∧
      (∀ before e after error, examples = before ++ e :: after →
        g.vectorize e.program maxLength = .error error →
          tally g examples maxLength = tally g (before ++ after) maxLength) ∧
      (∀ more, tally g (examples ++ more) maxLength =
        List.zipWith add (tally g examples maxLength) (tally g more maxLength)) ∧
      ∀ other, examples.Perm other → tally g other maxLength = tally g examples maxLength := by
  have hwell : rules.WellFormed f.start :=
    ⟨f.nodup_of_ruleSet (GrammarFile.tabular_of_ofText? htext) hrules, hlhs, hstart, hroot, hend⟩
  obtain ⟨hlawful, hfirst⟩ := ProgramGrammar.lawful_of_ofFile hwell hrules hg
  have hnt : isNonterminal g.parser.start = true := hfirst ▸ hstart
  have hlt : ∀ p maxLength ids, g.vectorize p maxLength = .ok ids →
      ∀ rule ∈ ids, rule < g.ruleCount := fun p maxLength ids hids =>
    ProgramGrammar.lt_ruleCount_of_vectorize hlawful hnt hids
  refine ⟨?ids, ?root, fun examples maxLength =>
    ⟨table?_eq fun p => hlt p maxLength, ?rules, ?texts, ?sum, ?skipped, ?parts, ?order⟩⟩
  case ids =>
    intro p maxLength ids hids rule hrule
    obtain ⟨r, hr⟩ := ProgramGrammar.exists_rule_of_vectorize hlawful hnt hids rule hrule
    exact ⟨hlt p maxLength ids hids rule hrule, r, hr,
      hlawful.augmentable.lhs_ne_root r (Parser.mem_rules hr)⟩
  case root =>
    rw [← hfirst]
    exact Parser.augmented_root
  case rules =>
    rw [tally, List.map_map]
    exact List.map_id _
  case texts =>
    intro entry hentry
    obtain ⟨rule, hrule, rfl⟩ := List.mem_map.1 hentry
    have hr := Array.getElem?_eq_getElem (List.mem_range.1 hrule)
    refine ⟨_, hr, ?_⟩
    simp only [ProgramGrammar.ruleText, hr]
  case sum =>
    -- each use has a place, and each example adds its own
    rw [map_count_tally, sum_counts (lt_of_mem_uses fun p => hlt p maxLength),
      length_uses hlawful hnt]
    rfl
  case skipped =>
    intro before e after error hexamples herror
    have huses : uses g examples maxLength = uses g (before ++ after) maxLength := by
      rw [hexamples, uses_append, uses_cons_error herror, uses_append]
    exact tally_congr (.of_eq huses)
  case parts => exact fun more => tally_append g examples more maxLength
  case order =>
    intro other hperm
    exact tally_congr (hperm.symm.flatMap_right _)

/-- An example that the grammar of the nested calls derives, by three rules, and one that it
    cannot read. -/
def lightOn : Example := ⟨"1", ["light", "on"], ["@light.on"]⟩

def lightOff : Example := ⟨"2", ["light", "off"], ["off"]⟩

theorem tally_complete_nested :
    (ProgramGrammar.nested .bottomUp).vectorize ["@light.on"] 2 = .ok [1, 2] ∧
      (∀ rule ∈ [1, 2], rule < (ProgramGrammar.nested .bottomUp).ruleCount) ∧
      (ProgramGrammar.nested .bottomUp).parser.augmented[3]? = some (rootRule "$Call") ∧
      table? (ProgramGrammar.nested .bottomUp) [lightOn, lightOff] 2 = some [0, 1, 1] ∧
      (ProgramGrammar.nested .bottomUp).reductions? ["@light.on"] = some [1, 2, 0] ∧
      ((tally (ProgramGrammar.nested .bottomUp) [lightOn, lightOff] 2).map RuleCount.count).sum =
        min 2 [1, 2, 0].length ∧
      tally (ProgramGrammar.nested .bottomUp) [lightOn, lightOff] 2 =
        tally (ProgramGrammar.nested .bottomUp) [lightOn] 2 ∧
      tally (ProgramGrammar.nested .bottomUp) [lightOff, lightOn] 2 =
        tally (ProgramGrammar.nested .bottomUp) [lightOn, lightOff] 2 := by
  obtain ⟨hids, hroot, htally⟩ := tally_complete ProgramGrammar.ofText?_nested
    ProgramGrammar.ruleSet_nested (by decide) (by decide) (by decide) (by decide)
    (ProgramGrammar.ofFile_nested .bottomUp)
  obtain ⟨htable, -, -, hsum, hskipped, -, horder⟩ := htally [lightOn, lightOff] 2
  have hon : (ProgramGrammar.nested .bottomUp).vectorize ["@light.on"] 2 = .ok [1, 2] :=
    eq_ok_of_toOption (by decide +kernel)
  have hoff : (ProgramGrammar.nested .bottomUp).vectorize lightOff.program 2 =
      .error (.unknownToken "off") := by decide +kernel
  have hcounts : (tally (ProgramGrammar.nested .bottomUp) [lightOn, lightOff] 2).map
      RuleCount.count = [0, 1, 1] := by decide +kernel
  have hused : (ProgramGrammar.nested .bottomUp).reductions? ["@light.on"] = some [1, 2, 0] := by
    decide +kernel
  have hnone : (ProgramGrammar.nested .bottomUp).reductions? ["off"] = none := by decide +kernel
  rw [hcounts] at htable
  refine ⟨hon, fun rule hrule => (hids _ _ _ hon rule hrule).1, hroot, htable, hused, ?_,
    hskipped [lightOn] lightOff [] _ rfl hoff, horder _ (.swap ..)⟩
  rw [hsum]
  simp [lightOn, lightOff, hused, hnone]

end RuleCount

end ParseBench
