/-
  ParseBench.Proofs.Grammar.SymbolTable

  The ids of the symbols of a compiled grammar. The terminals are ordered by their bytes, and
  the reserved tokens have to be the first of them. The check looks at the first places only:
  of two ascending lists, one a part of the other, the longer one has at the first place where
  they differ the least of its elements that come before some element of the shorter one without
  being in it (`find?_zip_eq_some_iff`). So the check finds a terminal that sorts before the last
  reserved token whenever there is one, and reports the least (`misplaced?_eq_some_iff`).

  Otherwise ids and symbols stand for each other, those of the terminals first
  (`symbolId?_eq_some_iff`), and each rule's left-hand side has a column in the table of the
  states after non-terminals (`ruleShape?_of_mem`).
-/

import Mathlib.Order.Bounds.Basic
import ParseBench.Proofs.Grammar.Names
import ParseBench.Proofs.Text.ByteOrder

namespace ParseBench.Grammar

open Text (BytesBefore bytesBefore_iff)

/-! ## The first places of an ascending list -/

section Ascending

variable {α : Type} [LinearOrder α] {l reserved : List α}

/-- An element that comes before one of the reserved ones and is none of them. -/
def IsIntruder (l reserved : List α) (a : α) : Prop :=
  a ∈ l ∧ a ∉ reserved ∧ ∃ r ∈ reserved, a < r

theorem isIntruder_cons {a : α} (hl : (a :: l).Pairwise (· < ·))
    (hreserved : (a :: reserved).Pairwise (· < ·)) {b : α} :
    IsIntruder (a :: l) (a :: reserved) b ↔ IsIntruder l reserved b := by
  have hlt := (List.pairwise_cons.1 hl).1
  unfold IsIntruder
  constructor
  · rintro ⟨hmem, hnot, r, hr, hbr⟩
    obtain ⟨hne, hnot⟩ := not_or.1 (List.mem_cons.not.1 hnot)
    have hlater : b ∈ l := (List.mem_cons.1 hmem).resolve_left hne
    refine ⟨hlater, hnot, r, (List.mem_cons.1 hr).resolve_left ?_, hbr⟩
    -- nothing in `l` comes before the element that both lists begin with
    rintro rfl
    exact lt_asymm hbr (hlt b hlater)
  · rintro ⟨hmem, hnot, r, hr, hbr⟩
    refine ⟨List.mem_cons_of_mem _ hmem, ?_, r, List.mem_cons_of_mem _ hr, hbr⟩
    rw [List.mem_cons, not_or]
    exact ⟨(hlt b hmem).ne', hnot⟩

/-- The first element that is not in its reserved place is the least intruder. -/
theorem find?_zip_eq_some_iff [BEq α] [LawfulBEq α] (hl : l.Pairwise (· < ·))
    (hreserved : reserved.Pairwise (· < ·)) (hsubset : ∀ r ∈ reserved, r ∈ l) {a : α} :
    ((l.zip reserved).find? fun p => p.1 != p.2).map (·.1) = some a ↔
      IsLeast {b | IsIntruder l reserved b} a := by
  induction reserved generalizing l with
  | nil =>
      rw [List.zip_nil_right]
      constructor
      · rintro ⟨⟩
      · rintro ⟨⟨-, -, r, hr, -⟩, -⟩
        cases hr
  | cons r reserved ih =>
      obtain ⟨b, l, rfl⟩ := List.exists_cons_of_ne_nil
        (List.ne_nil_of_mem (hsubset r List.mem_cons_self))
      obtain ⟨hb, hl'⟩ := List.pairwise_cons.1 hl
      obtain ⟨hr, hreserved'⟩ := List.pairwise_cons.1 hreserved
      by_cases hbr : b = r
      -- the same element in both lists is no intruder, and it makes none
      · subst hbr
        have hsubset' : ∀ r ∈ reserved, r ∈ l := fun r hmem =>
          (List.mem_cons.1 (hsubset r (List.mem_cons_of_mem _ hmem))).resolve_left (hr r hmem).ne'
        rw [List.zip_cons_cons, List.find?_cons_of_neg (by simp), ih hl' hreserved' hsubset']
        simp only [isIntruder_cons hl hreserved]
      -- otherwise `r` stands further on in `l`, and `b`, the first of all, before it
      · rw [List.zip_cons_cons, List.find?_cons_of_pos (by simpa using hbr), Option.map_some,
          Option.some.injEq]
        have hlt : b < r :=
          hb r ((List.mem_cons.1 (hsubset r List.mem_cons_self)).resolve_left (Ne.symm hbr))
        have hleast : IsLeast {c | IsIntruder (b :: l) (r :: reserved) c} b := by
          refine ⟨⟨List.mem_cons_self, ?_, r, List.mem_cons_self, hlt⟩, fun c hc => ?_⟩
          · rw [List.mem_cons, not_or]
            exact ⟨hbr, fun hmem => lt_asymm hlt (hr b hmem)⟩
          · rcases List.mem_cons.1 hc.1 with rfl | hmem
            · exact le_refl c
            · exact (hb c hmem).le
        exact ⟨fun h => h ▸ hleast, fun h => hleast.unique h⟩

theorem not_isIntruder_of_isPrefix (hl : l.Pairwise (· < ·)) (hbegins : reserved <+: l) (a : α) :
    ¬ IsIntruder l reserved a := by
  obtain ⟨rest, rfl⟩ := hbegins
  rintro ⟨hmem, hnot, r, hr, hlt⟩
  have hrest := (List.mem_append.1 hmem).resolve_left hnot
  exact lt_asymm hlt ((List.pairwise_append.1 hl).2.2 r hr a hrest)

end Ascending

/-! ## Terminals before the reserved tokens -/

/-- A terminal of the rules, none of the reserved tokens, that sorts before the last of them. -/
def Intrudes (rules : List Rule) (t : Symbol) : Prop :=
  (∃ r ∈ rules, t ∈ r.rhs) ∧ isNonterminal t = false ∧ t ∉ reservedTokens ∧
    BytesBefore t startToken

/-- The first of the terminals that sort before the last reserved token. -/
def IsFirstIntruding (rules : List Rule) (t : Symbol) : Prop :=
  Intrudes rules t ∧ ∀ u, Intrudes rules u → u = t ∨ BytesBefore t u

theorem pairwise_reservedTokens : reservedTokens.Pairwise (· < ·) := by decide +kernel

theorem exists_reserved_gt_iff {t : Symbol} : (∃ r ∈ reservedTokens, t < r) ↔ t < startToken := by
  constructor
  · rintro ⟨r, hr, hlt⟩
    have hle : ∀ r ∈ reservedTokens, r ≤ startToken := by decide +kernel
    exact lt_of_lt_of_le hlt (hle r hr)
  · exact fun hlt => ⟨startToken, by decide, hlt⟩

namespace Alphabet

variable {base rules : List Rule} {start t : Symbol}

theorem pairwise_terminals_ofRules (rules : List Rule) :
    (ofRules rules).terminals.Pairwise (· < ·) :=
  Ordered.pairwise_ofList _

/-- The root rule adds no terminal to the reserved ones. -/
theorem mem_terminals_augment (hstart : isNonterminal start = true) {s : Symbol} :
    s ∈ (ofRules (augment base start)).terminals ↔
      s ∈ reservedTokens ∨ ∃ r ∈ base, s ∈ r.rhs ∧ isNonterminal s = false := by
  rw [mem_terminals_ofRules]
  constructor
  · rintro (hs | ⟨r, hr, hs, hterminal⟩)
    · exact .inl hs
    rcases mem_augment.1 hr with hr | rfl
    · exact .inr ⟨r, hr, hs, hterminal⟩
    · rcases List.mem_cons.1 hs with rfl | hs
      · rw [hstart] at hterminal
        cases hterminal
      · rw [List.mem_singleton.1 hs]
        exact .inl (by decide)
  · rintro (hs | ⟨r, hr, hs⟩)
    · exact .inl hs
    · exact .inr ⟨r, mem_augment.2 (.inl hr), hs⟩

theorem isIntruder_terminals_iff (hstart : isNonterminal start = true) :
    IsIntruder (ofRules (augment base start)).terminals reservedTokens t ↔ Intrudes base t := by
  rw [IsIntruder, Intrudes, mem_terminals_augment hstart, exists_reserved_gt_iff, bytesBefore_iff]
  constructor
  · rintro ⟨hmem, hnot, hlt⟩
    obtain ⟨r, hr, hs, hterminal⟩ := hmem.resolve_left hnot
    exact ⟨⟨r, hr, hs⟩, hterminal, hnot, hlt⟩
  · rintro ⟨⟨r, hr, hs⟩, hterminal, hnot, hlt⟩
    exact ⟨.inr ⟨r, hr, hs, hterminal⟩, hnot, hlt⟩

/-- What the check of the first places reports is the first terminal that sorts before the last
    reserved token. -/
theorem misplaced?_eq_some_iff (hstart : isNonterminal start = true) :
    (ofRules (augment base start)).misplaced? = some t ↔ IsFirstIntruding base t := by
  rw [misplaced?, find?_zip_eq_some_iff (pairwise_terminals_ofRules _) pairwise_reservedTokens
    fun _ => reserved_subset_terminals, IsLeast, Set.mem_ofPred_eq, isIntruder_terminals_iff hstart]
  refine and_congr_right fun _ => forall_congr' fun u => ?_
  rw [Set.mem_ofPred_eq, isIntruder_terminals_iff hstart, bytesBefore_iff, le_iff_eq_or_lt, eq_comm]

/-- If the check finds nothing, no terminal sorts before the last reserved token. -/
theorem not_intrudes_of_misplaced?_eq_none (hstart : isNonterminal start = true)
    (h : (ofRules (augment base start)).misplaced? = none) (t : Symbol) : ¬ Intrudes base t := by
  rw [← isIntruder_terminals_iff hstart]
  exact not_isIntruder_of_isPrefix (pairwise_terminals_ofRules _) (reserved_isPrefix_terminals h) t

theorem ofRules?_error_iff {e : GrammarError} :
    ofRules? rules = .error e ↔
      ∃ t, (ofRules rules).misplaced? = some t ∧ e = .reservedTerminal t := by
  unfold ofRules?
  split
  · next t ht => simp [ht, eq_comm]
  · next hplaced => simp [hplaced]

end Alphabet

/-! ## Ids -/

namespace Parser

/-- The shape of a rule in the table of the rules: the column of its left-hand side, and how many
    symbols its right-hand side has. There is none if the left-hand side has the id of a terminal
    or no id at all. -/
def ruleShape? (p : Parser) (r : Rule) : Option (Nat × Nat) := do
  let id ← p.symbolId? r.lhs
  -- columns count from the first non-terminal
  if id < p.terminals.size then none else some (id - p.terminals.size, r.rhs.length)

variable {p : Parser} {s : Symbol} {id : Nat}

theorem symbolId?_of_mem (hnonterminals : p.nonterminals.toList.Nodup) {column : Nat}
    (hs : p.nonterminals[column]? = some s) : p.symbolId? s = some (p.terminals.size + column) := by
  rw [← Array.getElem?_toList] at hs
  rw [symbolId?, (idxOf?_eq_some_iff_getElem? hnonterminals).2 hs]

/-- Where no symbol is listed twice, a symbol's id is its place among all symbols. -/
theorem symbolId?_eq_some_iff (h : (p.terminals.toList ++ p.nonterminals.toList).Nodup) :
    p.symbolId? s = some id ↔ (p.terminals.toList ++ p.nonterminals.toList)[id]? = some s := by
  obtain ⟨hterminals, hnonterminals, -⟩ := List.nodup_append'.1 h
  by_cases hs : s ∈ p.nonterminals
  · obtain ⟨column, hcolumn⟩ := Array.mem_iff_getElem?.1 hs
    have hplace : (p.terminals.toList ++ p.nonterminals.toList)[p.terminals.size + column]? =
        some s := by
      rw [List.getElem?_append_right (by simp), Array.length_toList, Nat.add_sub_cancel_left,
        Array.getElem?_toList]
      exact hcolumn
    rw [symbolId?_of_mem hnonterminals hcolumn, Option.some.injEq]
    constructor
    · rintro rfl
      exact hplace
    · exact eq_of_getElem?_of_nodup h hplace
  · rw [symbolId?_of_not_mem hs, idxOf?_eq_some_iff_getElem? hterminals, List.getElem?_append]
    split
    · exact Iff.rfl
    -- behind the terminals there are only non-terminals
    · next hlt =>
        rw [List.getElem?_eq_none (Nat.le_of_not_lt hlt)]
        constructor
        · rintro ⟨⟩
        · exact fun hid => absurd (Array.mem_toList_iff.1 (List.mem_of_getElem? hid)) hs

theorem ruleShape?_of_mem (hnonterminals : p.nonterminals.toList.Nodup) {r : Rule} {column : Nat}
    (hlhs : p.nonterminals[column]? = some r.lhs) :
    p.ruleShape? r = some (column, r.rhs.length) := by
  rw [ruleShape?, symbolId?_of_mem hnonterminals hlhs, Option.bind_eq_bind, Option.bind_some,
    if_neg (by omega), Nat.add_sub_cancel_left]

end Parser

/-! ## The symbol table -/

/-- The table of the rules, if each of them has an entry. -/
def Compiled.ruleTable? (c : Compiled) : Option (List (Nat × Nat)) :=
  c.rules.mapM c.parser.ruleShape?

/-- An entry of the table of the rules stands for a rule: it has the length of the right-hand side,
    and its column is one of each row of the table of the states after non-terminals, that of the
    left-hand side. -/
structure IsEntry (c : Compiled) (r : Rule) (entry : Nat × Nat) : Prop where
  lhs : c.alphabet.nonterminals[entry.1]? = some r.lhs
  length : entry.2 = r.rhs.length
  column : ∀ row ∈ c.gotos, entry.1 < row.length
  goto? : ∀ state, c.parser.goto? state r.lhs =
    (c.gotos[state]?.bind fun row => row[entry.1]?).join

/-- The symbols of a grammar that was compiled from rules, and their ids. -/
structure IsSymbolTable (rules : List Rule) (c : Compiled) : Prop where
  ascending : c.alphabet.terminals.Pairwise BytesBefore
  padding : c.alphabet.terminals[0]? = some paddingToken
  ending : c.alphabet.terminals[1]? = some endToken
  start : c.alphabet.terminals[2]? = some startToken
  mem_terminals : ∀ s, s ∈ c.alphabet.terminals ↔
    s ∈ reservedTokens ∨ ∃ r ∈ rules, s ∈ r.rhs ∧ isNonterminal s = false
  symbolId? : ∀ s id, c.parser.symbolId? s = some id ↔
    (c.alphabet.terminals ++ c.alphabet.nonterminals)[id]? = some s
  terminalId? : ∀ s id, c.parser.terminalId? s = some id ↔ c.alphabet.terminals[id]? = some s
  terminalId?_none : ∀ s, c.parser.terminalId? s = none ↔ s ∉ c.alphabet.terminals
  terminalId?_nonterminal : ∀ s, isNonterminal s = true → c.parser.terminalId? s = none
  ruled : ∃ table, c.ruleTable? = some table ∧ List.Forall₂ (IsEntry c) c.rules table

theorem exists_mapM_eq_some {α β : Type} {R : α → β → Prop} {f : α → Option β} {l : List α}
    (h : ∀ a ∈ l, ∃ b, f a = some b ∧ R a b) :
    ∃ bs, l.mapM f = some bs ∧ List.Forall₂ R l bs := by
  induction l with
  | nil => exact ⟨[], rfl, .nil⟩
  | cons a l ih =>
      obtain ⟨⟨b, hb, hR⟩, hl⟩ := List.forall_mem_cons.1 h
      obtain ⟨bs, hbs, hRs⟩ := ih hl
      refine ⟨b :: bs, ?_, .cons hR hRs⟩
      rw [List.mapM_cons, hb, hbs]
      rfl

section OfRules

variable {rules base : List Rule} {alphabet : Alphabet} {start : Symbol}

/-- No symbol is both a terminal and a non-terminal, if all left-hand sides are non-terminals. -/
theorem nodup_symbols_ofRules (hlhs : ∀ r ∈ rules, isNonterminal r.lhs = true) :
    ((Alphabet.ofRules rules).terminals ++ (Alphabet.ofRules rules).nonterminals).Nodup := by
  refine List.nodup_append'.2 ⟨Alphabet.nodup_terminals_ofRules _,
    Alphabet.nodup_nonterminals_ofRules _, fun s hterminal hnonterminal => ?_⟩
  have hs : isNonterminal s = true := by
    obtain ⟨r, hr, rfl | ⟨-, hs⟩⟩ := Alphabet.mem_nonterminals_ofRules.1 hnonterminal
    · exact hlhs r hr
    · exact hs
  rw [Alphabet.isNonterminal_of_mem_terminals hterminal] at hs
  cases hs

theorem length_of_mem_gotoTable {row : List (Option Nat)}
    (h : row ∈ (TableInput.ofRules rules alphabet).gotoTable) :
    row.length = alphabet.nonterminals.length := by
  obtain ⟨q, hq⟩ := List.mem_iff_getElem?.1 h
  rw [TableInput.getElem?_gotoTable] at hq
  obtain ⟨set, -, rfl⟩ := Option.map_eq_some_iff.1 hq
  exact List.length_map _

/-- Every rule has an entry in the table of the rules. -/
theorem exists_entry_ofRules (hnodup : alphabet.nonterminals.Nodup) {r : Rule}
    (hr : r.lhs ∈ alphabet.nonterminals) :
    ∃ entry, (Compiled.ofRules start rules alphabet).parser.ruleShape? r = some entry ∧
      IsEntry (Compiled.ofRules start rules alphabet) r entry := by
  obtain ⟨column, hcolumn⟩ := List.getElem?_of_mem hr
  refine ⟨(column, r.rhs.length), Parser.ruleShape?_of_mem ?_ ?_, ?_⟩
  · simpa [Compiled.parser, Compiled.ofRules] using hnodup
  · simpa [Compiled.parser, Compiled.ofRules] using hcolumn
  · refine ⟨hcolumn, rfl, fun row hrow => ?_, fun state => ?_⟩
    · rw [length_of_mem_gotoTable hrow]
      exact (List.getElem?_eq_some_iff.1 hcolumn).1
    · have hidx := (idxOf?_eq_some_iff_getElem? hnodup).2 hcolumn
      simp only [Parser.goto?, Compiled.parser, Compiled.ofRules, hidx, List.getElem?_toArray,
        List.getElem?_map, Option.bind_eq_bind, Option.bind_some]
      cases (TableInput.ofRules rules alphabet).gotoTable[state]? with
      | none => rfl
      | some row =>
          rw [Option.map_some, Option.bind_some, Option.bind_some, List.getElem?_toArray]
          exact Option.bind_id_eq_join

theorem symbolId?_ofRules (h : (alphabet.terminals ++ alphabet.nonterminals).Nodup) {s : Symbol}
    {id : Nat} : (Compiled.ofRules start rules alphabet).parser.symbolId? s = some id ↔
      (alphabet.terminals ++ alphabet.nonterminals)[id]? = some s :=
  Parser.symbolId?_eq_some_iff h

theorem terminalId?_ofRules (h : (alphabet.terminals ++ alphabet.nonterminals).Nodup) {s : Symbol}
    {id : Nat} : (Compiled.ofRules start rules alphabet).parser.terminalId? s = some id ↔
      alphabet.terminals[id]? = some s := by
  obtain ⟨hterminals, -, hdisjoint⟩ := List.nodup_append'.1 h
  rw [Parser.terminalId?_eq_some_iff_of_disjoint hterminals]
  · simp [Compiled.parser, Compiled.ofRules]
  · intro s hterminal hnonterminal
    exact hdisjoint (List.mem_toArray.1 hterminal) (List.mem_toArray.1 hnonterminal)

/-- The symbols of rules whose left-hand sides are non-terminals, with the root rule after them. -/
theorem isSymbolTable_ofRules (hstart : isNonterminal start = true)
    (hlhs : ∀ r ∈ base, isNonterminal r.lhs = true)
    (hplaced : (Alphabet.ofRules (augment base start)).misplaced? = none) :
    IsSymbolTable base (Compiled.ofRules start (augment base start)
      (Alphabet.ofRules (augment base start))) := by
  have haugment : ∀ r ∈ augment base start, isNonterminal r.lhs = true :=
    isNonterminal_of_mem_augment hlhs
  have hnodup := nodup_symbols_ofRules haugment
  have hnone : ∀ s, (Compiled.ofRules start (augment base start)
      (Alphabet.ofRules (augment base start))).parser.terminalId? s = none ↔
        s ∉ (Alphabet.ofRules (augment base start)).terminals :=
    fun s => eq_none_iff_not_mem fun id => terminalId?_ofRules hnodup
  exact
    { ascending := (Alphabet.pairwise_terminals_ofRules _).imp bytesBefore_iff.2
      padding := Alphabet.getElem?_reserved hplaced rfl
      ending := Alphabet.getElem?_reserved hplaced rfl
      start := Alphabet.getElem?_reserved hplaced rfl
      mem_terminals := fun s => Alphabet.mem_terminals_augment hstart
      symbolId? := fun s id => symbolId?_ofRules hnodup
      terminalId? := fun s id => terminalId?_ofRules hnodup
      terminalId?_none := hnone
      terminalId?_nonterminal := fun s hs => (hnone s).2 fun hmem => by
        rw [Alphabet.isNonterminal_of_mem_terminals hmem] at hs
        cases hs
      ruled := exists_mapM_eq_some fun r hr => exists_entry_ofRules
        (Alphabet.nodup_nonterminals_ofRules _) (Alphabet.lhs_mem_nonterminals_ofRules hr) }

end OfRules

/-- Of rules that were cleaned and numbered, the alphabet is refused if and only if a terminal other
    than the reserved tokens sorts before the last of these; the first such terminal is reported,
    and compiling fails with that error. The symbols of what compiles have their places as ids,
    the reserved tokens first. -/
theorem symbols_of_number {g cleaned : RuleSet} {start : Symbol} {rules : List Rule}
    (hstart : isNonterminal start = true) (hclean : (clean g start).1 = .ok cleaned)
    (hnumber : (number (withRoot cleaned start)).1 = .ok rules) :
    (∀ t, Alphabet.ofRules? rules = .error (.reservedTerminal t) ↔
        IsFirstIntruding cleaned.rules t) ∧
      (∀ e, Alphabet.ofRules? rules = .error e →
        (∃ t, e = .reservedTerminal t) ∧ (compile g start).1 = .error e) ∧
      ((∃ alphabet, Alphabet.ofRules? rules = .ok alphabet) ↔
        ∀ t, ¬ Intrudes cleaned.rules t) ∧
      ∀ c, (compile g start).1 = .ok c → IsSymbolTable cleaned.rules c := by
  have hcompile := compile_eq_of_number hclean hnumber
  obtain ⟨rfl, -⟩ := number_ok_iff.1 hnumber
  rw [rules_withRoot] at hcompile ⊢
  refine ⟨fun t => ?refused, fun e he => ⟨?named, by rw [hcompile, he]; rfl⟩, ?accepted,
    fun c hc => ?compiled⟩
  case refused =>
    rw [Alphabet.ofRules?_error_iff, ← Alphabet.misplaced?_eq_some_iff hstart]
    simp
  case named =>
    obtain ⟨t, -, rfl⟩ := Alphabet.ofRules?_error_iff.1 he
    exact ⟨t, rfl⟩
  case accepted =>
    constructor
    · rintro ⟨alphabet, halphabet⟩
      exact Alphabet.not_intrudes_of_misplaced?_eq_none hstart
        (Alphabet.ofRules?_ok_iff.1 halphabet).2
    · intro hnone
      refine ⟨_, Alphabet.ofRules?_ok_iff.2 ⟨rfl, ?_⟩⟩
      rw [Option.eq_none_iff_forall_ne_some]
      exact fun t ht => hnone t ((Alphabet.misplaced?_eq_some_iff hstart).1 ht).1
  case compiled =>
    have hsettled := ((cleans_clean g start).trims_settled hclean).2
    obtain ⟨cleaned', hclean', hcleaned⟩ := compile_ok_iff.1 hc
    obtain rfl := Except.ok.inj (hclean.symm.trans hclean')
    obtain ⟨-, hplaced, htabulate⟩ := compileCleaned_ok_iff.1 hcleaned
    rw [rules_withRoot] at hplaced htabulate
    obtain ⟨-, rfl⟩ := tabulate_ok_iff.1 htabulate
    exact isSymbolTable_ofRules hstart (fun r hr => hsettled.lhs_nonterminal hstart hr) hplaced

/-- A grammar with two terminals that sort between the reserved tokens. -/
def crowded : RuleSet := [⟨"$S", [["a", " 2"], [" 1"]]⟩]

theorem symbols_of_number_crowded :
    (compile crowded "$S").1 = .error (.reservedTerminal " 1") ∧
      IsFirstIntruding crowded.rules " 1" ∧ IsSymbolTable sums.rules sumsCompiled := by
  have hcrowded : (clean crowded "$S").1 = .ok crowded := eq_ok_of_toOption (by decide +kernel)
  have hsums : (clean sums "$Sum").1 = .ok sums := eq_ok_of_toOption (by decide +kernel)
  obtain ⟨hfirst, herror, -, -⟩ := symbols_of_number (by decide) hcrowded
    (number_ok_iff.2 ⟨rfl, by decide +kernel⟩)
  obtain ⟨-, -, -, htable⟩ := symbols_of_number (by decide) hsums
    (number_ok_iff.2 ⟨rfl, by decide +kernel⟩)
  have hmisplaced : (Alphabet.ofRules (withRoot crowded "$S").rules).misplaced? = some " 1" := by
    decide +kernel
  have hrefused := Alphabet.ofRules?_error_iff.2 ⟨" 1", hmisplaced, rfl⟩
  exact ⟨(herror _ hrefused).2, (hfirst " 1").1 hrefused, htable _ compile_sums⟩

end ParseBench.Grammar
