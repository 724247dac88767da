/-
  ParseBench.Proofs.Parser.Locality

  Expanding a rule sequence place by place (`expandAt`). The rule of a tree stands at the
  tree's place; the trees of its non-terminals follow, each behind the entries that the ones
  before it have used. So the places come from the lengths that are returned, and nothing is
  known about the entries.

  What an expansion comes to is described without depth or output by `Expands`: the symbols of
  a row are expanded one after the other from a place, up to the place behind them or up to a
  place where no rule stands. Every row has one (`exists_expands`), since each tree ends behind
  its place, and `expandAt` finds it at any depth above the number of entries left
  (`Expands.expandAt_eq`). Only entries from the first place up to the last one looked at take
  part in it (`Expands.of_agreeOn`), and all of them but the one it stops at hold rules
  (`Expands.ruleAt?_isSome`). It is also what the decoding of a listing does, which holds the
  pending symbols in place of the recursion (`Expands.expand_eq`).
-/

import ParseBench.Proofs.Parser.Expand

namespace ParseBench.Grammar.Parser

variable {p : Parser}

/-! ## The recursion -/

/-- Where an expansion stopped before its end, and its error. -/
structure Stop where
  place : Nat
  error : GrammarError
  deriving DecidableEq, Repr

/-- The number of entries that a tree used, or where its expansion stopped, and the output. -/
abbrev Expansion := Except Stop Nat × List Symbol

/-- Expands the symbols under the rule at `start`, with `child` for the trees under it. `used`
    is the number of entries used so far, the one of the rule included. -/
def expandRow (child : Nat → List Symbol → Option Expansion) (start : Nat) :
    List Symbol → Nat → List Symbol → Option Expansion
  | [], used, output => some (.ok used, output)
  | s :: rest, used, output =>
    if isNonterminal s then
      match child (start + used) output with
      | some (.ok n, output) => expandRow child start rest (used + n) output
      | stopped => stopped
    else expandRow child start rest used (output ++ [s])

/-- Expands the tree at a place of the sequence, at most `depth` trees inside of each other;
    `none` if they do not suffice. -/
def expandAt (p : Parser) (sequence : List Nat) : Nat → Nat → List Symbol → Option Expansion
  | 0, _, _ => none
  | depth + 1, start, output =>
    match sequence[start]? with
    | none => some (.error ⟨start, .invalidSequence⟩, output)
    | some rule =>
      match p.rules[rule]? with
      | none => some (.error ⟨start, .invalidSequence⟩, output)
      | some r => expandRow (p.expandAt sequence depth) start r.rhs 1 output

/-- The rule that stands at a place of the sequence. -/
def ruleAt? (p : Parser) (sequence : List Nat) (place : Nat) : Option Rule :=
  sequence[place]?.bind fun rule => p.rules[rule]?

theorem ruleAt?_eq_none_iff {sequence : List Nat} {place : Nat} :
    p.ruleAt? sequence place = none ↔
      sequence.length ≤ place ∨ ∃ rule, sequence[place]? = some rule ∧ p.rules[rule]? = none := by
  rw [ruleAt?, Option.bind_eq_none_iff, ← List.getElem?_eq_none_iff]
  cases sequence[place]? with
  | none => simp
  | some rule => simp

theorem lt_length_of_ruleAt? {sequence : List Nat} {place : Nat} {r : Rule}
    (h : p.ruleAt? sequence place = some r) : place < sequence.length := by
  obtain ⟨rule, hrule, -⟩ := Option.bind_eq_some_iff.1 h
  exact (List.getElem?_eq_some_iff.1 hrule).1

theorem expandAt_of_none {sequence : List Nat} {start : Nat}
    (h : p.ruleAt? sequence start = none) (depth : Nat) (output : List Symbol) :
    p.expandAt sequence (depth + 1) start output =
      some (.error ⟨start, .invalidSequence⟩, output) := by
  rw [ruleAt?] at h
  rw [expandAt]
  split
  · rfl
  · next rule hrule =>
      rw [hrule, Option.bind_some] at h
      rw [h]

theorem expandAt_of_some {sequence : List Nat} {start : Nat} {r : Rule}
    (h : p.ruleAt? sequence start = some r) (depth : Nat) (output : List Symbol) :
    p.expandAt sequence (depth + 1) start output =
      expandRow (p.expandAt sequence depth) start r.rhs 1 output := by
  obtain ⟨rule, hrule, hr⟩ := Option.bind_eq_some_iff.1 h
  rw [expandAt, hrule]
  simp only [hr]

section Rows

variable {child : Nat → List Symbol → Option Expansion} {start used : Nat} {s : Symbol}
  {output more : List Symbol}

theorem expandRow_terminal (hs : isNonterminal s = false) (rest : List Symbol) :
    expandRow child start (s :: rest) used output =
      expandRow child start rest used (output ++ [s]) := by
  rw [expandRow, if_neg (by simp [hs])]

theorem expandRow_of_ok {n : Nat} (hs : isNonterminal s = true)
    (hchild : child (start + used) output = some (.ok n, more)) (rest : List Symbol) :
    expandRow child start (s :: rest) used output =
      expandRow child start rest (used + n) more := by
  rw [expandRow, if_pos hs]
  simp only [hchild]

theorem expandRow_of_error {stop : Stop} (hs : isNonterminal s = true)
    (hchild : child (start + used) output = some (.error stop, more)) (rest : List Symbol) :
    expandRow child start (s :: rest) used output = some (.error stop, more) := by
  rw [expandRow, if_pos hs]
  simp only [hchild]

/-- A row of one non-terminal is the tree at its place. -/
theorem expandRow_singleton (hs : isNonterminal s = true) :
    expandRow child start [s] 0 output = child start output := by
  rw [expandRow, if_pos hs, Nat.add_zero]
  split
  · next n more hchild => rw [hchild, expandRow, Nat.zero_add]
  · rfl

end Rows

/-! ## What an expansion comes to -/

/-- Expanding the symbols one after the other from a place comes to the place behind their
    trees, or stops, and gives out the terminals. -/
inductive Expands (p : Parser) (sequence : List Nat) :
    Nat → List Symbol → Except Stop Nat → List Symbol → Prop
  | nil {place : Nat} : Expands p sequence place [] (.ok place) []
  | terminal {place : Nat} {s : Symbol} {rest : List Symbol} {result : Except Stop Nat}
      {terminals : List Symbol} (hs : isNonterminal s = false)
      (hrest : Expands p sequence place rest result terminals) :
      Expands p sequence place (s :: rest) result (s :: terminals)
  | missing {place : Nat} {s : Symbol} {rest : List Symbol} (hs : isNonterminal s = true)
      (hrule : p.ruleAt? sequence place = none) :
      Expands p sequence place (s :: rest) (.error ⟨place, .invalidSequence⟩) []
  | stopped {place : Nat} {s : Symbol} {rest : List Symbol} {r : Rule} {stop : Stop}
      {terminals : List Symbol} (hs : isNonterminal s = true)
      (hrule : p.ruleAt? sequence place = some r)
      (hinner : Expands p sequence (place + 1) r.rhs (.error stop) terminals) :
      Expands p sequence place (s :: rest) (.error stop) terminals
  | node {place last : Nat} {s : Symbol} {rest : List Symbol} {r : Rule}
      {result : Except Stop Nat} {inner terminals : List Symbol} (hs : isNonterminal s = true)
      (hrule : p.ruleAt? sequence place = some r)
      (hinner : Expands p sequence (place + 1) r.rhs (.ok last) inner)
      (hrest : Expands p sequence last rest result terminals) :
      Expands p sequence place (s :: rest) result (inner ++ terminals)

/-- The place behind the last entry that an expansion looked at. -/
def behind : Except Stop Nat → Nat
  | .ok last => last
  | .error stop => stop.place + 1

namespace Expands

variable {sequence other : List Nat} {place : Nat} {symbols terminals : List Symbol}
  {result : Except Stop Nat}

/-- An expansion goes forward. -/
theorem le_behind (h : p.Expands sequence place symbols result terminals) :
    place ≤ behind result := by
  induction h with
  | nil => exact Nat.le_refl _
  | terminal _ _ ih => exact ih
  | missing => exact Nat.le_succ _
  | stopped _ _ _ ih => exact Nat.le_of_succ_le ih
  | node _ _ _ _ ihinner ihrest => exact Nat.le_trans (Nat.le_of_succ_le ihinner) ihrest

/-- The tree of a non-terminal takes the entry at its place. -/
theorem lt_behind {s : Symbol} (hs : isNonterminal s = true)
    (h : p.Expands sequence place (s :: symbols) result terminals) : place < behind result := by
  cases h with
  | terminal hterminal _ =>
      rw [hs] at hterminal
      cases hterminal
  | missing => exact Nat.lt_succ_self _
  | stopped _ _ hinner => exact hinner.le_behind
  | node _ _ hinner hrest => exact Nat.lt_of_lt_of_le hinner.le_behind hrest.le_behind

end Expands

/-- Every row is expanded to its end or to a stop. A tree takes an entry before the trees
    inside of it and behind it are expanded, so the entries left count first. -/
theorem exists_expands (p : Parser) (sequence : List Nat) (place : Nat) (symbols : List Symbol) :
    ∃ result terminals, p.Expands sequence place symbols result terminals := by
  match symbols with
  | [] => exact ⟨_, _, .nil⟩
  | s :: rest =>
      cases hs : isNonterminal s with
      | false =>
          obtain ⟨result, terminals, hrest⟩ := exists_expands p sequence place rest
          exact ⟨_, _, .terminal hs hrest⟩
      | true =>
          cases hrule : p.ruleAt? sequence place with
          | none => exact ⟨_, _, .missing hs hrule⟩
          | some r =>
              have hlt := lt_length_of_ruleAt? hrule
              obtain ⟨result, inner, hinner⟩ := exists_expands p sequence (place + 1) r.rhs
              cases result with
              | error stop => exact ⟨_, _, .stopped hs hrule hinner⟩
              | ok last =>
                  have hlast : place + 1 ≤ last := hinner.le_behind
                  obtain ⟨result, terminals, hrest⟩ := exists_expands p sequence last rest
                  exact ⟨_, _, .node hs hrule hinner hrest⟩
termination_by (sequence.length - place, symbols.length)

/-! ## Which entries take part -/

/-- The entries from `first` on and before `last` are the same. -/
def AgreeOn (sequence other : List Nat) (first last : Nat) : Prop :=
  ∀ i, first ≤ i → i < last → sequence[i]? = other[i]?

namespace AgreeOn

variable {sequence other : List Nat} {first last first' last' : Nat}

theorem mono (h : AgreeOn sequence other first last) (hfirst : first ≤ first')
    (hlast : last' ≤ last) : AgreeOn sequence other first' last' :=
  fun i hi hlt => h i (Nat.le_trans hfirst hi) (Nat.lt_of_lt_of_le hlt hlast)

theorem ruleAt?_eq (h : AgreeOn sequence other first last) (hlt : first < last) :
    p.ruleAt? other first = p.ruleAt? sequence first := by
  rw [ruleAt?, ruleAt?, h first (Nat.le_refl _) hlt]

end AgreeOn

namespace Expands

variable {sequence other : List Nat} {place : Nat} {symbols terminals : List Symbol}
  {result : Except Stop Nat}

/-- Entries that are not looked at do not matter. -/
theorem of_agreeOn (h : p.Expands sequence place symbols result terminals)
    (hagree : AgreeOn sequence other place (behind result)) :
    p.Expands other place symbols result terminals := by
  induction h with
  | nil => exact .nil
  | terminal hs _ ih => exact .terminal hs (ih hagree)
  | missing hs hrule =>
      rw [← hagree.ruleAt?_eq (Nat.lt_succ_self _)] at hrule
      exact .missing hs hrule
  | stopped hs hrule hinner ih =>
      rw [← hagree.ruleAt?_eq hinner.le_behind] at hrule
      exact .stopped hs hrule (ih (hagree.mono (Nat.le_succ _) (Nat.le_refl _)))
  | node hs hrule hinner hrest ihinner ihrest =>
      have hlast := hrest.le_behind
      rw [← hagree.ruleAt?_eq (Nat.lt_of_lt_of_le hinner.le_behind hlast)] at hrule
      exact .node hs hrule (ihinner (hagree.mono (Nat.le_succ _) hlast))
        (ihrest (hagree.mono (Nat.le_of_succ_le hinner.le_behind) (Nat.le_refl _)))

/-- An expansion stops where no rule stands. -/
theorem ruleAt?_stop {stop : Stop}
    (h : p.Expands sequence place symbols (.error stop) terminals) :
    place ≤ stop.place ∧ stop.error = .invalidSequence ∧
      p.ruleAt? sequence stop.place = none := by
  generalize hresult : Except.error stop = result at h
  induction h with
  | nil => cases hresult
  | terminal _ _ ih => exact ih hresult
  | missing _ hrule =>
      cases hresult
      exact ⟨Nat.le_refl _, rfl, hrule⟩
  | stopped _ _ _ ih =>
      obtain ⟨hle, hstop⟩ := ih hresult
      exact ⟨Nat.le_of_succ_le hle, hstop⟩
  | node _ _ hinner _ _ ihrest =>
      obtain ⟨hle, hstop⟩ := ihrest hresult
      exact ⟨Nat.le_trans (Nat.le_of_succ_le hinner.le_behind) hle, hstop⟩

/-- A rule stands at every place that was looked at, but for the one where it stopped. -/
theorem ruleAt?_isSome (h : p.Expands sequence place symbols result terminals) {i : Nat}
    (hi : place ≤ i) (hlt : i < behind result)
    (hstop : ∀ stop, result = .error stop → i ≠ stop.place) : (p.ruleAt? sequence i).isSome := by
  induction h with
  | nil => exact absurd hlt (Nat.not_lt.2 hi)
  | terminal _ _ ih => exact ih hi hlt hstop
  | missing => exact absurd (Nat.le_antisymm (Nat.le_of_lt_succ hlt) hi) (hstop _ rfl)
  | stopped _ hrule _ ih =>
      rcases Nat.eq_or_lt_of_le hi with rfl | hi
      · rw [hrule, Option.isSome_some]
      · exact ih hi hlt hstop
  | @node place last _ _ _ _ _ _ _ hrule _ _ ihinner ihrest =>
      rcases Nat.eq_or_lt_of_le hi with rfl | hi
      · rw [hrule, Option.isSome_some]
      · by_cases hlast : i < last
        · exact ihinner hi hlast (fun _ herror => by cases herror)
        · exact ihrest (Nat.not_lt.1 hlast) hlt hstop

theorem le_length {s : Symbol} (hs : isNonterminal s = true) {last : Nat}
    (h : p.Expands sequence place (s :: symbols) (.ok last) terminals) :
    last ≤ sequence.length := by
  have hlt : place < last := h.lt_behind hs
  -- the last entry that was used holds a rule, so there is such an entry
  have hrule : (p.ruleAt? sequence (last - 1)).isSome :=
    h.ruleAt?_isSome (by omega) (show last - 1 < last by omega) fun _ herror => by cases herror
  obtain ⟨r, hr⟩ := Option.isSome_iff_exists.1 hrule
  have hlast := lt_length_of_ruleAt? hr
  omega

end Expands

/-! ## The recursion finds it -/

/-- The result with the number of entries used since `start` in place of the place behind
    them. -/
def usedSince (start : Nat) : Except Stop Nat → Except Stop Nat
  | .ok last => .ok (last - start)
  | .error stop => .error stop

namespace Expands

variable {sequence : List Nat} {place : Nat} {symbols terminals : List Symbol}
  {result : Except Stop Nat}

/-- The trees of a row are at most as deep as there are entries left. -/
theorem expandRow_eq (h : p.Expands sequence place symbols result terminals) {start used : Nat}
    (hplace : place = start + used) {depth : Nat} (hdepth : sequence.length - place < depth)
    (output : List Symbol) :
    expandRow (p.expandAt sequence depth) start symbols used output =
      some (usedSince start result, output ++ terminals) := by
  induction h generalizing start used depth output with
  | nil =>
      rw [hplace, expandRow, usedSince, Nat.add_sub_cancel_left, List.append_nil]
  | terminal hs _ ih =>
      rw [expandRow_terminal hs, ih hplace hdepth, List.append_assoc, List.singleton_append]
  | missing hs hrule =>
      subst hplace
      obtain ⟨depth, rfl⟩ := Nat.exists_eq_succ_of_ne_zero (Nat.ne_zero_of_lt hdepth)
      rw [expandRow_of_error hs (expandAt_of_none hrule depth output), List.append_nil, usedSince]
  | @stopped _ _ _ r stop terminals hs hrule _ ih =>
      subst hplace
      obtain ⟨depth, rfl⟩ := Nat.exists_eq_succ_of_ne_zero (Nat.ne_zero_of_lt hdepth)
      have hlt := lt_length_of_ruleAt? hrule
      have hchild : p.expandAt sequence (depth + 1) (start + used) output =
          some (.error stop, output ++ terminals) := by
        rw [expandAt_of_some hrule]
        exact ih rfl (by omega) output
      rw [expandRow_of_error hs hchild, usedSince]
  | @node _ last _ _ r _ inner _ hs hrule hinner _ ihinner ihrest =>
      subst hplace
      obtain ⟨depth, rfl⟩ := Nat.exists_eq_succ_of_ne_zero (Nat.ne_zero_of_lt hdepth)
      have hlt := lt_length_of_ruleAt? hrule
      have hlast : start + used + 1 ≤ last := hinner.le_behind
      have hchild : p.expandAt sequence (depth + 1) (start + used) output =
          some (.ok (last - (start + used)), output ++ inner) := by
        rw [expandAt_of_some hrule]
        exact ihinner rfl (by omega) output
      rw [expandRow_of_ok hs hchild, ihrest (by omega) (by omega), List.append_assoc]

theorem expandAt_eq {s : Symbol} (hs : isNonterminal s = true)
    (h : p.Expands sequence place [s] result terminals) {depth : Nat}
    (hdepth : sequence.length - place < depth) (output : List Symbol) :
    p.expandAt sequence depth place output =
      some (usedSince place result, output ++ terminals) := by
  have hrow := h.expandRow_eq (Nat.add_zero place).symm hdepth output
  rwa [expandRow_singleton hs] at hrow

end Expands

/-! ## The decoding of a listing -/

theorem expand_drop_of_none {sequence : List Nat} {place : Nat} {s : Symbol}
    (hs : isNonterminal s = true) (h : p.ruleAt? sequence place = none) (after : List Symbol) :
    p.expand (sequence.drop place) (s :: after) = none := by
  rcases ruleAt?_eq_none_iff.1 h with hlen | ⟨rule, hget, hnone⟩
  · rw [List.drop_eq_nil_of_le hlen, expand_nil_nonterminal hs]
  · obtain ⟨hlt, hrule⟩ := List.getElem?_eq_some_iff.1 hget
    rw [List.drop_eq_getElem_cons hlt, expand_nonterminal hs, hrule, hnone, Option.bind_none]

theorem expand_drop_of_some {sequence : List Nat} {place : Nat} {s : Symbol} {r : Rule}
    (hs : isNonterminal s = true) (h : p.ruleAt? sequence place = some r)
    (after : List Symbol) :
    p.expand (sequence.drop place) (s :: after) =
      p.expand (sequence.drop (place + 1)) (r.rhs ++ after) := by
  obtain ⟨rule, hget, hr⟩ := Option.bind_eq_some_iff.1 h
  obtain ⟨hlt, hrule⟩ := List.getElem?_eq_some_iff.1 hget
  rw [List.drop_eq_getElem_cons hlt, expand_nonterminal hs, hrule, hr, Option.bind_some]

/-- The decoding does the same from the left: an expansion that ends leaves the entries behind
    it to the symbols that come after. -/
theorem Expands.expand_eq {sequence : List Nat} {place : Nat} {symbols terminals : List Symbol}
    {result : Except Stop Nat} (h : p.Expands sequence place symbols result terminals)
    (after : List Symbol) :
    p.expand (sequence.drop place) (symbols ++ after) =
      match result with
      | .ok last => (p.expand (sequence.drop last) after).map fun e => (terminals ++ e.1, e.2)
      | .error _ => none := by
  induction h generalizing after with
  | nil => simp
  | @terminal _ _ _ result _ hs _ ih =>
      rw [List.cons_append, expand_terminal hs, ih]
      cases result with
      | ok last => simp [Function.comp_def]
      | error stop => rfl
  | missing hs hrule => rw [List.cons_append, expand_drop_of_none hs hrule]
  | stopped hs hrule _ ih => rw [List.cons_append, expand_drop_of_some hs hrule, ih]
  | @node _ last _ _ _ result _ _ hs hrule _ _ ihinner ihrest =>
      rw [List.cons_append, expand_drop_of_some hs hrule, ihinner]
      simp only [ihrest]
      cases result with
      | ok last => simp [Function.comp_def]
      | error stop => rfl

/-- From every place of every sequence the expansion ends, no deeper than there are entries left.
    A tree uses an entry at least and no more than there are, the output is only appended to, and
    the same comes of every sequence with the same entries from the place up to the tree's end.
    If there is no tree, the expansion stops at the first entry that is no rule's, whatever comes
    after it, or behind the last entry. The decoding of a listing is this expansion. -/
theorem expandAt_local (p : Parser) (sequence : List Nat) (start : Nat) (output : List Symbol) :
    ∃ result terminals,
      (∀ depth, sequence.length - start < depth →
        p.expandAt sequence depth start output = some (result, output ++ terminals)) ∧
      (∀ n, result = .ok n → 1 ≤ n ∧ start + n ≤ sequence.length ∧
        (∀ other more depth, AgreeOn sequence other start (start + n) →
          other.length - start < depth →
          p.expandAt other depth start more = some (.ok n, more ++ terminals)) ∧
        p.expand (sequence.drop start) [rootSymbol] =
          some (terminals, sequence.drop (start + n)) ∧
        p.terminalsDown (sequence.drop start) = .ok terminals) ∧
      ∀ stop, result = .error stop → stop.error = .invalidSequence ∧ start ≤ stop.place ∧
        (∀ i, start ≤ i → i < stop.place → (p.ruleAt? sequence i).isSome) ∧
        (sequence.length ≤ stop.place ∨
          (∃ rule, sequence[stop.place]? = some rule ∧ p.rules[rule]? = none) ∧
            ∀ other more depth, AgreeOn sequence other start (stop.place + 1) →
              other.length - start < depth →
              ∃ added, p.expandAt other depth start more = some (.error stop, more ++ added)) ∧
        p.terminalsDown (sequence.drop start) = .error stop.error := by
  have hroot := isNonterminal_rootSymbol
  obtain ⟨result, terminals, h⟩ := p.exists_expands sequence start [rootSymbol]
  have hexpand := h.expand_eq []
  rw [List.append_nil] at hexpand
  refine ⟨usedSince start result, terminals, fun depth hdepth => h.expandAt_eq hroot hdepth output,
    ?ends, ?stops⟩
  case ends =>
    intro n hn
    cases result with
    | error stop => cases hn
    | ok last =>
        cases hn
        have hlt : start < last := h.lt_behind hroot
        have hlast : start + (last - start) = last := by omega
        rw [hlast]
        refine ⟨by omega, h.le_length hroot, fun other more depth hagree hdepth => ?_, ?_, ?_⟩
        · exact (h.of_agreeOn hagree).expandAt_eq hroot hdepth more
        · rw [hexpand]
          simp
        · rw [terminalsDown, hexpand]
          simp
  case stops =>
    intro stop hstop
    cases result with
    | ok last => cases hstop
    | error stop =>
        cases hstop
        obtain ⟨hle, herror, hnone⟩ := h.ruleAt?_stop
        refine ⟨herror, hle, fun i hi hlt => ?_, ?_, ?_⟩
        · refine h.ruleAt?_isSome hi (Nat.lt_succ_of_lt hlt) fun stop hstop => ?_
          cases hstop
          exact Nat.ne_of_lt hlt
        · refine (ruleAt?_eq_none_iff.1 hnone).imp_right fun hentry => ⟨hentry, ?_⟩
          intro other more depth hagree hdepth
          exact ⟨terminals, (h.of_agreeOn hagree).expandAt_eq hroot hdepth more⟩
        · rw [terminalsDown, hexpand, herror]

/-- The same tree in two sequences, behind other entries; and a sequence that stops short. -/
theorem expandAt_local_sums :
    sumsCompiled.parser.expandAt [9, 0, 1, 2, 2, 9] 6 1 ["x"] =
        some (.ok 4, ["x", "one", "plus", "one"]) ∧
      sumsCompiled.parser.expandAt [7, 0, 1, 2, 2] 5 1 [] = some (.ok 4, ["one", "plus", "one"]) ∧
      sumsCompiled.parser.expandAt [0, 1, 2, 9, 0, 1] 7 0 [] =
        some (.error ⟨3, .invalidSequence⟩, ["one", "plus"]) ∧
      sumsCompiled.parser.terminalsDown [0, 1, 2, 9, 0, 1] = .error .invalidSequence := by
  have htree : sumsCompiled.parser.expandAt [9, 0, 1, 2, 2, 9] 6 1 ["x"] =
      some (.ok 4, ["x", "one", "plus", "one"]) := by decide +kernel
  have hstop : sumsCompiled.parser.expandAt [0, 1, 2, 9, 0, 1] 7 0 [] =
      some (.error ⟨3, .invalidSequence⟩, ["one", "plus"]) := by decide +kernel
  refine ⟨htree, ?_, hstop, ?_⟩
  · obtain ⟨result, terminals, hrun, hends, -⟩ :=
      expandAt_local sumsCompiled.parser [9, 0, 1, 2, 2, 9] 1 ["x"]
    have hresult := htree.symm.trans (hrun 6 (by decide))
    rw [Option.some.injEq, Prod.mk.injEq] at hresult
    obtain ⟨rfl, hterminals⟩ := hresult
    obtain rfl : ["one", "plus", "one"] = terminals := (List.cons.inj hterminals).2
    obtain ⟨-, -, hsame, -⟩ := hends 4 rfl
    refine hsame [7, 0, 1, 2, 2] [] 5 (fun i hi hlt => ?_) (by decide)
    have hplace : i = 1 ∨ i = 2 ∨ i = 3 ∨ i = 4 := by omega
    rcases hplace with rfl | rfl | rfl | rfl <;> rfl
  · obtain ⟨result, terminals, hrun, -, hstops⟩ :=
      expandAt_local sumsCompiled.parser [0, 1, 2, 9, 0, 1] 0 []
    have hresult := hstop.symm.trans (hrun 7 (by decide))
    rw [Option.some.injEq, Prod.mk.injEq] at hresult
    obtain ⟨rfl, -⟩ := hresult
    exact (hstops _ rfl).2.2.2.2

end ParseBench.Grammar.Parser
