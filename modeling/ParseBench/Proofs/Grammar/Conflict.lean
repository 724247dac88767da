/-
  ParseBench.Proofs.Grammar.Conflict

  The conflict check is exact. `Acts` defines what a state of the canonical automaton
  does on a terminal, by derivations and without ids: it accepts the end of the input
  after the start symbol, shifts along a move, or reduces a rule whose dot is at the
  end on a terminal that can come after its left-hand side.

  What a state asks for (`Asks`) are these actions under the numbers of states and
  rules (`asks_iff_acts`). So there is a conflict exactly when a canonical state has
  two actions on one terminal, and otherwise each entry of the tables is the one
  action or the one move (`conflict_check_exact`).
-/

import ParseBench.Proofs.Grammar.Canonical
import ParseBench.Proofs.Grammar.SententialForm

namespace ParseBench.Grammar

/-! ## Actions of canonical states -/

/-- What a state of the canonical automaton does on a terminal. -/
inductive StateAction where
  | accept
  /-- Read the terminal and go to a state. -/
  | shift (state : Set Dotted)
  /-- Replace the right-hand side of the rule by its left-hand side. -/
  | reduce (rule : Rule)

/-- The terminal comes directly after the symbol in a row that the root symbol derives. -/
def InFollow (rules : List Rule) (s t : Symbol) : Prop :=
  isNonterminal t = false ∧
    ∃ before after, Derives rules [rootSymbol] (before ++ s :: t :: after)

/-- The state has the action on the terminal. -/
inductive Acts (rules : List Rule) (state : Set Dotted) (t : Symbol) : StateAction → Prop
  | accept {i : Dotted} (ht : t = endToken) (hi : i ∈ state) (hroot : i.rule.lhs = rootSymbol)
      (hnext : i.next? = some endToken) : Acts rules state t .accept
  | shift (ht : isNonterminal t = false) (hs : Passes state t) :
      Acts rules state t (.shift (gotoState rules state t))
  | reduce {r : Rule} (hi : ⟨r, r.rhs.length⟩ ∈ state) (ht : InFollow rules r.lhs t) :
      Acts rules state t (.reduce r)

/-- A state of the canonical automaton has two actions on one terminal. -/
def Undecided (rules : List Rule) : Prop :=
  ∃ state t a b, Canonical rules state ∧ Acts rules state t a ∧ Acts rules state t b ∧ a ≠ b

/-- What an entry of an action table stands for, given the sets of the states and the rules. -/
def Action.meaning? (states : List (Set Dotted)) (rules : List Rule) :
    Action → Option StateAction
  | .invalid => none
  | .accept => some .accept
  | .shift q => states[q]?.map .shift
  | .reduce id => rules[id]?.map .reduce

variable {base rules : List Rule} {start : Symbol}

theorem Action.meaning?_eq_accept {states : List (Set Dotted)} {a : Action} :
    a.meaning? states rules = some .accept ↔ a = .accept := by
  cases a <;> simp [Action.meaning?]

theorem Action.meaning?_eq_shift {states : List (Set Dotted)} {a : Action} {state : Set Dotted} :
    a.meaning? states rules = some (.shift state) ↔
      ∃ q, a = .shift q ∧ states[q]? = some state := by
  cases a <;> simp [Action.meaning?]

theorem Action.meaning?_eq_reduce {states : List (Set Dotted)} {a : Action} {r : Rule} :
    a.meaning? states rules = some (.reduce r) ↔ ∃ id, a = .reduce id ∧ rules[id]? = some r := by
  cases a <;> simp [Action.meaning?]

/-- Entries that stand for the same action are the same. -/
theorem Action.meaning?_injective {states : List (Set Dotted)} (hstates : states.Nodup)
    (hrules : rules.Nodup) {a a' : Action} {b : StateAction}
    (h : a.meaning? states rules = some b) (h' : a'.meaning? states rules = some b) : a = a' := by
  cases b with
  | accept => rw [Action.meaning?_eq_accept.1 h, Action.meaning?_eq_accept.1 h']
  | shift state =>
      obtain ⟨q, rfl, hq⟩ := Action.meaning?_eq_shift.1 h
      obtain ⟨q', rfl, hq'⟩ := Action.meaning?_eq_shift.1 h'
      rw [eq_of_getElem?_of_nodup hstates hq hq']
  | reduce r =>
      obtain ⟨id, rfl, hid⟩ := Action.meaning?_eq_reduce.1 h
      obtain ⟨id', rfl, hid'⟩ := Action.meaning?_eq_reduce.1 h'
      rw [eq_of_getElem?_of_nodup hrules hid hid']

/-- What comes after a left-hand side in a row are the terminals that can follow it. -/
theorem Augmentable.inFollow_iff (hbase : Augmentable base start) {s t : Symbol}
    (hs : isNonterminal s = true) : InFollow (augment base start) s t ↔
      Follows (augment base start) s t := by
  constructor
  · exact fun ⟨ht, hrow⟩ => (hbase.follows_iff hs ht).2 hrow
  · exact fun h => ⟨h.isTerminal, (hbase.follows_iff hs h.isTerminal).1 h⟩

/-- What a state asks for on a terminal are the actions of its set. -/
theorem Augmentable.asks_iff_acts (hbase : Augmentable base start)
    (hrules : (augment base start).Nodup) {q : Nat} {state : Set Dotted}
    (hstate : (stateItems (augment base start))[q]? = some state) {t : Symbol}
    (ht : isNonterminal t = false) (a : Action) :
    Asks (augment base start) q t a ↔
      ∃ b, a.meaning? (stateItems (augment base start)) (augment base start) = some b ∧
        Acts (augment base start) state t b := by
  constructor
  · intro h
    cases h with
    | @accept i ht hi hnext =>
        obtain ⟨r, hr, hend⟩ := nextSymbol?_eq_some.1 hnext
        have hmem := (holds_iff_mem hrules hstate hr).1 hi
        -- only the root rule mentions the end of the input
        have hroot : r.lhs = rootSymbol := by
          rcases mem_augment.1 (List.mem_of_getElem? hr) with hbaseRule | rfl
          · exact absurd (List.mem_of_getElem? hend) (hbase.end_not_mem r hbaseRule)
          · rfl
        exact ⟨.accept, rfl, .accept ht hmem hroot hend⟩
    | shift hleads =>
        obtain ⟨hs, hnext⟩ := (leads_iff_goto hrules hstate).1 hleads
        exact ⟨_, Action.meaning?_eq_shift.2 ⟨_, rfl, hnext⟩, .shift ht hs⟩
    | @reduce id r hr hi hfollows =>
        have hlhs := hbase.augment_lhs r (List.mem_of_getElem? hr)
        exact ⟨_, Action.meaning?_eq_reduce.2 ⟨id, rfl, hr⟩,
          .reduce ((holds_iff_mem hrules hstate hr).1 hi) ((hbase.inFollow_iff hlhs).2 hfollows)⟩
  · rintro ⟨b, hmeaning, hacts⟩
    cases hacts with
    | @accept i ht hi _ hnext =>
        obtain ⟨set, hset, rfl⟩ := getElem?_stateItems.1 hstate
        obtain ⟨id, hr, hmem⟩ := hi
        rw [Action.meaning?_eq_accept.1 hmeaning]
        exact .accept ht ⟨set, hset, hmem⟩ (nextSymbol?_eq_some.2 ⟨i.rule, hr, hnext⟩)
    | shift ht hs =>
        obtain ⟨q', rfl, hnext⟩ := Action.meaning?_eq_shift.1 hmeaning
        exact .shift ((leads_iff_goto hrules hstate).2 ⟨hs, hnext⟩)
    | @reduce r hi hfollow =>
        obtain ⟨id, rfl, hr⟩ := Action.meaning?_eq_reduce.1 hmeaning
        have hlhs := hbase.augment_lhs r (List.mem_of_getElem? hr)
        exact .reduce hr ((holds_iff_mem hrules hstate hr).2 hi)
          ((hbase.inFollow_iff hlhs).1 hfollow)

theorem Acts.isTerminal {state : Set Dotted} {t : Symbol} {b : StateAction}
    (h : Acts rules state t b) : isNonterminal t = false := by
  cases h with
  | accept ht => rw [ht, isNonterminal_endToken]
  | shift ht => exact ht
  | reduce _ ht => exact ht.1

/-- Every action of a state has an entry that stands for it. -/
theorem Acts.exists_meaning {q : Nat} {state : Set Dotted}
    (hstate : (stateItems rules)[q]? = some state) {t : Symbol} {b : StateAction}
    (h : Acts rules state t b) : ∃ a, Action.meaning? (stateItems rules) rules a = some b := by
  cases h with
  | accept => exact ⟨.accept, rfl⟩
  | shift _ hs =>
      have hcanonical := mem_stateItems.1 (List.mem_of_getElem? hstate)
      obtain ⟨q', hq'⟩ := List.getElem?_of_mem (mem_stateItems.2 (.goto hcanonical hs))
      exact ⟨.shift q', Action.meaning?_eq_shift.2 ⟨q', rfl, hq'⟩⟩
  | reduce hi _ =>
      obtain ⟨set, -, rfl⟩ := getElem?_stateItems.1 hstate
      obtain ⟨id, hr, -⟩ := hi
      exact ⟨.reduce id, Action.meaning?_eq_reduce.2 ⟨id, rfl, hr⟩⟩

/-- A terminal that a state acts on is in the alphabet. -/
theorem Augmentable.mem_terminals_of_acts (hbase : Augmentable base start) {state : Set Dotted}
    (hstate : Canonical (augment base start) state) {t : Symbol} {b : StateAction}
    (h : Acts (augment base start) state t b) :
    t ∈ (Alphabet.ofRules (augment base start)).terminals := by
  rw [Alphabet.mem_terminals_ofRules]
  obtain ⟨set, -, rfl⟩ := List.mem_map.1 (mem_stateItems.2 hstate)
  have hterminal := h.isTerminal
  cases h with
  | accept ht =>
      rw [ht]
      exact .inl (by decide)
  | shift _ hs =>
      obtain ⟨-, i, ⟨id, hr, -⟩, hnext⟩ := hs
      exact .inr ⟨i.rule, List.mem_of_getElem? hr, List.mem_of_getElem? hnext, hterminal⟩
  | @reduce r hi ht =>
      obtain ⟨id, hr, -⟩ := hi
      have hfollows := (hbase.inFollow_iff (hbase.augment_lhs r (List.mem_of_getElem? hr))).1 ht
      obtain ⟨r', hr', hmem⟩ := hfollows.exists_mem_rhs
      exact .inr ⟨r', hr', hmem, hterminal⟩

/-- The tables have a conflict exactly when a canonical state is undecided. -/
theorem Augmentable.conflict?_eq_none_iff (hbase : Augmentable base start)
    (hrules : (augment base start).Nodup) :
    (TableInput.ofRules (augment base start) (Alphabet.ofRules (augment base start))).conflict? =
      none ↔ ¬ Undecided (augment base start) := by
  rw [TableInput.conflict?_eq_none_iff fun _ hr => Alphabet.lhs_mem_nonterminals_ofRules hr]
  constructor
  · rintro hunique ⟨state, t, x, y, hcanonical, hx, hy, hne⟩
    obtain ⟨q, hq⟩ := List.getElem?_of_mem (mem_stateItems.2 hcanonical)
    obtain ⟨a, ha⟩ := hx.exists_meaning hq
    obtain ⟨b, hb⟩ := hy.exists_meaning hq
    have hasks := hbase.asks_iff_acts hrules hq hx.isTerminal
    have hab : a = b := hunique q t (hbase.mem_terminals_of_acts hcanonical hx) a b
      ((hasks a).2 ⟨x, ha, hx⟩) ((hasks b).2 ⟨y, hb, hy⟩)
    rw [hab, hb] at ha
    exact hne (Option.some.inj ha).symm
  · intro hdecided q t ht a b ha hb
    obtain ⟨set, hset⟩ := ha.exists_set
    have hstate := getElem?_stateItems.2 ⟨set, hset, rfl⟩
    have hasks := hbase.asks_iff_acts hrules hstate (Alphabet.isNonterminal_of_mem_terminals ht)
    obtain ⟨x, hx, hactsX⟩ := (hasks a).1 ha
    obtain ⟨y, hy, hactsY⟩ := (hasks b).1 hb
    have hxy : x = y := by
      by_contra hne
      exact hdecided ⟨_, t, x, y, mem_stateItems.1 (List.mem_of_getElem? hstate), hactsX, hactsY,
        hne⟩
    rw [← hxy] at hy
    exact Action.meaning?_injective (nodup_stateItems hrules) hrules hx hy

/-! ## The tables -/

/-- The tables of a compiled grammar are those of the canonical automaton, whose states have
    the numbers of their places in the list `states`. -/
structure SlrTables (c : Compiled) (rules : List Rule) (alphabet : Alphabet)
    (states : List (Set Dotted)) : Prop where
  sets : c.automaton.sets.map (dotted rules) = states
  mem_states : ∀ state, state ∈ states ↔ Canonical rules state
  nodup_states : states.Nodup
  start : states[0]? = some (startState rules)
  actions_length : c.actions.length = states.length ∧
    ∀ row ∈ c.actions, row.length = alphabet.terminals.length
  gotos_length : c.gotos.length = states.length ∧
    ∀ row ∈ c.gotos, row.length = alphabet.nonterminals.length
  /-- An entry stands for the one action there is, and is invalid where there is none. -/
  action : ∀ (q : Nat) (state : Set Dotted) (id : Nat) (t : Symbol),
    states[q]? = some state → alphabet.terminals[id]? = some t →
    ∃ entry : Action, (c.actions[q]?.bind fun row => row[id]?) = some entry ∧
      (entry = .invalid ↔ ∀ b, ¬ Acts rules state t b) ∧
      ∀ b, Acts rules state t b ↔ entry.meaning? states rules = some b
  /-- An entry is the state after a non-terminal, if the state passes it. -/
  goto : ∀ (q : Nat) (state : Set Dotted) (column : Nat) (s : Symbol),
    states[q]? = some state → alphabet.nonterminals[column]? = some s →
    ∃ entry : Option Nat, (c.gotos[q]?.bind fun row => row[column]?) = some entry ∧
      ∀ q', entry = some q' ↔ Passes state s ∧ states[q']? = some (gotoState rules state s)

/-- An entry of a table without conflicts stands for the one action of the state. -/
theorem Augmentable.entry_iff (hbase : Augmentable base start)
    (hrules : (augment base start).Nodup)
    (hconflict : (TableInput.ofRules (augment base start)
      (Alphabet.ofRules (augment base start))).conflict? = none) {q : Nat} {set : ItemSet}
    (hset : (itemSets (augment base start))[q]? = some set) {t : Symbol}
    (ht : t ∈ (Alphabet.ofRules (augment base start)).terminals) {entry : Action}
    (hentry : ((TableInput.ofRules (augment base start)
      (Alphabet.ofRules (augment base start))).actionsAt q set t).headD .invalid = entry) :
    (entry = .invalid ↔ ∀ b, ¬ Acts (augment base start) (dotted (augment base start) set) t b) ∧
      ∀ b, Acts (augment base start) (dotted (augment base start) set) t b ↔
        entry.meaning? (stateItems (augment base start)) (augment base start) = some b := by
  have hstate := getElem?_stateItems.2 ⟨set, hset, rfl⟩
  have hholds : ∀ a, a ≠ .invalid → (entry = a ↔ Asks (augment base start) q t a) := by
    intro a ha
    rw [← hentry]
    exact TableInput.headD_actionsAt (fun _ hr => Alphabet.lhs_mem_nonterminals_ofRules hr)
      hconflict ht hset ha
  have hasks := hbase.asks_iff_acts hrules hstate (Alphabet.isNonterminal_of_mem_terminals ht)
  have hmeaning : ∀ b, Acts (augment base start) (dotted (augment base start) set) t b ↔
      entry.meaning? (stateItems (augment base start)) (augment base start) = some b := by
    intro b
    constructor
    · intro hacts
      obtain ⟨a, ha⟩ := hacts.exists_meaning hstate
      have hask := (hasks a).2 ⟨b, ha, hacts⟩
      rw [(hholds a hask.ne_invalid).2 hask]
      exact ha
    · intro hb
      -- an entry that stands for something is asked for, as the action it stands for
      have hne : entry ≠ .invalid := by
        rintro rfl
        cases hb
      obtain ⟨b', hb', hacts⟩ := (hasks entry).1 ((hholds entry hne).1 rfl)
      rw [hb] at hb'
      rwa [Option.some.inj hb']
  refine ⟨⟨fun hinvalid b hacts => ?_, fun hnone => ?_⟩, hmeaning⟩
  · have hb := (hmeaning b).1 hacts
    rw [hinvalid] at hb
    cases hb
  · by_contra hne
    obtain ⟨b, -, hacts⟩ := (hasks entry).1 ((hholds entry hne).1 rfl)
    exact hnone b hacts

/-- Without conflicts the tables are those of the canonical automaton. -/
theorem Augmentable.slrTables (hbase : Augmentable base start) (hrules : (augment base start).Nodup)
    (hconflict : (TableInput.ofRules (augment base start)
      (Alphabet.ofRules (augment base start))).conflict? = none) :
    SlrTables (Compiled.ofRules start (augment base start)
      (Alphabet.ofRules (augment base start))) (augment base start)
      (Alphabet.ofRules (augment base start)) (stateItems (augment base start)) where
  sets := rfl
  mem_states _ := mem_stateItems
  nodup_states := nodup_stateItems hrules
  start := getElem?_zero_stateItems
  actions_length := by
    refine ⟨by simp [Compiled.ofRules, TableInput.actionTable, stateItems, TableInput.ofRules,
      Automaton.ofRules], fun row hrow => ?_⟩
    obtain ⟨q, hq⟩ := List.getElem?_of_mem hrow
    rw [Compiled.ofRules, TableInput.getElem?_actionTable] at hq
    obtain ⟨set, -, rfl⟩ := Option.map_eq_some_iff.1 hq
    exact List.length_map _
  gotos_length := by
    refine ⟨by simp [Compiled.ofRules, TableInput.gotoTable, stateItems, TableInput.ofRules,
      Automaton.ofRules], fun row hrow => ?_⟩
    obtain ⟨q, hq⟩ := List.getElem?_of_mem hrow
    rw [Compiled.ofRules, TableInput.getElem?_gotoTable] at hq
    obtain ⟨set, -, rfl⟩ := Option.map_eq_some_iff.1 hq
    exact List.length_map _
  action q state id t hstate ht := by
    obtain ⟨set, hset, rfl⟩ := getElem?_stateItems.1 hstate
    refine ⟨_, ?_, hbase.entry_iff hrules hconflict hset (List.mem_of_getElem? ht) rfl⟩
    rw [Compiled.ofRules, TableInput.getElem?_actionTable, hset, Option.map_some,
      Option.bind_some, List.getElem?_map, ht, Option.map_some]
  goto q state column s hstate hs := by
    obtain ⟨set, hset, -⟩ := getElem?_stateItems.1 hstate
    refine ⟨(Automaton.ofRules (augment base start)).next? q s, ?_, fun q' =>
      leads_iff_goto hrules hstate⟩
    rw [Compiled.ofRules, TableInput.getElem?_gotoTable, hset, Option.map_some, Option.bind_some,
      List.getElem?_map, hs, Option.map_some]

/-- A well-formed rule set that can be cleaned, numbered and given an alphabet is refused
    exactly when a state of its canonical automaton has two actions on one terminal. Otherwise
    its tables are those of the canonical automaton. -/
theorem conflict_check_exact {g cleaned : RuleSet} {alphabet : Alphabet}
    (hg : g.WellFormed start) (hclean : (clean g start).1 = .ok cleaned)
    (hnumber : (number (withRoot cleaned start)).1 = .ok rules)
    (halphabet : Alphabet.ofRules? rules = .ok alphabet) :
    ((∃ q t id existing, (compile g start).1 = .error (.conflict q t id existing)) ↔
        Undecided rules) ∧
      (¬ Undecided rules → ∃ c, (compile g start).1 = .ok c ∧
        ∃ states, SlrTables c rules alphabet states) := by
  have hcompile := compile_eq_tabulate hclean hnumber halphabet
  obtain ⟨rfl, hne, hrules⟩ := number_ok_iff.1 hnumber
  obtain ⟨rfl, hplaced⟩ := Alphabet.ofRules?_ok_iff.1 halphabet
  rw [rules_withRoot] at hcompile hne hrules ⊢
  obtain ⟨rfl, -⟩ := hg.eq_survivors hclean
  have hbase := hg.augmentable hclean hne
  have hnone := hbase.conflict?_eq_none_iff hrules
  rw [hcompile]
  constructor
  · rw [← not_iff_not, ← hnone]
    constructor
    · intro hfine
      cases hconflict : (TableInput.ofRules (augment (survivors g start).rules start)
        (Alphabet.ofRules (augment (survivors g start).rules start))).conflict? with
      | none => rfl
      | some c => exact absurd ⟨_, _, _, _, tabulate_error_iff.2 ⟨c, hconflict, rfl⟩⟩ hfine
    · rintro hconflict ⟨q, t, id, existing, herror⟩
      obtain ⟨c, hc, -⟩ := tabulate_error_iff.1 herror
      rw [hconflict] at hc
      cases hc
  · intro hdecided
    have hconflict := hnone.2 hdecided
    exact ⟨_, tabulate_ok_iff.2 ⟨hconflict, rfl⟩, _, hbase.slrTables hrules hconflict⟩

/-- A grammar whose parser could not tell after `x` which rule to apply backwards. -/
def twofold : RuleSet :=
  [⟨"$S", [["$A", "y"], ["$B", "y"]]⟩, ⟨"$A", [["x"]]⟩, ⟨"$B", [["x"]]⟩]

theorem conflict_check_exact_twofold :
    (compile twofold "$S").1 = .error (.conflict 3 "y" 3 (.reduce 2)) ∧
      Undecided (withRoot twofold "$S").rules := by
  have hclean : (clean twofold "$S").1 = .ok twofold := by decide +kernel
  have hnumber : (number (withRoot twofold "$S")).1 = .ok (withRoot twofold "$S").rules := by
    decide +kernel
  have halphabet : Alphabet.ofRules? (withRoot twofold "$S").rules =
      .ok (Alphabet.ofRules (withRoot twofold "$S").rules) := by decide +kernel
  have hcompile : (compile twofold "$S").1 = .error (.conflict 3 "y" 3 (.reduce 2)) := by
    rw [compile_eq_tabulate hclean hnumber halphabet]
    exact tabulate_error_iff.2 ⟨⟨3, "y", 3, .reduce 2⟩, by decide +kernel, rfl⟩
  obtain ⟨hconflict, -⟩ := conflict_check_exact (by decide +kernel) hclean hnumber halphabet
  exact ⟨hcompile, hconflict.1 ⟨_, _, _, _, hcompile⟩⟩

end ParseBench.Grammar
