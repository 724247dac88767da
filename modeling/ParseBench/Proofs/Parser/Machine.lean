/-
  ParseBench.Proofs.Parser.Machine

  Runs of the parser. The states on the stack are a path of the automaton and the
  symbols on it are what has been recognised (`Path`). `Turned` says once what a
  turn can do to such a configuration: refuse the next token, accept with nothing
  but the start symbol on the stack, shift, or replace the right-hand side of a
  rule on top of the stack by its left-hand side. `turn_spec` shows that there is
  nothing else; in particular the stack is never too short for a rule and the
  state after a left-hand side is never undefined.
-/

import ParseBench.Proofs.Grammar.Compile

namespace ParseBench.Grammar.Parser

open Relation (ReflTransGen)

/-! ## Runs -/

section Runs

variable {p : Parser} {c d e : Config}

/-- A turn leads from the first configuration to the second. -/
def Moves (p : Parser) (c d : Config) : Prop := p.turn c = .more d

/-- A turn that leads on shifts the next token, or puts a state in place of those of a
    right-hand side. -/
theorem moves_iff : p.Moves c d ↔
    (∃ q, p.action (c.stack.headD 0) (nextToken c.input).terminal = .shift q ∧
      d = ⟨q :: c.stack, .shift (nextToken c.input) :: c.taken, c.input.tail⟩) ∨
    ∃ rule r q, p.action (c.stack.headD 0) (nextToken c.input).terminal = .reduce rule ∧
      p.rules[rule]? = some r ∧
      ((c.stack.drop r.rhs.length).head?.bind fun top => p.goto? top r.lhs) = some q ∧
      d = ⟨q :: c.stack.drop r.rhs.length, .reduce rule :: c.taken, c.input⟩ := by
  unfold Moves turn
  simp only
  cases haction : p.action (c.stack.headD 0) (nextToken c.input).terminal with
  | invalid => simp
  | accept => simp
  | shift q => simp [eq_comm]
  | reduce rule =>
      cases hr : p.rules[rule]? with
      | none => simp [hr]
      | some r =>
          cases hgoto : c.stack[r.rhs.length]?.bind fun top => p.goto? top r.lhs with
          | none => simp [hr, hgoto]
          | some q => simp [hr, hgoto, eq_comm]

/-- Turns lead from the first configuration to the second. -/
abbrev Reaches (p : Parser) : Config → Config → Prop := ReflTransGen p.Moves

theorem run_eq_some_iff {result : Except GrammarError (List Step)} :
    (∃ n, p.run n c = some result) ↔ ∃ d, p.Reaches c d ∧ p.turn d = .done result := by
  constructor
  · rintro ⟨n, h⟩
    induction n generalizing c with
    | zero => cases h
    | succ n ih =>
        rw [run] at h
        split at h
        · next hturn =>
            cases h
            exact ⟨c, .refl, hturn⟩
        · next d hturn =>
            obtain ⟨e, hde, hdone⟩ := ih h
            exact ⟨e, ReflTransGen.head hturn hde, hdone⟩
  · rintro ⟨d, hcd, hdone⟩
    induction hcd using ReflTransGen.head_induction_on with
    | refl => exact ⟨1, by rw [run, hdone]⟩
    | head hmove _ ih =>
        obtain ⟨n, hn⟩ := ih
        refine ⟨n + 1, ?_⟩
        rw [run, show p.turn _ = .more _ from hmove]
        exact hn

/-- Two runs to an end from the same configuration end alike. -/
theorem run_unique {m n : Nat} {r r' : Except GrammarError (List Step)}
    (hm : p.run m c = some r) (hn : p.run n c = some r') : r = r' := by
  induction m generalizing n c with
  | zero => cases hm
  | succ m ih =>
      cases n with
      | zero => cases hn
      | succ n =>
          rw [run] at hm hn
          split at hm
          · next hturn =>
              rw [hturn] at hn
              exact Option.some.inj (hm.symm.trans hn)
          · next d hturn =>
              rw [hturn] at hn
              exact ih hm hn

/-- A run that comes to an end passes every configuration that is reached. -/
theorem Reaches.of_done {result : Except GrammarError (List Step)} (hcd : p.Reaches c d)
    (hce : p.Reaches c e) (he : p.turn e = .done result) : p.Reaches d e := by
  induction hcd with
  | refl => exact hce
  | tail _ hmove ih =>
      cases ih.cases_head with
      | inl heq =>
          subst heq
          rw [Moves, he] at hmove
          cases hmove
      | inr h =>
          obtain ⟨next, hnext, hrest⟩ := h
          rw [Moves, show p.turn _ = _ from hmove] at hnext
          cases hnext
          exact hrest

end Runs

/-! ## Paths -/

variable {rules : List Rule}

/-- The states of the stack, the last one first, are connected by the symbols. -/
inductive Path (rules : List Rule) : List Nat → List Symbol → Prop
  | nil : Path rules [0] []
  | cons {q q' : Nat} {below : List Nat} {symbols : List Symbol} {s : Symbol}
      (h : Path rules (q :: below) symbols) (hs : Leads rules q s q') :
      Path rules (q' :: q :: below) (s :: symbols)

theorem Path.exists_cons {stack : List Nat} {symbols : List Symbol} (h : Path rules stack symbols) :
    ∃ q below, stack = q :: below := by
  cases h with
  | nil => exact ⟨0, [], rfl⟩
  | @cons q q' below _ _ _ _ => exact ⟨q', q :: below, rfl⟩

/-- The first state stands at the bottom of the stack only. -/
theorem Path.symbols_eq_nil {below : List Nat} {symbols : List Symbol}
    (h : Path rules (0 :: below) symbols) : symbols = [] := by
  cases h with
  | nil => rfl
  | cons _ hs => exact absurd rfl hs.ne_zero

/-- Under a state that holds an item stand the symbols before its dot, and below them a
    state that holds its initial item. -/
theorem Path.split {id dot q : Nat} {r : Rule} {below : List Nat} {symbols : List Symbol}
    (hr : rules[id]? = some r) (h : Path rules (q :: below) symbols)
    (hi : Holds rules q ⟨id, dot⟩) :
    ∃ q₀ below₀ symbols₀, (q :: below).drop dot = q₀ :: below₀ ∧
      symbols = (r.rhs.take dot).reverse ++ symbols₀ ∧ Path rules (q₀ :: below₀) symbols₀ ∧
      Holds rules q₀ ⟨id, 0⟩ := by
  induction dot generalizing q below symbols with
  | zero => exact ⟨q, below, symbols, rfl, by simp, h, hi⟩
  | succ dot ih =>
      cases h with
      | nil =>
          have hdot := dot_eq_zero_of_holds_zero hi
          cases hdot
      | @cons q₁ _ below₁ symbols₁ s h hs =>
          obtain ⟨hpred, hnext⟩ := hs.holds_pred hi
          obtain ⟨r', hr', hsym⟩ := nextSymbol?_eq_some.1 hnext
          cases hr.symm.trans hr'
          obtain ⟨q₀, below₀, symbols₀, hdrop, hsymbols, hpath, hinitial⟩ := ih h hpred
          refine ⟨q₀, below₀, symbols₀, by rw [List.drop_succ_cons, hdrop], ?_, hpath, hinitial⟩
          rw [List.take_add_one, hsym, hsymbols]
          simp

/-! ## Rules by their ids -/

section Rules

variable {p : Parser} {id : Nat} {r : Rule}

theorem getElem?_augmented (h : p.augmented[id]? = some r) :
    p.rules[id]? = some r ∨ (id = p.rules.size ∧ r = rootRule p.start) := by
  have h' := getElem?_augment h
  rwa [Array.getElem?_toList, Array.length_toList] at h'

theorem augmented_of_getElem? (h : p.rules[id]? = some r) : p.augmented[id]? = some r :=
  getElem?_augment_base (by rwa [Array.getElem?_toList])

theorem augmented_root : p.augmented[p.rules.size]? = some (rootRule p.start) := by
  have h : p.augmented[p.rules.toList.length]? = some (rootRule p.start) := getElem?_augment_root
  rwa [Array.length_toList] at h

theorem mem_rules (h : p.rules[id]? = some r) : r ∈ p.rules.toList :=
  List.mem_of_getElem? (by rwa [Array.getElem?_toList])

theorem exists_id (h : r ∈ p.rules.toList) : ∃ id : Nat, p.rules[id]? = some r := by
  obtain ⟨id, hid⟩ := List.getElem?_of_mem h
  rw [Array.getElem?_toList] at hid
  exact ⟨id, hid⟩

/-- In a state with a non-terminal at a dot the rules for it can begin. -/
theorem holds_initial {q : Nat} {i : Item} (hr : p.augmented[id]? = some r)
    (hi : Holds p.augmented q i) (hnt : isNonterminal r.lhs = true)
    (hnext : nextSymbol? p.augmented i = some r.lhs) : Holds p.augmented q ⟨id, 0⟩ :=
  hi.brought (mem_broughtIn.2 ⟨r, hr, rfl, hnt, hnext⟩)

end Rules

/-! ## What a turn does -/

/-- What a turn can lead to from a configuration with these symbols on its stack. -/
inductive Turned (p : Parser) (symbols : List Symbol) (c : Config) : Turn → Prop
  | refused (h : p.action (c.stack.headD 0) (nextToken c.input).terminal = .invalid) :
      Turned p symbols c (.done (.error (.parse (p.terminalName (nextToken c.input).terminal)
        (c.stack.headD 0) (p.expected (c.stack.headD 0)))))
  | accepted (h : p.action (c.stack.headD 0) (nextToken c.input).terminal = .accept)
      (hend : p.terminals[(nextToken c.input).terminal]? = some endToken)
      (hsymbols : symbols = [p.start]) : Turned p symbols c (.done (.ok c.taken.reverse))
  | shifted {token : Token} {input : List Token} {s : Symbol} {q : Nat}
      (hinput : c.input = token :: input) (hs : p.terminals[token.terminal]? = some s)
      (hpath : Path p.augmented (q :: c.stack) (s :: symbols)) :
      Turned p symbols c (.more ⟨q :: c.stack, .shift token :: c.taken, input⟩)
  | reduced {rule : Nat} {r : Rule} {s : Symbol} {q : Nat} {symbols₀ : List Symbol}
      (hr : p.rules[rule]? = some r) (hs : p.terminals[(nextToken c.input).terminal]? = some s)
      (hfollow : Follows p.augmented r.lhs s) (hsymbols : symbols = r.rhs.reverse ++ symbols₀)
      (hpath : Path p.augmented (q :: c.stack.drop r.rhs.length) (r.lhs :: symbols₀)) :
      Turned p symbols c
        (.more ⟨q :: c.stack.drop r.rhs.length, .reduce rule :: c.taken, c.input⟩)

namespace Lawful

variable {p : Parser}

theorem asks_of_action (hp : p.Lawful) {q id : Nat} {action : Action} (h : p.action q id = action)
    (hne : action ≠ .invalid) : ∃ s, p.terminals[id]? = some s ∧ Asks p.augmented q s action :=
  (hp.action_iff q id action hne).1 h

theorem action_of_asks (hp : p.Lawful) {q id : Nat} {s : Symbol} {action : Action}
    (hs : p.terminals[id]? = some s) (h : Asks p.augmented q s action) :
    p.action q id = action :=
  (hp.action_iff q id action h.ne_invalid).2 ⟨s, hs, h⟩

/-- The end of the input has one id. -/
theorem eq_endId (hp : p.Lawful) {id : Nat} (h : p.terminals[id]? = some endToken) :
    id = endId := by
  have hend := hp.getElem?_endId
  rw [← Array.getElem?_toList] at h hend
  exact eq_of_getElem?_of_nodup hp.nodup_terminals h hend

/-- Only the root rule ends with the end of the input. -/
theorem item_before_end (hp : p.Lawful) {i : Item}
    (h : nextSymbol? p.augmented i = some endToken) : i = ⟨p.rules.size, 1⟩ := by
  obtain ⟨id, dot⟩ := i
  obtain ⟨r, hr, hdot⟩ := nextSymbol?_eq_some.1 h
  rcases getElem?_augmented hr with hr | ⟨rfl, rfl⟩
  · exact absurd (List.mem_of_getElem? hdot) (hp.augmentable.end_not_mem r (mem_rules hr))
  · have hstart := ne_endToken hp.augmentable.start_nonterminal
    match dot, hdot with
    | 0, hdot => exact absurd (Option.some.inj hdot) hstart
    | 1, _ => rfl

/-- No rule mentions the root symbol. -/
theorem root_not_next (hp : p.Lawful) (i : Item) : nextSymbol? p.augmented i ≠ some rootSymbol := by
  intro h
  obtain ⟨r, hr, hdot⟩ := nextSymbol?_eq_some.1 h
  rcases getElem?_augmented hr with hr | ⟨-, rfl⟩
  · exact hp.augmentable.root_not_mem r (mem_rules hr) (List.mem_of_getElem? hdot)
  · have hmem : rootSymbol ∈ [p.start, endToken] := List.mem_of_getElem? hdot
    simp only [List.mem_cons, List.not_mem_nil, or_false] at hmem
    rcases hmem with hmem | hmem
    · exact hp.augmentable.start_ne_root hmem.symm
    · exact absurd hmem (by decide)

/-- Below a state with the dot before the end of the input stands the first state. -/
theorem symbols_of_accept (hp : p.Lawful) {q : Nat} {below : List Nat} {symbols : List Symbol}
    {i : Item} (hpath : Path p.augmented (q :: below) symbols) (hi : Holds p.augmented q i)
    (hnext : nextSymbol? p.augmented i = some endToken) : symbols = [p.start] := by
  rw [hp.item_before_end hnext] at hi
  obtain ⟨q₀, below₀, symbols₀, -, hsymbols, hpath₀, hinitial⟩ :=
    Path.split augmented_root hpath hi
  rcases hinitial.initial_cases with ⟨rfl, -⟩ | ⟨j, -, hbrought⟩
  · rw [hsymbols, hpath₀.symbols_eq_nil]
    rfl
  · obtain ⟨r, hr, -, -, hj⟩ := mem_broughtIn.1 hbrought
    cases hr.symm.trans augmented_root
    exact absurd hj (hp.root_not_next j)

/-- Only rules of the parser are ever complete on the stack. -/
theorem rules_of_complete {q id : Nat} {below : List Nat} {symbols : List Symbol}
    {r : Rule} (hpath : Path p.augmented (q :: below) symbols) (hr : p.augmented[id]? = some r)
    (hi : Holds p.augmented q ⟨id, r.rhs.length⟩) : p.rules[id]? = some r := by
  rcases getElem?_augmented hr with hr | ⟨rfl, rfl⟩
  · exact hr
  · -- the transition into the state would be over the end of the input
    cases hpath with
    | nil =>
        have hdot := dot_eq_zero_of_holds_zero hi
        cases hdot
    | cons _ hs =>
        obtain ⟨-, hnext⟩ := hs.holds_pred hi
        obtain ⟨r, hr, hsym⟩ := nextSymbol?_eq_some.1 hnext
        cases hr.symm.trans augmented_root
        exact absurd (Option.some.inj hsym).symm hs.ne_end

theorem leads_of_initial (hp : p.Lawful) {q id : Nat} {r : Rule} (hr : p.rules[id]? = some r)
    (hi : Holds p.augmented q ⟨id, 0⟩) : ∃ q', Leads p.augmented q r.lhs q' := by
  have hmem := mem_rules hr
  have hnt := hp.augmentable.lhs_nonterminal r hmem
  rcases hi.initial_cases with ⟨-, r', hr', hroot⟩ | ⟨j, hj, hbrought⟩
  · cases hr'.symm.trans (augmented_of_getElem? hr)
    exact absurd hroot (hp.augmentable.lhs_ne_root r hmem)
  · obtain ⟨r', hr', -, -, hnext⟩ := mem_broughtIn.1 hbrought
    cases hr'.symm.trans (augmented_of_getElem? hr)
    exact hj.exists_leads hnext (ne_endToken hnt)

/-- What a turn does. -/
theorem turn_spec (hp : p.Lawful) {symbols : List Symbol} {c : Config}
    (hpath : Path p.augmented c.stack symbols) : Turned p symbols c (p.turn c) := by
  obtain ⟨q, below, hstack⟩ := hpath.exists_cons
  have htop : c.stack.headD 0 = q := by rw [hstack]; rfl
  have hpath' := hpath
  rw [hstack] at hpath'
  unfold turn
  simp only
  cases haction : p.action (c.stack.headD 0) (nextToken c.input).terminal with
  | invalid => exact .refused haction
  | accept =>
      obtain ⟨s, hs, hask⟩ := hp.asks_of_action haction (by simp)
      rw [htop] at hask
      cases hask with
      | accept hend hi hnext =>
          rw [hend] at hs
          exact .accepted haction hs (hp.symbols_of_accept hpath' hi hnext)
  | shift q' =>
      obtain ⟨s, hs, hask⟩ := hp.asks_of_action haction (by simp)
      rw [htop] at hask
      cases hask with
      | shift hleads =>
          cases hinput : c.input with
          | nil =>
              -- the end of the input is never shifted
              rw [hinput] at hs
              have hend := hp.getElem?_endId.symm.trans hs
              exact absurd (Option.some.inj hend).symm hleads.ne_end
          | cons token input =>
              rw [hinput] at hs
              refine .shifted hinput hs ?_
              rw [hstack]
              exact .cons hpath' hleads
  | reduce rule =>
      obtain ⟨s, hs, hask⟩ := hp.asks_of_action haction (by simp)
      rw [htop] at hask
      cases hask with
      | @reduce _ r hr hi hfollow =>
          have hrule := rules_of_complete hpath' hr hi
          obtain ⟨q₀, below₀, symbols₀, hdrop, hsymbols, hpath₀, hinitial⟩ :=
            Path.split hr hpath' hi
          obtain ⟨q', hleads⟩ := hp.leads_of_initial hrule hinitial
          have hnt := hp.augmentable.lhs_nonterminal r (mem_rules hrule)
          have hgoto := (hp.goto?_iff q₀ r.lhs q' hnt).2 hleads
          rw [List.take_length] at hsymbols
          rw [← hstack] at hdrop
          simp only [hrule, hdrop, List.head?_cons, Option.bind_some, hgoto]
          rw [← hdrop]
          refine .reduced hrule hs hfollow hsymbols ?_
          rw [hdrop]
          exact .cons hpath₀ hleads

theorem turned_of_moves (hp : p.Lawful) {symbols : List Symbol} {c d : Config}
    (hpath : Path p.augmented c.stack symbols) (hmove : p.Moves c d) :
    Turned p symbols c (.more d) := by
  rw [← show p.turn c = .more d from hmove]
  exact hp.turn_spec hpath

end Lawful

/-- The stack of a reached configuration is a path. -/
theorem Reaches.exists_path {p : Parser} (hp : p.Lawful) {c d : Config} {symbols : List Symbol}
    (h : p.Reaches c d) (hpath : Path p.augmented c.stack symbols) :
    ∃ symbols', Path p.augmented d.stack symbols' := by
  induction h with
  | refl => exact ⟨symbols, hpath⟩
  | tail _ hmove ih =>
      obtain ⟨symbols', hpath'⟩ := ih
      cases hp.turned_of_moves hpath' hmove with
      | shifted _ _ hnext => exact ⟨_, hnext⟩
      | reduced _ _ _ _ hnext => exact ⟨_, hnext⟩

end ParseBench.Grammar.Parser
