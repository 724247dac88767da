/-
  ParseBench.Proofs.Parser.Errors

  The parser refuses a token as soon as it can no longer be part of a derivation.
  A derivation whose sentential form begins with some tokens and a terminal is a
  row of parse trees for the tokens, under rules that are only begun (`Opens`). The
  machine follows it as it follows a tree and comes to a state with the terminal at
  a dot (`Opens.reaches`), where it does not refuse the terminal. So the token it
  refuses is the first one after a viable beginning. What it has done until then
  depends on the terminals up to the refused one alone (`Reaches.exists_parallel`).
-/

import ParseBench.Proofs.Parser.Completeness
import ParseBench.Proofs.Parser.Viable

namespace ParseBench.Grammar.Parser

open ParseTree
open Relation (ReflTransGen)

variable {p : Parser}

/-! ## Derivations that come as far as a terminal -/

mutual

/-- The symbol derives the tokens with the terminal `t` after them. -/
inductive Opens (p : Parser) (t : Symbol) : Symbol → List Token → Prop
  | here : Opens p t t []
  | node {rule : Nat} {r : Rule} {tokens : List Token} (hr : p.rules[rule]? = some r)
      (h : RowOpens p t r.rhs tokens) : Opens p t r.lhs tokens

/-- The row of symbols derives the tokens with the terminal `t` after them: some of the
    tokens are the leaves of trees for the first symbols, the others come out of the next
    one. -/
inductive RowOpens (p : Parser) (t : Symbol) : List Symbol → List Token → Prop
  | intro {front : List Symbol} {trees : List ParseTree} {s : Symbol} {tokens : List Token}
      (hfront : p.IsForest front trees) (h : Opens p t s tokens) (back : List Symbol) :
      RowOpens p t (front ++ s :: back) (forestLeaves trees ++ tokens)

end

/-- Undoing a step of a derivation puts a tree under a rule, or begins one. -/
theorem RowOpens.of_rewrites {symbols symbols' : List Symbol} {tokens : List Token} {t : Symbol}
    (hstep : Rewrites p.rules.toList symbols symbols') (h : p.RowOpens t symbols' tokens) :
    p.RowOpens t symbols tokens := by
  cases hstep with
  | @intro r hr before after =>
      obtain ⟨rule, hrule⟩ := exists_id hr
      generalize hrow : before ++ (r.rhs ++ after) = row at h
      cases h with
      | @intro front trees s tokens hfront hopens back =>
          rcases append_cons_cases hrow.symm with ⟨between, rfl, rfl⟩ | ⟨between, rfl, hrest⟩
          · -- the terminal comes out of a symbol before the left-hand side
            rw [List.append_assoc, List.cons_append]
            exact .intro hfront hopens _
          · rcases append_cons_cases hrest.symm with ⟨after', hrhs, -⟩ | ⟨after', rfl, rfl⟩
            · -- it comes out of the right-hand side, which is only begun
              obtain ⟨first, others, rfl, hfirst, hothers⟩ := isForest_append hfront
              rw [forestLeaves_append, List.append_assoc]
              refine .intro hfirst (.node hrule ?_) after
              rw [hrhs]
              exact .intro hothers hopens after'
            · -- it comes out of a symbol after the right-hand side
              obtain ⟨trees', hforest, hleaves⟩ :=
                IsForest.of_rewrites (.intro hr before after') hfront
              rw [← hleaves, ← List.cons_append, ← List.append_assoc]
              exact .intro hforest hopens back

theorem RowOpens.of_derives {symbols symbols' : List Symbol} {tokens : List Token} {t : Symbol}
    (hsteps : Derives p.rules.toList symbols symbols') (h : p.RowOpens t symbols' tokens) :
    p.RowOpens t symbols tokens := by
  induction hsteps using ReflTransGen.head_induction_on with
  | refl => exact h
  | head hstep _ ih => exact .of_rewrites hstep ih

/-- A viable sequence comes from the start symbol with the end of the input after it. -/
theorem Viable.rowOpens {tokens : List Token} {id : Nat}
    (h : p.Viable (tokens.map Token.terminal ++ [id])) :
    ∃ t, p.terminals[id]? = some t ∧ p.RowOpens t [p.start, endToken] tokens := by
  obtain ⟨symbols, more, hspells, hderives⟩ := h
  obtain ⟨front, last, rfl, hfront, hlast⟩ := spells_append hspells
  obtain ⟨t, rfl, ht⟩ : ∃ t, last = [t] ∧ p.terminals[id]? = some t := by
    unfold Spells at hlast
    cases last with
    | nil => cases hlast
    | cons t others =>
        rw [List.map_singleton, List.map_cons, List.cons.injEq] at hlast
        rw [List.map_eq_nil_iff.1 hlast.2.symm]
        exact ⟨t, rfl, hlast.1⟩
  obtain ⟨hforest, hleaves⟩ := isForest_leaf hfront
  have hrow : p.RowOpens t (front ++ t :: more) (forestLeaves (tokens.map .leaf) ++ []) :=
    .intro hforest .here more
  rw [hleaves, List.append_nil] at hrow
  rw [List.append_assoc, List.singleton_append] at hderives
  exact ⟨t, ht, .of_derives hderives hrow⟩

/-! ## The run over a derivation -/

mutual

/-- The first token, or the terminal when there is none, is one that the symbol begins with. -/
theorem Opens.exists_begins (hp : p.Lawful) {s t : Symbol} {tokens rest : List Token}
    (h : p.Opens t s tokens) (hrest : p.terminals[(nextToken rest).terminal]? = some t) :
    ∃ a, p.terminals[(nextToken (tokens ++ rest)).terminal]? = some a ∧
      Begins p.augmented s a := by
  match h with
  | .here => exact ⟨_, hrest, .terminal (hp.isTerminal _ _ hrest)⟩
  | @Opens.node _ _ rule r _ hr h =>
      have hmem := mem_rules hr
      obtain ⟨s, a, hhead, ha, hbegins⟩ := h.exists_begins hp hrest
      exact ⟨a, ha, .rule (mem_augment.2 (.inl hmem)) (hp.augmentable.lhs_nonterminal r hmem)
        hhead hbegins⟩

theorem RowOpens.exists_begins (hp : p.Lawful) {symbols : List Symbol} {t : Symbol}
    {tokens rest : List Token} (h : p.RowOpens t symbols tokens)
    (hrest : p.terminals[(nextToken rest).terminal]? = some t) :
    ∃ s a, symbols.head? = some s ∧ p.terminals[(nextToken (tokens ++ rest)).terminal]? = some a ∧
      Begins p.augmented s a := by
  match h with
  | @RowOpens.intro _ _ front trees s tokens hfront h back =>
      rw [List.append_assoc]
      by_cases hne : front = []
      · subst hne
        cases hfront
        obtain ⟨a, ha, hbegins⟩ := h.exists_begins hp hrest
        exact ⟨s, a, rfl, ha, hbegins⟩
      · obtain ⟨s', a, hhead, ha, hbegins⟩ := hfront.exists_begins hp hne (tokens ++ rest)
        exact ⟨s', a, by rw [List.head?_append, hhead]; rfl, ha, hbegins⟩

end

namespace Lawful

/-- The end of the input stands at the end of a rule only. -/
theorem ne_end_of_front (hp : p.Lawful) {id : Nat} {r : Rule} (hr : p.augmented[id]? = some r)
    {front back : List Symbol} {s : Symbol} (hrhs : r.rhs = front ++ s :: back) :
    ∀ x ∈ front, x ≠ endToken := by
  rintro x hx rfl
  obtain ⟨dot, hdot⟩ := List.getElem?_of_mem hx
  have hlt := (List.getElem?_eq_some_iff.1 hdot).1
  have hnext : nextSymbol? p.augmented ⟨id, dot⟩ = some endToken := by
    refine nextSymbol?_eq_some.2 ⟨r, hr, ?_⟩
    rw [hrhs, List.getElem?_append_left hlt]
    exact hdot
  cases hp.item_before_end hnext
  cases hr.symm.trans augmented_root
  have hlen := congrArg List.length hrhs
  simp only [rootRule, List.length_append, List.length_cons, List.length_nil] at hlen
  omega

end Lawful

/-- The machine has read all but `rest` and has the terminal at a dot. -/
def Expects (p : Parser) (rest : List Token) (t : Symbol) (c : Config) : Prop :=
  c.input = rest ∧ ∃ i, Holds p.augmented (c.stack.headD 0) i ∧ nextSymbol? p.augmented i = some t

mutual

/-- In a state with the symbol at a dot the machine reads the tokens that the symbol derives
    before the terminal. -/
theorem Opens.reaches (hp : p.Lawful) {s t : Symbol} {tokens : List Token}
    (h : p.Opens t s tokens) {q : Nat} {i : Item} (hi : Holds p.augmented q i)
    (hnext : nextSymbol? p.augmented i = some s) {rest : List Token}
    (hrest : p.terminals[(nextToken rest).terminal]? = some t) (below : List Nat)
    (taken : List Step) :
    ∃ d, p.Reaches ⟨q :: below, taken, tokens ++ rest⟩ d ∧ p.Expects rest t d := by
  match h with
  | .here => exact ⟨_, .refl, rfl, i, hi, hnext⟩
  | @Opens.node _ _ rule r _ hr h =>
      have haug := augmented_of_getElem? hr
      have hnt := hp.augmentable.lhs_nonterminal r (mem_rules hr)
      exact h.reaches hp haug rfl (holds_initial haug hi hnt hnext) hrest below taken

/-- In a state with a rule to begin the machine reads the tokens that the right-hand side
    derives before the terminal. -/
theorem RowOpens.reaches (hp : p.Lawful) {symbols : List Symbol} {t : Symbol}
    {tokens : List Token} (h : p.RowOpens t symbols tokens) {q id : Nat} {r : Rule}
    (hr : p.augmented[id]? = some r) (hrhs : r.rhs = symbols)
    (hi : Holds p.augmented q ⟨id, 0⟩) {rest : List Token}
    (hrest : p.terminals[(nextToken rest).terminal]? = some t) (below : List Nat)
    (taken : List Step) :
    ∃ d, p.Reaches ⟨q :: below, taken, tokens ++ rest⟩ d ∧ p.Expects rest t d := by
  match h with
  | @RowOpens.intro _ _ front trees s tokens hfront h back =>
      have hdot : r.rhs.drop 0 = front ++ s :: back := hrhs
      have hnext : nextSymbol? p.augmented ⟨id, 0 + front.length⟩ = some s :=
        nextSymbol?_eq_some.2 ⟨r, hr, by simp [hrhs]⟩
      obtain ⟨a, ha, hbegins⟩ := h.exists_begins hp hrest
      obtain ⟨pushed, -, hholds, hfirst⟩ := hfront.reaches hp hr hdot
        (hp.ne_end_of_front hr hrhs) hi ⟨a, ha, .begins hnext hbegins⟩ below taken
      obtain ⟨q', below', hstack⟩ : ∃ q' below', pushed ++ q :: below = q' :: below' :=
        List.exists_cons_of_ne_nil (by simp)
      rw [hstack] at hholds hfirst
      obtain ⟨d, hlast, hexpects⟩ := h.reaches hp hholds hnext hrest below' _
      rw [List.append_assoc]
      exact ⟨d, hfirst.trans hlast, hexpects⟩

end

/-- The machine reads every viable beginning and then has its last terminal at a dot. -/
theorem Viable.exists_reaches (hp : p.Lawful) {tokens rest : List Token}
    (h : p.Viable (tokens.map Token.terminal ++ [(nextToken rest).terminal])) :
    ∃ t d, p.terminals[(nextToken rest).terminal]? = some t ∧
      p.Reaches (init (tokens ++ rest)) d ∧ p.Expects rest t d := by
  obtain ⟨t, ht, hrow⟩ := h.rowOpens
  obtain ⟨d, hreach, hexpects⟩ := hrow.reaches hp augmented_root rfl
    (holds_zero_of_root augmented_root rfl) ht [] []
  exact ⟨t, d, ht, hreach, hexpects⟩

/-! ## The refused token -/

theorem Moves.input_suffix {c d : Config} (h : p.Moves c d) : d.input <:+ c.input := by
  rcases moves_iff.1 h with ⟨_, -, rfl⟩ | ⟨_, _, _, -, -, -, rfl⟩
  · exact List.tail_suffix _
  · exact List.suffix_rfl

theorem Reaches.input_suffix {c d : Config} (h : p.Reaches c d) : d.input <:+ c.input := by
  induction h with
  | refl => exact List.suffix_rfl
  | tail _ hmove ih => exact (Moves.input_suffix hmove).trans ih

/-- A terminal at a dot is accepted, or it is shifted and not the end of the input. -/
theorem Expects.turn (hp : p.Lawful) {rest : List Token} {t : Symbol} {d : Config}
    (h : p.Expects rest t d) (ht : p.terminals[(nextToken rest).terminal]? = some t) :
    (∃ steps, p.turn d = .done (.ok steps)) ∨
      ∃ token input e, rest = token :: input ∧ p.Moves d e ∧ e.input = input := by
  obtain ⟨rfl, i, hi, hnext⟩ := h
  by_cases hend : t = endToken
  · subst hend
    have haction := hp.action_of_asks ht (.accept rfl hi hnext)
    left
    exact ⟨d.taken.reverse, by simp only [Parser.turn, haction]⟩
  · obtain ⟨q, hleads⟩ := hi.exists_leads hnext hend
    have haction := hp.action_of_asks ht (.shift hleads)
    right
    cases hinput : d.input with
    | nil =>
        rw [hinput] at ht
        exact absurd (Option.some.inj (ht.symm.trans hp.getElem?_endId)) hend
    | cons token input =>
        refine ⟨token, input, _, rfl, moves_iff.2 (.inl ⟨q, haction, rfl⟩), ?_⟩
        rw [hinput, List.tail_cons]

/-- What was read is no longer viable with the refused terminal after it. -/
theorem not_viable_of_refused (hp : p.Lawful) {tokens : List Token} {c : Config} {e : GrammarError}
    (hreach : p.Reaches (init (tokens ++ c.input)) c) (hdone : p.turn c = .done (.error e)) :
    ¬ p.Viable (tokens.map Token.terminal ++ [(nextToken c.input).terminal]) := by
  intro hviable
  obtain ⟨t, d, ht, hd, hexpects⟩ := hviable.exists_reaches hp
  -- the run to the refusal passes through the configuration with the terminal at a dot
  have hrest := Reaches.of_done hd hreach hdone
  rcases hexpects.turn hp ht with ⟨steps, hok⟩ | ⟨token, input, next, hinput, hmove, hnext⟩
  · cases hrest.cases_head with
    | inl heq =>
        rw [heq, hdone] at hok
        cases hok
    | inr h =>
        obtain ⟨next, hmove, -⟩ := h
        rw [Moves, hok] at hmove
        cases hmove
  · cases hrest.cases_head with
    | inl heq =>
        rw [Moves, heq, hdone] at hmove
        cases hmove
    | inr h =>
        -- the token would have been read before it is refused
        obtain ⟨next', hmove', hlater⟩ := h
        rw [Moves, hmove] at hmove'
        cases hmove'
        have hlen := (Reaches.input_suffix hlater).length_le
        rw [hnext, hinput, List.length_cons] at hlen
        omega

/-! ## Runs side by side -/

theorem turn_of_invalid {c : Config}
    (h : p.action (c.stack.headD 0) (nextToken c.input).terminal = .invalid) :
    p.turn c = .done (.error (.parse (p.terminalName (nextToken c.input).terminal)
      (c.stack.headD 0) (p.expected (c.stack.headD 0)))) := by
  simp only [turn, h]

theorem Lawful.action_endId_ne_shift (hp : p.Lawful) (q q' : Nat) :
    p.action q endId ≠ .shift q' := by
  intro haction
  obtain ⟨s, hs, hask⟩ := hp.asks_of_action haction (by simp)
  cases hask with
  | shift hleads => exact hleads.ne_end (Option.some.inj (hs.symm.trans hp.getElem?_endId))

theorem nextToken_append_congr {read read' rest rest' : List Token}
    (hread : read'.map Token.terminal = read.map Token.terminal)
    (hrest : (nextToken rest').terminal = (nextToken rest).terminal) :
    (nextToken (read' ++ rest')).terminal = (nextToken (read ++ rest)).terminal := by
  cases read with
  | nil =>
      rw [List.map_nil, List.map_eq_nil_iff] at hread
      rw [hread]
      exact hrest
  | cons token read =>
      obtain ⟨token', others, rfl, hterminal, -⟩ := List.map_eq_cons_iff.1 hread
      exact hterminal

/-- A run that reads some tokens can be made on all tokens with the same terminals, and
    whatever comes after them, as long as the next terminal is the same. -/
theorem Reaches.exists_parallel (hp : p.Lawful) {c e : Config} (h : p.Reaches c e)
    {read read' rest' : List Token} (hinput : c.input = read ++ e.input)
    (hread : read'.map Token.terminal = read.map Token.terminal)
    (hrest : (nextToken rest').terminal = (nextToken e.input).terminal) (taken : List Step) :
    ∃ taken', p.Reaches ⟨c.stack, taken, read' ++ rest'⟩ ⟨e.stack, taken', rest'⟩ := by
  induction h using ReflTransGen.head_induction_on generalizing read read' taken with
  | refl =>
      have hnil : read = [] := List.self_eq_append_left.1 hinput
      rw [hnil, List.map_nil, List.map_eq_nil_iff] at hread
      rw [hread]
      exact ⟨taken, .refl⟩
  | @head c d hmove hlater ih =>
      have hnext : (nextToken (read' ++ rest')).terminal = (nextToken c.input).terminal := by
        rw [hinput]
        exact nextToken_append_congr hread hrest
      rcases moves_iff.1 hmove with ⟨q, haction, rfl⟩ | ⟨rule, r, q, haction, hr, hgoto, rfl⟩
      · cases read with
        | nil =>
            -- there is nothing to shift before the run is over
            have hlen := (Reaches.input_suffix hlater).length_le
            rw [List.nil_append] at hinput
            rw [← hinput, List.length_tail] at hlen
            have hnil : c.input = [] := List.eq_nil_of_length_eq_zero (by omega)
            rw [hnil] at haction
            exact absurd haction (hp.action_endId_ne_shift _ _)
        | cons token read =>
            obtain ⟨token', others, rfl, -, hothers⟩ := List.map_eq_cons_iff.1 hread
            rw [← hnext] at haction
            have hmove' : p.Moves ⟨c.stack, taken, token' :: others ++ rest'⟩
                ⟨q :: c.stack, .shift token' :: taken, others ++ rest'⟩ :=
              moves_iff.2 (.inl ⟨q, haction, rfl⟩)
            have htail : c.input.tail = read ++ e.input := by
              rw [hinput]
              rfl
            obtain ⟨taken', hreach⟩ := ih htail hothers (.shift token' :: taken)
            exact ⟨taken', ReflTransGen.head hmove' hreach⟩
      · rw [← hnext] at haction
        have hmove' : p.Moves ⟨c.stack, taken, read' ++ rest'⟩
            ⟨q :: c.stack.drop r.rhs.length, .reduce rule :: taken, read' ++ rest'⟩ :=
          moves_iff.2 (.inr ⟨rule, r, q, haction, hr, hgoto, rfl⟩)
        obtain ⟨taken', hreach⟩ := ih hinput hread (.reduce rule :: taken)
        exact ⟨taken', ReflTransGen.head hmove' hreach⟩

/-- Tokens whose terminals, with the end of the input after them, begin with the given ones
    fall into tokens with these terminals and others. -/
theorem exists_append_of_prefix {ids : List Nat} {id : Nat} {tokens : List Token}
    (h : ids ++ [id] <+: tokens.map Token.terminal ++ [endId]) :
    ∃ read rest, tokens = read ++ rest ∧ read.map Token.terminal = ids ∧
      (nextToken rest).terminal = id := by
  induction ids generalizing tokens with
  | nil =>
      refine ⟨[], tokens, rfl, rfl, ?_⟩
      cases tokens with
      | nil => exact (List.cons_prefix_cons.1 h).1.symm
      | cons token tokens => exact (List.cons_prefix_cons.1 h).1.symm
  | cons first ids ih =>
      cases tokens with
      | nil =>
          have hlen := h.length_le
          simp only [List.length_append, List.length_cons, List.length_map, List.length_nil] at hlen
          omega
      | cons token tokens =>
          obtain ⟨hfirst, hbegins⟩ := List.cons_prefix_cons.1 h
          obtain ⟨read, rest, rfl, hread, hrest⟩ := ih hbegins
          refine ⟨token :: read, rest, rfl, ?_, hrest⟩
          rw [List.map_cons, hread, ← hfirst]

theorem prefix_of_append {read rest : List Token} :
    read.map Token.terminal ++ [(nextToken rest).terminal] <+:
      (read ++ rest).map Token.terminal ++ [endId] := by
  rw [List.map_append, List.append_assoc, List.prefix_append_right_inj]
  cases rest with
  | nil => exact List.prefix_rfl
  | cons token rest => exact List.prefix_append [token.terminal] _

/-- The parser accepts exactly the token lists that are derivable. -/
theorem derivable_iff_parse_ok (hp : p.Lawful) {tokens : List Token}
    (hend : ∀ token ∈ tokens, token.terminal ≠ endId) :
    p.Derivable (tokens.map Token.terminal) ↔ ∃ steps, p.parse tokens = .ok steps := by
  rw [derivable_iff]
  constructor
  · rintro ⟨t, ht, rfl⟩
    exact ⟨t.postorder, parse_leaves hp ht⟩
  · rintro ⟨steps, hparse⟩
    obtain ⟨t, ht, hleaves, -⟩ := exists_tree_of_parse_ok hp hend hparse
    exact ⟨t, ht, hleaves⟩

/-- What is not derivable is read as long as it is viable; then a token is refused. -/
theorem exists_refused (hp : p.Lawful) {tokens : List Token}
    (hend : ∀ token ∈ tokens, token.terminal ≠ endId)
    (h : ¬ p.Derivable (tokens.map Token.terminal)) :
    ∃ read c, tokens = read ++ c.input ∧ p.Viable (read.map Token.terminal) ∧
      ¬ p.Viable (read.map Token.terminal ++ [(nextToken c.input).terminal]) ∧
      p.Reaches (init tokens) c ∧
      p.action (c.stack.headD 0) (nextToken c.input).terminal = .invalid := by
  cases hparse : p.parse tokens with
  | ok steps =>
      exact absurd ((derivable_iff_parse_ok hp hend).2 ⟨steps, hparse⟩) h
  | error e =>
      obtain ⟨c, hreach, hdone⟩ := (parse_eq_iff hp).1 hparse
      obtain ⟨symbols, trees, hbuilt⟩ := Reaches.exists_built hp hreach
      have hleaves := hbuilt.leaves
      have hturn := hp.turn_spec hbuilt.path
      subst hleaves
      refine ⟨forestLeaves trees, c, rfl, hbuilt.viable hp,
        not_viable_of_refused hp hreach hdone, hreach, ?_⟩
      rw [hdone] at hturn
      cases hturn with
      | refused hinvalid => exact hinvalid

/-- A refused token is refused after the same terminals in all token lists. -/
theorem parse_of_refused (hp : p.Lawful) {read tokens : List Token} {c : Config}
    (hreach : p.Reaches (init (read ++ c.input)) c)
    (hinvalid : p.action (c.stack.headD 0) (nextToken c.input).terminal = .invalid)
    (hbegins : read.map Token.terminal ++ [(nextToken c.input).terminal] <+:
      tokens.map Token.terminal ++ [endId]) :
    p.parse tokens = .error (.parse (p.terminalName (nextToken c.input).terminal)
      (c.stack.headD 0) (p.expected (c.stack.headD 0))) := by
  obtain ⟨read', rest', rfl, hread, hrest⟩ := exists_append_of_prefix hbegins
  obtain ⟨taken, hreach'⟩ := Reaches.exists_parallel hp hreach rfl hread hrest []
  rw [← hrest] at hinvalid ⊢
  exact (parse_eq_iff hp).2 ⟨_, hreach', turn_of_invalid hinvalid⟩

/-- A viable beginning goes no further than one that is not viable with the next terminal. -/
theorem Viable.prefix_of_not_viable {ids front all : List Nat} {id : Nat} (h : p.Viable ids)
    (hids : ids <+: all) (hfront : front ++ [id] <+: all) (hnot : ¬ p.Viable (front ++ [id])) :
    ids <+: front := by
  rcases List.prefix_or_prefix_of_prefix hids hfront with hshort | hlong
  · rcases List.prefix_concat_iff.1 hshort with rfl | hshort
    · exact absurd h hnot
    · exact hshort
  · exact absurd (h.of_prefix hlong) hnot

/-- A token list that is not derivable is answered with a parse error. It names what comes
    directly after the longest viable beginning, and it is the same error for all token
    lists that begin in this way. -/
theorem parse_refuses {g : RuleSet} {start : Symbol} {c : Compiled} (hg : g.WellFormed start)
    (hc : (compile g start).1 = .ok c) {tokens : List Token}
    (hend : ∀ token ∈ tokens, token.terminal ≠ endId)
    (h : ¬ c.parser.Derivable (tokens.map Token.terminal)) :
    ∃ viable next state expected,
      viable ++ [next] <+: tokens.map Token.terminal ++ [endId] ∧ c.parser.Viable viable ∧
      (∀ ids, ids <+: tokens.map Token.terminal ++ [endId] → c.parser.Viable ids →
        ids <+: viable) ∧
      c.parser.parse tokens = .error (.parse (c.parser.terminalName next) state expected) ∧
      ∀ tokens' : List Token, viable ++ [next] <+: tokens'.map Token.terminal ++ [endId] →
        c.parser.parse tokens' = .error (.parse (c.parser.terminalName next) state expected) := by
  have hp := lawful_of_compile hg hc
  obtain ⟨read, d, rfl, hviable, hnot, hreach, hinvalid⟩ := exists_refused hp hend h
  have hbegins : read.map Token.terminal ++ [(nextToken d.input).terminal] <+:
      (read ++ d.input).map Token.terminal ++ [endId] := prefix_of_append
  refine ⟨read.map Token.terminal, (nextToken d.input).terminal, _, _, hbegins, hviable, ?_,
    parse_of_refused hp hreach hinvalid hbegins, ?_⟩
  · exact fun ids hids hids' => hids'.prefix_of_not_viable hids hbegins hnot
  · exact fun tokens' hbegins' => parse_of_refused hp hreach hinvalid hbegins'

theorem parse_refuses_sums :
    ¬ sumsCompiled.parser.Derivable [3, 3] ∧
      ∃ viable next state expected, viable ++ [next] <+: [3, 3, endId] ∧
        sumsCompiled.parser.Viable viable ∧
        sumsCompiled.parser.parse [⟨3, "1"⟩, ⟨3, "i"⟩] =
          .error (.parse (sumsCompiled.parser.terminalName next) state expected) := by
  have hp := lawful_of_compile sums_wellFormed compile_sums
  have hend : ∀ token ∈ ([⟨3, "1"⟩, ⟨3, "i"⟩] : List Token), token.terminal ≠ endId := by decide
  have hnot : ¬ sumsCompiled.parser.Derivable [3, 3] := by
    intro h
    obtain ⟨steps, hparse⟩ := (derivable_iff_parse_ok hp hend).1 h
    have hnone : (sumsCompiled.parser.parse [⟨3, "1"⟩, ⟨3, "i"⟩]).toOption = none := by
      decide +kernel
    rw [hparse] at hnone
    cases hnone
  obtain ⟨viable, next, state, expected, hbegins, hviable, -, hparse, -⟩ :=
    parse_refuses sums_wellFormed compile_sums hend hnot
  exact ⟨hnot, viable, next, state, expected, hbegins, hviable, hparse⟩

end ParseBench.Grammar.Parser
