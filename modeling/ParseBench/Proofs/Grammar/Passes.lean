/-
  ParseBench.Proofs.Grammar.Passes

  The action table written in three passes. The first one writes the transitions on terminals,
  the second one the end of the input after the start symbol, and the third one the rules of
  complete items, cell by cell in the order of states, items and terminals. A cell that holds
  another action already ends the third pass (`Action.collides`).

  While an item is written, a row holds in each cell the first action that was asked for so far
  (`row`). So a cell is free exactly if nothing was asked for, the pass ends with the first
  conflict, and without one the table holds the actions of the states (`writeTable_eq`).
-/

import ParseBench.Proofs.Grammar.Compile

namespace ParseBench.Grammar

/-! ## The passes -/

/-- May the rule not be written into a cell that holds the action? -/
def Action.collides (existing : Action) (rule : Nat) : Bool :=
  existing != .invalid && existing != .reduce rule

namespace TableInput

variable (t : TableInput)

/-- The transition of a state on a terminal, if there is one. -/
def shiftEntry (state : Nat) (terminal : Symbol) : Action :=
  match t.automaton.next? state terminal with
  | some next => .shift next
  | none => .invalid

/-- The row of a state in the first pass. -/
def shiftRow (state : Nat) : List Action :=
  t.alphabet.terminals.map (t.shiftEntry state)

/-- The row of a state in the second pass: with the end of the input after the dot the state
    accepts it. -/
def acceptRow (set : ItemSet) (row : List Action) : List Action :=
  if set.any fun i => nextSymbol? t.rules i == some endToken then row.set endId .accept else row

/-- Writes the rule of a complete item into a cell, if the terminal can follow. -/
def reduceCell (state : Nat) (item : Item) (row : List Action) (cell : Symbol × Nat) :
    Except Conflict (List Action) :=
  if cell.1 ∈ t.followOf item.rule then
    let existing := row[cell.2]?.getD .invalid
    if existing.collides item.rule then .error ⟨state, cell.1, item.rule, existing⟩
    else .ok (row.set cell.2 (.reduce item.rule))
  else .ok row

/-- Writes the rule of a complete item into its cells. -/
def reduceItem (state : Nat) (row : List Action) (item : Item) : Except Conflict (List Action) :=
  t.alphabet.terminals.zipIdx.foldlM (t.reduceCell state item) row

/-- The row of a state in the third pass. Only complete items are written. -/
def reduceRow (state : Nat) (set : ItemSet) (row : List Action) : Except Conflict (List Action) :=
  set.foldlM (fun row item =>
    if isComplete t.rules item then t.reduceItem state row item else pure row) row

/-- The action table after the three passes, or the conflict that ended the third one. -/
def writeTable : Except Conflict (List (List Action)) :=
  let shifts := t.automaton.sets.zipIdx.map fun s => t.shiftRow s.2
  let accepts := List.zipWith t.acceptRow t.automaton.sets shifts
  (t.automaton.sets.zipIdx.zip accepts).mapM fun s => t.reduceRow s.1.2 s.1.1 s.2

/-! ## Rows -/

variable {t} {state : Nat} {set : ItemSet} {earlier items : List Item} {item : Item} {s : Symbol}

/-- The actions that a state and the items before the next one ask for. -/
def asked (t : TableInput) (state : Nat) (set : ItemSet) (earlier : List Item) (s : Symbol) :
    List Action :=
  t.readActions state set s ++ t.reduceActions earlier s

/-- The first of these actions. -/
def entry (t : TableInput) (state : Nat) (set : ItemSet) (earlier : List Item) (s : Symbol) :
    Action :=
  (t.asked state set earlier s).headD .invalid

/-- The row of a state while its complete items are written. -/
def row (t : TableInput) (state : Nat) (set : ItemSet) (earlier : List Item) : List Action :=
  t.alphabet.terminals.map (t.entry state set earlier)

/-- The conflict of a rule on a terminal with what was asked for before. -/
def cellConflict? (t : TableInput) (state : Nat) (set : ItemSet) (earlier : List Item) (item : Item)
    (s : Symbol) : Option Conflict :=
  (t.asked state set earlier s).head?.map fun existing => ⟨state, s, item.rule, existing⟩

theorem asked_append (t : TableInput) (state : Nat) (set : ItemSet) (earlier items : List Item)
    (s : Symbol) : t.asked state set (earlier ++ items) s =
      t.asked state set earlier s ++ t.reduceActions items s := by
  rw [asked, reduceActions_append, ← List.append_assoc, asked]

/-- An action that is asked for stands in the way of a rule that no earlier item is of. -/
theorem collides_of_mem_asked (hrule : item.rule ∉ earlier.map Item.rule) {a : Action}
    (ha : a ∈ t.asked state set earlier s) : a.collides item.rule = true := by
  rcases List.mem_append.1 ha with ha | ha
  · unfold readActions at ha
    split at ha
    · rw [List.mem_singleton.1 ha]
      rfl
    · split at ha
      · rw [List.mem_singleton.1 ha]
        rfl
      · cases ha
  · obtain ⟨other, hother, rfl⟩ := List.mem_map.1 ha
    have hne : other.rule ≠ item.rule := fun heq =>
      hrule (List.mem_map.2 ⟨other, (List.mem_filter.1 hother).1, heq⟩)
    simp [Action.collides, hne]

theorem headD_readActions (t : TableInput) (state : Nat) (set : ItemSet) (s : Symbol) :
    (t.readActions state set s).headD .invalid =
      if s = endToken ∧ set.any (fun i => nextSymbol? t.rules i == some endToken) = true then
        .accept
      else t.shiftEntry state s := by
  rw [readActions, shiftEntry]
  by_cases hend : s = endToken ∧ set.any (fun i => nextSymbol? t.rules i == some endToken) = true
  · rw [if_pos hend, if_pos (by simpa using hend)]
    rfl
  · rw [if_neg hend, if_neg (by simpa using hend)]
    cases t.automaton.next? state s with
    | none => rfl
    | some next => rfl

/-- The first two passes leave what a state does without a reduction. -/
theorem acceptRow_shiftRow (hnodup : t.alphabet.terminals.Nodup)
    (hend : t.alphabet.terminals[endId]? = some endToken) :
    t.acceptRow set (t.shiftRow state) = t.row state set [] := by
  have hentry : t.entry state set [] = fun s => (t.readActions state set s).headD .invalid := by
    funext s
    rw [entry, asked, reduceActions, List.filter_nil, List.map_nil, List.append_nil]
  refine List.ext_getElem? fun id => ?_
  rw [row, hentry, List.getElem?_map]
  by_cases hany : set.any (fun i => nextSymbol? t.rules i == some endToken) = true
  · rw [acceptRow, if_pos hany, List.getElem?_set, shiftRow, List.getElem?_map, List.length_map]
    by_cases hid : endId = id
    · subst hid
      rw [if_pos rfl, if_pos (List.getElem?_eq_some_iff.1 hend).1, hend, Option.map_some,
        headD_readActions, if_pos ⟨rfl, hany⟩]
    · rw [if_neg hid]
      refine Option.map_congr fun s hs => ?_
      rw [headD_readActions, if_neg]
      rintro ⟨rfl, -⟩
      exact hid (eq_of_getElem?_of_nodup hnodup hend hs)
  · rw [acceptRow, if_neg hany, shiftRow, List.getElem?_map]
    refine Option.map_congr fun s _ => ?_
    rw [headD_readActions, if_neg fun h => hany h.2]

/-- A cell is written unless there is a conflict. -/
theorem reduceCell_eq (hrule : item.rule ∉ earlier.map Item.rule) {row : List Action} {id : Nat}
    (hcell : row[id]? = some (t.entry state set earlier s)) :
    t.reduceCell state item row (s, id) =
      if s ∈ t.followOf item.rule then
        (t.cellConflict? state set earlier item s).elim
          (.ok (row.set id (t.entry state set (earlier ++ [item]) s))) .error
      else .ok (row.set id (t.entry state set (earlier ++ [item]) s)) := by
  have hreduce : t.reduceActions [item] s =
      if s ∈ t.followOf item.rule then [.reduce item.rule] else [] := by
    unfold reduceActions
    split
    · next hs => simp [hs]
    · next hs => simp [hs]
  rw [entry] at hcell
  rw [reduceCell, entry, asked_append, hreduce, cellConflict?, hcell]
  split
  · -- the cell is free exactly if nothing was asked for, since whatever was asked for collides
    cases hasked : t.asked state set earlier s with
    | nil => rfl
    | cons existing rest =>
        have hcollides := collides_of_mem_asked hrule (hasked ▸ List.mem_cons_self ..)
        simp only [List.headD_cons, Option.getD_some, hcollides, if_true, List.head?_cons,
          Option.map_some, Option.elim_some]
  · -- the item asks for nothing here, so the cell holds already what it has to hold
    obtain ⟨hid, hvalue⟩ := List.getElem?_eq_some_iff.1 hcell
    rw [List.append_nil, ← hvalue, List.set_getElem_self]

/-- The cells of an item are written from left to right: those behind still hold what they
    held before. -/
theorem foldlM_reduceCell (hrule : item.rule ∉ earlier.map Item.rule) (before after : List Symbol) :
    (after.zipIdx before.length).foldlM (t.reduceCell state item)
        (before.map (t.entry state set (earlier ++ [item])) ++
          after.map (t.entry state set earlier)) =
      ((after.filter fun s => s ∈ t.followOf item.rule).findSome?
        (t.cellConflict? state set earlier item)).elim
          (.ok ((before ++ after).map (t.entry state set (earlier ++ [item])))) .error := by
  induction after generalizing before with
  | nil => simp [pure, Except.pure]
  | cons s after ih =>
      have hcell : (before.map (t.entry state set (earlier ++ [item])) ++
          (s :: after).map (t.entry state set earlier))[before.length]? =
            some (t.entry state set earlier s) := by
        simp
      have hset : (before.map (t.entry state set (earlier ++ [item])) ++
          (s :: after).map (t.entry state set earlier)).set before.length
            (t.entry state set (earlier ++ [item]) s) =
          (before ++ [s]).map (t.entry state set (earlier ++ [item])) ++
            after.map (t.entry state set earlier) := by
        simp
      have hrest := ih (before ++ [s])
      rw [List.length_append, List.length_singleton, List.append_assoc, List.singleton_append]
        at hrest
      rw [List.zipIdx_cons, List.foldlM_cons, reduceCell_eq hrule hcell, hset]
      -- the first conflict among the terminals that can follow is that of this cell or a later one
      by_cases hs : s ∈ t.followOf item.rule
      · rw [if_pos hs, List.filter_cons_of_pos (by simpa using hs), List.findSome?_cons]
        cases hconflict : t.cellConflict? state set earlier item s with
        | some c => rfl
        | none => exact hrest
      · rw [if_neg hs, List.filter_cons_of_neg (by simpa using hs)]
        exact hrest

theorem reduceItem_row (hrule : item.rule ∉ earlier.map Item.rule) :
    t.reduceItem state (t.row state set earlier) item =
      (t.itemConflict? state set earlier item).elim (.ok (t.row state set (earlier ++ [item])))
        .error :=
  foldlM_reduceCell hrule [] t.alphabet.terminals

/-- Complete items of different rules are written one after the other up to the first conflict. -/
theorem foldlM_reduceItem (hrules : ((earlier ++ items).map Item.rule).Nodup) :
    items.foldlM (t.reduceItem state) (t.row state set earlier) =
      (t.itemsConflict? state set earlier items).elim (.ok (t.row state set (earlier ++ items)))
        .error := by
  induction items generalizing earlier with
  | nil =>
      rw [List.append_nil]
      rfl
  | cons item items ih =>
      have hrule : item.rule ∉ earlier.map Item.rule := by
        rw [List.map_append, List.nodup_append] at hrules
        intro hmem
        exact hrules.2.2 item.rule hmem item.rule (List.mem_cons_self ..) rfl
      rw [List.foldlM_cons, reduceItem_row hrule, itemsConflict?]
      cases hconflict : t.itemConflict? state set earlier item with
      | some c => rfl
      | none =>
          have hrest := @ih (earlier ++ [item]) (by simpa using hrules)
          rw [List.append_assoc, List.singleton_append] at hrest
          exact hrest

theorem reduceRow_row (hrules : ((t.completeItems set).map Item.rule).Nodup) :
    t.reduceRow state set (t.row state set []) =
      (t.itemsConflict? state set [] (t.completeItems set)).elim
        (.ok (t.alphabet.terminals.map fun s => (t.actionsAt state set s).headD .invalid))
        .error := by
  rw [reduceRow, ← List.foldlM_filter]
  exact foldlM_reduceItem hrules

/-! ## The table -/

/-- Rows that are written one after the other, up to the first one with a conflict. -/
theorem mapM_eq {α β ε : Type} {f : α → Except ε β} {conflict? : α → Option ε} {g : α → β}
    {l : List α} (h : ∀ a ∈ l, f a = (conflict? a).elim (.ok (g a)) .error) :
    l.mapM f = (l.findSome? conflict?).elim (.ok (l.map g)) .error := by
  induction l with
  | nil => rfl
  | cons a l ih =>
      obtain ⟨ha, hl⟩ := List.forall_mem_cons.1 h
      rw [List.mapM_cons, ha, List.findSome?_cons]
      cases conflict? a with
      | some c => rfl
      | none =>
          rw [ih hl]
          cases l.findSome? conflict? with
          | some c => rfl
          | none => rfl

/-- The passes write the table of the actions that the states ask for, unless there is a
    conflict; then the third one ends with the first conflict. -/
theorem writeTable_eq (hnodup : t.alphabet.terminals.Nodup)
    (hend : t.alphabet.terminals[endId]? = some endToken)
    (hrules : ∀ set ∈ t.automaton.sets, ((t.completeItems set).map Item.rule).Nodup) :
    t.writeTable = t.conflict?.elim (.ok t.actionTable) .error := by
  have haccepts : List.zipWith t.acceptRow t.automaton.sets
      (t.automaton.sets.zipIdx.map fun s => t.shiftRow s.2) =
        t.automaton.sets.zipIdx.map fun s => t.row s.2 s.1 [] := by
    calc List.zipWith t.acceptRow t.automaton.sets
          (t.automaton.sets.zipIdx.map fun s => t.shiftRow s.2)
        = List.zipWith t.acceptRow (t.automaton.sets.zipIdx.map Prod.fst)
            (t.automaton.sets.zipIdx.map fun s => t.shiftRow s.2) := by rw [List.zipIdx_map_fst]
      _ = t.automaton.sets.zipIdx.map fun s => t.acceptRow s.1 (t.shiftRow s.2) := by
            rw [List.zipWith_map, List.zipWith_self]
      _ = t.automaton.sets.zipIdx.map fun s => t.row s.2 s.1 [] :=
            List.map_congr_left fun s _ => acceptRow_shiftRow hnodup hend
  have hzip : t.automaton.sets.zipIdx.zip (t.automaton.sets.zipIdx.map fun s => t.row s.2 s.1 []) =
      t.automaton.sets.zipIdx.map fun s => (s, t.row s.2 s.1 []) := by
    rw [List.zip_eq_zipWith, List.zipWith_map_right, List.zipWith_self]
  rw [writeTable, haccepts, hzip, List.mapM_map]
  exact mapM_eq fun s hs => reduceRow_row (hrules s.1 (List.fst_mem_of_mem_zipIdx hs))

/-- The table of a compiled grammar is the one that the passes write, and the conflict with which
    others are refused the one that ends them. -/
theorem writeTable_of_tabulate {start : Symbol} {rules : List Rule}
    (hplaced : (Alphabet.ofRules rules).misplaced? = none) :
    (tabulate start rules (Alphabet.ofRules rules)).1 =
      match (TableInput.ofRules rules (Alphabet.ofRules rules)).writeTable with
      | .error c => .error (.conflict c.state c.terminal c.rule c.existing)
      | .ok actions =>
        .ok { Compiled.ofRules start rules (Alphabet.ofRules rules) with actions := actions } := by
  rw [writeTable_eq (t := TableInput.ofRules rules (Alphabet.ofRules rules))
    (Alphabet.nodup_terminals_ofRules rules) (Alphabet.getElem?_endId hplaced)
    fun set hset => nodup_rules_completeItems hset]
  cases hconflict : (TableInput.ofRules rules (Alphabet.ofRules rules)).conflict? with
  | some c => exact tabulate_error_iff.2 ⟨c, hconflict, rfl⟩
  | none => exact tabulate_ok_iff.2 ⟨hconflict, rfl⟩

end TableInput

end ParseBench.Grammar
