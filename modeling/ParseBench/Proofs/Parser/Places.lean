/-
  ParseBench.Proofs.Parser.Places

  The listing from the root down by the places of the reductions. Of every reduction the length of
  its subtree and the places of its children are kept; the children are found from right to left,
  the last one directly before the reduction and each further one before the subtree of the one
  to its right (`gather`). Then the nodes are visited with a stack, from the last reduction on
  (`walk`).

  At any time the nodes so far are the trees that are not yet under a node, one behind the other
  (`Laid`). A reduction finds fewer trees than it needs in both ways of listing or in neither,
  and otherwise puts the same ones under it (`Laid.addNode`). So both ways agree, on any tables
  (`parseDownByPlaces_eq`).
-/

import ParseBench.Grammar.Parser

namespace ParseBench.Grammar.Parser

/-! ## The nodes -/

/-- What is kept of a reduction. -/
structure Node where
  rule : Nat
  /-- The number of reductions in its subtree, with itself. -/
  length : Nat
  /-- The places of the subtrees of its non-terminals, from left to right. -/
  children : List Nat
  deriving DecidableEq, Repr

/-- The children found so far, from right to left, with the length of their subtrees and of the
    node. -/
structure Gathered where
  /-- The place of the next child, or -1 if there is none. -/
  current : Int
  length : Nat
  children : List Nat
  deriving DecidableEq, Repr

/-- Finds the child for a symbol. A terminal has none. -/
def gather (nodes : List Node) (g : Gathered) (s : Symbol) : Option Gathered :=
  if !isNonterminal s then some g
  else if g.current < 0 then none
  else do
    let child := g.current.toNat
    let node ← nodes[child]?
    some ⟨g.current - node.length, g.length + node.length, child :: g.children⟩

/-- Adds a reduction to the nodes. -/
def addNode (p : Parser) (nodes : List Node) (rule : Nat) : Option (List Node) := do
  let r ← p.rules[rule]?
  let g ← r.rhs.reverse.foldlM (gather nodes) ⟨nodes.length - 1, 1, []⟩
  some (nodes ++ [⟨rule, g.length, g.children⟩])

/-- Writes down the rules of the nodes on a stack, each before those under it, at most `bound`
    turns; `none` if they do not suffice. -/
def walk (nodes : List Node) : Nat → List Nat → List Nat → Option (List Nat)
  | 0, _, _ => none
  | _ + 1, [], out => some out
  | bound + 1, place :: stack, out => do
    let node ← nodes[place]?
    walk nodes bound (node.children ++ stack) (out ++ [node.rule])

/-- The rules of a token list's tree from the root down, by their places. -/
def parseDownByPlaces (p : Parser) (tokens : List Token) : Except GrammarError (List Nat) := do
  let steps ← p.parse tokens
  match (reductions steps).foldlM p.addNode [] with
  | none | some [] => .error .invalidSequence
  | some nodes =>
    -- each node takes a turn, and the empty stack another one
    match walk nodes (nodes.length + 1) [nodes.length - 1] [] with
    | none => .error .invalidSequence
    | some listing => .ok listing

/-! ## Trees one behind the other -/

/-- The subtrees of the nodes at the places have the listing, one after the other. -/
inductive Lists (nodes : List Node) : List Nat → List Nat → Prop
  | nil : Lists nodes [] []
  | cons {place rule : Nat} {children under places rest : List Nat}
      (hnode : nodes[place]? = some ⟨rule, 1 + under.length, children⟩)
      (hunder : Lists nodes children under) (hrest : Lists nodes places rest) :
      Lists nodes (place :: places) (rule :: (under ++ rest))

/-- The nodes up to a place are those of trees with the listings, the last one first. The root
    of a tree is its last node. -/
inductive Laid (nodes : List Node) : Nat → List (List Nat) → Prop
  | nil : Laid nodes 0 []
  | cons {before : Nat} {listing : List Nat} {forest : List (List Nat)}
      (hroot : Lists nodes [before + listing.length - 1] listing) (h : Laid nodes before forest) :
      Laid nodes (before + listing.length) (listing :: forest)

variable {p : Parser} {nodes : List Node} {upTo place : Nat} {places listing rest : List Nat}
  {forest : List (List Nat)}

theorem Lists.exists_node (h : Lists nodes [place] listing) :
    ∃ rule children under, listing = rule :: under ∧
      nodes[place]? = some ⟨rule, listing.length, children⟩ ∧ Lists nodes children under := by
  cases h with
  | @cons _ rule children under _ _ hnode hunder hrest =>
      cases hrest
      rw [List.append_nil]
      exact ⟨rule, children, under, rfl, by rw [hnode, List.length_cons, Nat.add_comm], hunder⟩

theorem Lists.append_cons (h : Lists nodes [place] listing) (hrest : Lists nodes places rest) :
    Lists nodes (place :: places) (listing ++ rest) := by
  obtain ⟨rule, children, under, rfl, hnode, hunder⟩ := h.exists_node
  exact .cons (by rw [hnode, List.length_cons, Nat.add_comm]) hunder hrest

/-- A further node changes nothing about the nodes before it. -/
theorem Lists.concat (h : Lists nodes places listing) (node : Node) :
    Lists (nodes ++ [node]) places listing := by
  induction h with
  | nil => exact .nil
  | cons hnode _ _ ihunder ihrest =>
      refine .cons ?_ ihunder ihrest
      rw [List.getElem?_append_left (List.getElem?_eq_some_iff.1 hnode).1, hnode]

theorem Laid.concat (h : Laid nodes upTo forest) (node : Node) :
    Laid (nodes ++ [node]) upTo forest := by
  induction h with
  | nil => exact .nil
  | cons hroot _ ih => exact .cons (hroot.concat node) ih

/-! ## Finding the children -/

theorem gather_terminal (g : Gathered) {s : Symbol} (hs : isNonterminal s = false) :
    gather nodes g s = some g := by
  rw [gather, hs]
  rfl

/-- The root of the last tree is a child. -/
theorem gather_nonterminal {before length : Nat} {s : Symbol} (hs : isNonterminal s = true)
    (hroot : Lists nodes [before + listing.length - 1] listing) :
    gather nodes ⟨(before + listing.length : Nat) - 1, length, places⟩ s =
      some ⟨before - 1, length + listing.length, (before + listing.length - 1) :: places⟩ := by
  obtain ⟨rule, children, under, hlisting, hnode, -⟩ := hroot.exists_node
  have hpos : 0 < listing.length := by simp [hlisting]
  have hcurrent : ¬ ((before + listing.length : Nat) : Int) - 1 < 0 := by omega
  have hplace : (((before + listing.length : Nat) : Int) - 1).toNat =
      before + listing.length - 1 := by omega
  have hnext : ((before + listing.length : Nat) : Int) - 1 - listing.length = before - 1 := by
    omega
  rw [gather, hs]
  simp only [Bool.not_true, Bool.false_eq_true, if_false, hcurrent, hplace, hnode, hnext,
    Option.bind_eq_bind, Option.bind_some]

/-- No tree is left for a non-terminal. -/
theorem gather_none {length : Nat} {s : Symbol} (hs : isNonterminal s = true) :
    gather nodes ⟨(0 : Nat) - 1, length, places⟩ s = none := by
  rw [gather, hs]
  rfl

theorem childCount_cons (s : Symbol) (symbols : List Symbol) :
    childCount (s :: symbols) = (if isNonterminal s then 1 else 0) + childCount symbols := by
  unfold childCount
  rw [List.filter_cons]
  split
  · exact Nat.add_comm ..
  · exact (Nat.zero_add _).symm

theorem childCount_reverse (symbols : List Symbol) :
    childCount symbols.reverse = childCount symbols := by
  unfold childCount
  rw [List.filter_reverse, List.length_reverse]

/-- There are fewer trees than non-terminals. -/
theorem Laid.gather_eq_none (h : Laid nodes upTo forest) {symbols : List Symbol} {length : Nat}
    (hfew : forest.length < childCount symbols) :
    symbols.foldlM (gather nodes) ⟨upTo - 1, length, places⟩ = none := by
  induction symbols generalizing upTo forest length places with
  | nil => cases hfew
  | cons s symbols ih =>
      rw [childCount_cons] at hfew
      rw [List.foldlM_cons]
      cases hs : isNonterminal s with
      | false =>
          rw [hs, if_neg Bool.false_ne_true, Nat.zero_add] at hfew
          rw [gather_terminal _ hs]
          exact ih h hfew
      | true =>
          rw [hs, if_pos rfl] at hfew
          cases h with
          | nil =>
              rw [gather_none hs]
              rfl
          | cons hroot h =>
              rw [List.length_cons] at hfew
              rw [gather_nonterminal hs hroot]
              exact ih h (by omega)

/-- The last trees are taken, one for each non-terminal. The children are the roots of these
    trees, and to the right of them those found before (`places`). -/
theorem Laid.exists_gather (h : Laid nodes upTo forest) (hrest : Lists nodes places rest)
    {symbols : List Symbol} (length : Nat) (henough : childCount symbols ≤ forest.length) :
    ∃ (before : Nat) (children taken : List Nat),
      taken = (forest.take (childCount symbols)).reverse.flatten ∧
      symbols.foldlM (gather nodes) ⟨upTo - 1, length, places⟩ =
        some ⟨before - 1, length + taken.length, children⟩ ∧
      Lists nodes children (taken ++ rest) ∧
      Laid nodes before (forest.drop (childCount symbols)) ∧ upTo = before + taken.length := by
  -- on the symbols, which are read from right to left like the trees: a non-terminal takes the last
  -- tree, and the next one ends where that tree begins
  induction symbols generalizing upTo forest length places rest with
  | nil => exact ⟨upTo, places, [], rfl, rfl, hrest, h, rfl⟩
  | cons s symbols ih =>
      rw [childCount_cons] at henough ⊢
      rw [List.foldlM_cons]
      cases hs : isNonterminal s with
      | false =>
          rw [hs, if_neg Bool.false_ne_true, Nat.zero_add] at henough
          rw [gather_terminal _ hs, if_neg Bool.false_ne_true, Nat.zero_add]
          exact ih h hrest length henough
      | true =>
          rw [hs, if_pos rfl] at henough
          cases h with
          | nil =>
              rw [List.length_nil] at henough
              omega
          | @cons between listing forest hroot h =>
              rw [List.length_cons, Nat.add_comm, Nat.add_le_add_iff_right] at henough
              obtain ⟨before, children, taken, htaken, hfold, hchildren, hbefore, hupTo⟩ :=
                ih h (hroot.append_cons hrest) (length + listing.length) henough
              rw [gather_nonterminal hs hroot, if_pos rfl, Nat.add_comm 1, List.take_succ_cons,
                List.drop_succ_cons]
              refine ⟨before, children, taken ++ listing, ?_, ?_, ?_, hbefore, ?_⟩
              · rw [List.reverse_cons, List.flatten_append, List.flatten_singleton, htaken]
              · have hlength : length + (taken ++ listing).length =
                    length + listing.length + taken.length := by
                  rw [List.length_append]
                  omega
                rw [hlength]
                exact hfold
              · rw [List.append_assoc]
                exact hchildren
              · rw [List.length_append]
                omega

/-- A reduction puts the same trees under its rule in both ways of listing, and lacks one in both
    or in neither. -/
theorem Laid.addNode_cases (h : Laid nodes nodes.length forest) (rule : Nat) :
    (p.addNode nodes rule = none ∧ p.listDown forest [rule] = .error .invalidSequence) ∨
      ∃ node forest', p.addNode nodes rule = some (nodes ++ [node]) ∧
        p.listDown forest [rule] = .ok forest' ∧
        Laid (nodes ++ [node]) (nodes ++ [node]).length forest' := by
  rw [listDown, addNode]
  cases p.rules[rule]? with
  | none => exact .inl ⟨rfl, rfl⟩
  | some r =>
      simp only [Option.bind_eq_bind, Option.bind_some]
      by_cases hfew : forest.length < childCount r.rhs
      · rw [if_pos hfew, h.gather_eq_none (by rwa [childCount_reverse])]
        exact .inl ⟨rfl, rfl⟩
      · have henough : childCount r.rhs.reverse ≤ forest.length := by
          rwa [childCount_reverse, ← Nat.not_lt]
        obtain ⟨before, children, taken, htaken, hfold, hchildren, hbefore, hlength⟩ :=
          h.exists_gather .nil 1 henough
        rw [childCount_reverse] at htaken hbefore
        rw [List.append_nil] at hchildren
        rw [if_neg hfew, hfold, ← htaken]
        refine .inr ⟨⟨rule, 1 + taken.length, children⟩, _, rfl, rfl, ?_⟩
        -- the new node is the last one, right behind the trees that are taken
        have hroot : Lists (nodes ++ [⟨rule, 1 + taken.length, children⟩])
            [before + (rule :: taken).length - 1] (rule :: taken) := by
          have hplace : before + (rule :: taken).length - 1 = nodes.length := by
            rw [List.length_cons]
            omega
          have hnode := Lists.cons (List.getElem?_concat_length ..)
            (hchildren.concat ⟨rule, 1 + taken.length, children⟩) .nil
          rwa [List.append_nil, ← hplace] at hnode
        have hlength' : (nodes ++ [(⟨rule, 1 + taken.length, children⟩ : Node)]).length =
            before + (rule :: taken).length := by
          rw [List.length_append, List.length_singleton, List.length_cons]
          omega
        rw [hlength']
        exact .cons hroot (hbefore.concat _)

theorem listDown_cons (p : Parser) (forest : List (List Nat)) (rule : Nat) (rules : List Nat) :
    p.listDown forest (rule :: rules) = (p.listDown forest [rule]).bind (p.listDown · rules) := by
  rw [listDown, listDown]
  cases p.rules[rule]? with
  | none => rfl
  | some r =>
      by_cases hfew : forest.length < childCount r.rhs
      · simp only [hfew, if_true]
        rfl
      · simp only [hfew, if_false]
        rfl

/-- All reductions. -/
theorem Laid.foldlM_addNode_cases (h : Laid nodes nodes.length forest) (rules : List Nat) :
    (rules.foldlM p.addNode nodes = none ∧ p.listDown forest rules = .error .invalidSequence) ∨
      ∃ nodes' forest', rules.foldlM p.addNode nodes = some nodes' ∧
        p.listDown forest rules = .ok forest' ∧ Laid nodes' nodes'.length forest' := by
  induction rules generalizing nodes forest with
  | nil => exact .inr ⟨nodes, forest, rfl, rfl, h⟩
  | cons rule rules ih =>
      rw [List.foldlM_cons, listDown_cons]
      obtain ⟨hnode, hlist⟩ | ⟨node, forest', hnode, hlist, h'⟩ := h.addNode_cases (p := p) rule
      · rw [hnode, hlist]
        exact .inl ⟨rfl, rfl⟩
      · rw [hnode, hlist]
        exact ih h'

/-! ## Visiting the nodes -/

/-- The nodes on top of the stack are visited with all that is under them. -/
theorem Lists.walk (h : Lists nodes places listing) (bound : Nat) (stack out : List Nat) :
    walk nodes (bound + listing.length) (places ++ stack) out =
      walk nodes bound stack (out ++ listing) := by
  -- a node takes one turn and puts its children on the stack, to be visited before the rest
  induction h generalizing bound stack out with
  | nil => rw [List.append_nil]; rfl
  | @cons place rule children under places rest hnode _ _ ihunder ihrest =>
      rw [List.length_cons, List.length_append, ← Nat.add_assoc, List.cons_append, Parser.walk,
        hnode, Option.bind_eq_bind, Option.bind_some, Nat.add_comm under.length, ← Nat.add_assoc,
        ihunder, ihrest, List.append_assoc, List.append_assoc, List.singleton_append]

/-- A visit that begins at the last node writes down the last tree. -/
theorem Laid.walk (h : Laid nodes nodes.length (listing :: forest)) :
    walk nodes (nodes.length + 1) [nodes.length - 1] [] = some listing := by
  generalize hlength : nodes.length = upTo at h
  cases h with
  | @cons before _ _ hroot h =>
      have hwalk := hroot.walk (before + 1) [] []
      rw [List.append_nil, Nat.add_right_comm] at hwalk
      exact hwalk

/-- Both ways give the same listing of a token list, and the same error. -/
theorem parseDownByPlaces_eq (p : Parser) (tokens : List Token) :
    p.parseDownByPlaces tokens = p.parseDown tokens := by
  rw [parseDownByPlaces, parseDown]
  cases p.parse tokens with
  | error e => rfl
  | ok steps =>
      simp only [bind, Except.bind]
      obtain ⟨hnodes, hlist⟩ | ⟨nodes, forest, hnodes, hlist, h⟩ :=
        Laid.foldlM_addNode_cases (p := p) (@Laid.nil []) (reductions steps)
      · rw [hnodes, hlist]
      · rw [hnodes, hlist]
        cases forest with
        | nil =>
            generalize hlength : nodes.length = upTo at h
            cases h
            rw [List.eq_nil_of_length_eq_zero hlength]
        | cons listing forest =>
            have hwalk := h.walk
            cases nodes with
            | nil => cases hwalk
            | cons node nodes => simp only [hwalk]

end ParseBench.Grammar.Parser
