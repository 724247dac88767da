/-
  ParseBench.Graph.Reach

  The nodes that are reachable in a finite graph, in breadth first order. One
  function serves all the closures of the grammar compiler: the terminals a
  non-terminal can begin with, the non-terminals whose followers it inherits,
  the closure of an item set and the collection of all item sets.
-/

namespace ParseBench.Graph

variable {α : Type} [DecidableEq α]

/-- The elements of a list that are not among `seen`, each once, in order of
    first appearance. -/
def unseen (seen : List α) : List α → List α
  | [] => []
  | a :: rest => if a ∈ seen then unseen seen rest else a :: unseen (a :: seen) rest

/-- Breadth first search with at most `bound` expansions: `seen` lists the nodes
    met so far in order and `pending` those of them still to be expanded. -/
def explore (next : α → List α) : Nat → List α → List α → List α
  | 0, seen, _ => seen
  | _ + 1, seen, [] => seen
  | bound + 1, seen, a :: pending =>
    explore next bound (seen ++ unseen seen (next a)) (pending ++ unseen seen (next a))

/-- The nodes reachable from `starts`, in breadth first order. `bound` is a number
    of nodes that the graph does not exceed: no node is expanded twice. -/
def reach (next : α → List α) (bound : Nat) (starts : List α) : List α :=
  explore next bound (unseen [] starts) (unseen [] starts)

/-! ## Unseen elements -/

@[simp] theorem unseen_nil (seen : List α) : unseen seen [] = [] := rfl

theorem mem_unseen {a : α} {seen l : List α} : a ∈ unseen seen l ↔ a ∈ l ∧ a ∉ seen := by
  induction l generalizing seen with
  | nil => simp
  | cons b l ih =>
    by_cases h : b ∈ seen
    · rw [unseen, if_pos h, ih]
      constructor
      · exact fun ⟨hl, hs⟩ => ⟨List.mem_cons_of_mem _ hl, hs⟩
      · rintro ⟨hl, hs⟩
        rcases List.mem_cons.1 hl with rfl | hl
        · exact absurd h hs
        · exact ⟨hl, hs⟩
    · rw [unseen, if_neg h, List.mem_cons, ih]
      constructor
      · rintro (rfl | ⟨hl, hs⟩)
        · exact ⟨List.mem_cons_self .., h⟩
        · exact ⟨List.mem_cons_of_mem _ hl, fun ha => hs (List.mem_cons_of_mem _ ha)⟩
      · rintro ⟨hl, hs⟩
        by_cases hab : a = b
        · exact .inl hab
        · refine .inr ⟨(List.mem_cons.1 hl).resolve_left hab, ?_⟩
          exact fun ha => (List.mem_cons.1 ha).elim hab hs

end ParseBench.Graph
