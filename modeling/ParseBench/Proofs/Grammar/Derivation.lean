/-
  ParseBench.Proofs.Grammar.Derivation

  Derivations with the rules of a grammar: rows of symbols in which left-hand
  sides are replaced by right-hand sides, one at a time and in any order.
-/

import Mathlib.Logic.Relation
import ParseBench.Grammar.Basic

namespace ParseBench.Grammar

open Relation (ReflTransGen)

variable {rules : List Rule}

/-- Where a row falls into two parts, each of its symbols is in one of them. -/
theorem append_cons_cases {front back left right : List Symbol} {s : Symbol}
    (h : front ++ s :: back = left ++ right) :
    (∃ between, left = front ++ s :: between ∧ back = between ++ right) ∨
      ∃ between, front = left ++ between ∧ right = between ++ s :: back := by
  rcases List.append_eq_append_iff.1 h with ⟨between, rfl, hright⟩ | ⟨between, rfl, rfl⟩
  · cases between with
    | nil => exact .inr ⟨[], by simp, hright.symm⟩
    | cons x between =>
        rw [List.cons_append, List.cons.injEq] at hright
        obtain ⟨rfl, hback⟩ := hright
        exact .inl ⟨between, rfl, hback⟩
  · exact .inr ⟨between, rfl, rfl⟩

/-- One left-hand side in a row of symbols is replaced by its right-hand side. -/
inductive Rewrites (rules : List Rule) : List Symbol → List Symbol → Prop
  | intro {r : Rule} (hr : r ∈ rules) (before after : List Symbol) :
      Rewrites rules (before ++ r.lhs :: after) (before ++ (r.rhs ++ after))

/-- Left-hand sides are replaced again and again. -/
def Derives (rules : List Rule) : List Symbol → List Symbol → Prop := ReflTransGen (Rewrites rules)

theorem Rewrites.append_left {symbols symbols' : List Symbol} (h : Rewrites rules symbols symbols')
    (front : List Symbol) : Rewrites rules (front ++ symbols) (front ++ symbols') := by
  cases h with
  | intro hr before after =>
      rw [← List.append_assoc, ← List.append_assoc]
      exact .intro hr (front ++ before) after

theorem Rewrites.append_right {symbols symbols' : List Symbol} (h : Rewrites rules symbols symbols')
    (back : List Symbol) : Rewrites rules (symbols ++ back) (symbols' ++ back) := by
  cases h with
  | intro hr before after =>
      rw [List.append_assoc, List.cons_append, List.append_assoc, List.append_assoc]
      exact .intro hr before (after ++ back)

namespace Derives

variable {symbols symbols' more more' : List Symbol}

theorem refl (symbols : List Symbol) : Derives rules symbols symbols := ReflTransGen.refl

theorem trans {symbols'' : List Symbol} (h : Derives rules symbols symbols')
    (h' : Derives rules symbols' symbols'') : Derives rules symbols symbols'' :=
  ReflTransGen.trans h h'

theorem append_left (h : Derives rules symbols symbols') (front : List Symbol) :
    Derives rules (front ++ symbols) (front ++ symbols') :=
  ReflTransGen.lift (front ++ ·) (fun _ _ hstep => Rewrites.append_left hstep front) _ _ h

theorem append_right (h : Derives rules symbols symbols') (back : List Symbol) :
    Derives rules (symbols ++ back) (symbols' ++ back) :=
  ReflTransGen.lift (· ++ back) (fun _ _ hstep => Rewrites.append_right hstep back) _ _ h

theorem append (h : Derives rules symbols symbols') (h' : Derives rules more more') :
    Derives rules (symbols ++ more) (symbols' ++ more') :=
  (h.append_right more).trans (h'.append_left symbols')

/-- A rule replaces its left-hand side in any surroundings. -/
theorem rule {r : Rule} (hr : r ∈ rules) (before after : List Symbol) :
    Derives rules (before ++ r.lhs :: after) (before ++ (r.rhs ++ after)) :=
  ReflTransGen.single (.intro hr before after)

end Derives

end ParseBench.Grammar
