/-
  ParseBench.Program.Kind

  The kinds of program encodings: the direction in which the rules of a program
  are listed, and whether function tokens are preceded by their device.
-/

import ParseBench.Grammar.Error

namespace ParseBench

/-- The order in which the rules of a program are listed. -/
inductive Direction where
  /-- As a shift-reduce parser applies them. -/
  | bottomUp
  /-- From the root down, each node before its children. -/
  | topDown
  deriving DecidableEq, Repr, Inhabited

/-- The name of a direction in reports. -/
def Direction.label : Direction → String
  | bottomUp => "BottomUp"
  | topDown => "TopDown"

/-- A kind of encoding. -/
structure Kind where
  direction : Direction
  splitDevice : Bool
  deriving DecidableEq, Repr, Inhabited

namespace Kind

/-- The direction that the first part of a kind's name stands for. -/
def direction? (name : String) : Option Direction :=
  if name ∈ ["bottomup", "bottom-up", "tt", "new-tt"] then some .bottomUp
  else if name ∈ ["topdown", "top-down", "reverse-tt"] then some .topDown
  else none

/-- The kind of a name: that of a direction, with `-split-device` after it where
    devices are split off. -/
def ofName? (name : String) : Except GrammarError Kind :=
  let (base, splitDevice) :=
    match Text.dropTail? "-split-device" name with
    | some base => (base, true)
    | none => (name, false)
  match direction? base with
  | some direction => .ok ⟨direction, splitDevice⟩
  | none => .error (.unknownGrammarType name)

end Kind

end ParseBench
