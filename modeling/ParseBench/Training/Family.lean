/-
  ParseBench.Training.Family

  Problems and models come in two families that are told apart by the beginning
  of their names. A problem of one family cannot be used with a model of the
  other.
-/

import ParseBench.Error

namespace ParseBench

/-- How the names of one family begin. -/
structure Family where
  problemLead : String := "semantic_parsing"
  modelLead : String := "luinet"
  deriving DecidableEq, Repr, Inhabited

namespace Family

/-- Does the problem belong to the family? -/
def hasProblem (f : Family) (problem : String) : Bool :=
  Text.startsWith problem f.problemLead

/-- Does the model belong to the family? -/
def hasModel (f : Family) (model : String) : Bool :=
  Text.startsWith model f.modelLead

/-- Accepts a problem and a model if both belong to the family or neither does. -/
def check (f : Family) (problem model : String) : Except Error Unit :=
  if f.hasProblem problem = f.hasModel model then .ok ()
  else .error (Cause.familyMismatch problem model (f.hasProblem problem) (f.hasModel model))

end Family

end ParseBench
