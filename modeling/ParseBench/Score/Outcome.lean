/-
  ParseBench.Score.Outcome

  A decoded program against its gold program, at several levels of strictness:
  whether anything was decoded at all, then the number of functions, their
  order, the devices, the signature, and equality.
-/

import ParseBench.Program.Token

namespace ParseBench

/-- Which levels a decoded program passes. -/
structure Outcome where
  grammar : Bool := false
  functionCount : Bool := false
  device : Bool := false
  function : Bool := false
  signature : Bool := false
  full : Bool := false
  deriving DecidableEq, Repr, Inhabited

namespace Outcome

/-- The outcome of a decoded program. `same` says whether the two programs are equivalent.
    An empty program passes no level. -/
def judge (gold decoded : Program) (same : Bool) : Outcome :=
  if decoded.isEmpty then {}
  else
    { grammar := true
      functionCount := gold.functions.length == decoded.functions.length
      device := gold.devices == decoded.devices
      function := gold.functions == decoded.functions
      signature := gold.signature == decoded.signature
      full := same }

@[simp] theorem judge_nil (gold : Program) (same : Bool) : judge gold [] same = {} := rfl

end Outcome

end ParseBench
