/-
  ParseBench.Stats.ParameterCount

  The parameters a program sets, inside and outside of filters. A filter begins
  at the keyword `filter` and ends at the next token that names a function or a
  device, or at a closing parenthesis. Where a device is selected, the
  parameters of its functions are counted once more on their own.
-/

import ParseBench.Program.Token

namespace ParseBench

/-- The numbers of parameters of a program. -/
structure ParameterCount where
  /-- Parameters outside of filters. -/
  totalParams : Nat := 0
  /-- Parameters inside of filters. -/
  totalFilters : Nat := 0
  /-- Those of the selected device outside of filters. -/
  params : Nat := 0
  /-- Those of the selected device inside of filters. -/
  filters : Nat := 0
  /-- Those of the selected device, in order. -/
  combination : List String := []
  deriving DecidableEq, Repr, Inhabited

namespace ParameterCount

/-- Where in a program a token stands. -/
structure Place where
  /-- Does the function before it belong to the selected device? -/
  inDevice : Bool
  /-- Is it in a filter? -/
  inFilter : Bool
  deriving DecidableEq, Repr

/-- The place before a program. Where no device is selected every token counts. -/
def Place.start (device : Option String) : Place :=
  ⟨device.isNone, false⟩

/-- The place with what a token says about the device: one that begins like the selected
    device's functions enters it, and any other function or device leaves it. -/
def Place.device (device : Option String) (token : String) (p : Place) : Place :=
  match device with
  | none => p
  | some lead =>
    if Text.startsWith token lead then { p with inDevice := true }
    else if Text.startsWith token "@" then { p with inDevice := false }
    else p

/-- The place with what a token says about filters. -/
def Place.filter (token : String) (p : Place) : Place :=
  if Text.startsWith token "@" || token == ")" then { p with inFilter := false }
  else if token == "filter" then { p with inFilter := true }
  else p

/-- The place after a token. -/
def Place.after (device : Option String) (token : String) (p : Place) : Place :=
  (p.device device token).filter token

/-- The parameters of a program with the place each stands in. -/
def placed (device : Option String) : Place → Program → List (String × Place)
  | _, [] => []
  | p, token :: rest =>
    let here := p.after device token
    if Program.isParameter token then (token, here) :: placed device here rest
    else placed device here rest

/-- The counts of parameters with their places. -/
def ofPlaced (parameters : List (String × Place)) : ParameterCount where
  totalParams := parameters.countP fun t => !t.2.inFilter
  totalFilters := parameters.countP fun t => t.2.inFilter
  params := parameters.countP fun t => t.2.inDevice && !t.2.inFilter
  filters := parameters.countP fun t => t.2.inDevice && t.2.inFilter
  combination := (parameters.filter fun t => t.2.inDevice).map (·.1)

/-- The counts of a program. The functions of the selected device begin with `device`. -/
def ofProgram (p : Program) (device : Option String) : ParameterCount :=
  ofPlaced (placed device (.start device) p)

end ParameterCount

end ParseBench
