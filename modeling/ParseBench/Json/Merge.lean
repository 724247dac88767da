/-
  ParseBench.Json.Merge

  Laying one JSON value over another. Where both are objects, every field of the
  overlay is laid over the field of the same name; anywhere else the overlay
  takes the place of the base.
-/

import ParseBench.Json.Value

namespace ParseBench.Json

mutual

/-- `base` with `overlay` laid over it. -/
def merge (base : Json) : (overlay : Json) → Json
  | .object overlay =>
    match base with
    | .object fields => .object (mergeFields fields overlay)
    | _ => .object overlay
  | overlay => overlay

/-- Fields with those of an overlay laid over them, one after the other. -/
def mergeFields (fields : List (String × Json)) : List (String × Json) → List (String × Json)
  | [] => fields
  | (name, overlay) :: rest =>
    let merged :=
      match get? name fields with
      | some base => merge base overlay
      | none => overlay
    mergeFields (put name merged fields) rest

end

/-- A value with layers laid over it, the last one on top. -/
def mergeAll (base : Json) (layers : List Json) : Json :=
  layers.foldl merge base

end ParseBench.Json
