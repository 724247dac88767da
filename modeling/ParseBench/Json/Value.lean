/-
  ParseBench.Json.Value

  JSON values. The fields of an object keep the order in which they were given,
  and no two of them have one name.
-/

namespace ParseBench

/-- A JSON number: a whole number of 64 bits, or a binary floating point number. -/
inductive Json.Number where
  | natural (n : Nat)
  /-- The whole number below zero with the given size. -/
  | negative (size : Nat)
  | real (x : Float)
  deriving Inhabited

/-- A JSON value. -/
inductive Json where
  | null
  | bool (b : Bool)
  | number (n : Json.Number)
  | string (s : String)
  | array (items : List Json)
  | object (fields : List (String × Json))
  deriving Inhabited

namespace Json

/-! ## Fields -/

/-- The value of a field. -/
def get? (name : String) (fields : List (String × Json)) : Option Json :=
  fields.lookup name

/-- The fields with `name` bound to `value`: at its place if it is there, else at the end. -/
def put (name : String) (value : Json) : List (String × Json) → List (String × Json)
  | [] => [(name, value)]
  | (k, v) :: rest => if name = k then (k, value) :: rest else (k, v) :: put name value rest

/-- The fields that a list of bindings gives: each name at its first place with its last
    value. -/
def fieldsOf (bindings : List (String × Json)) : List (String × Json) :=
  bindings.foldl (fun fields b => put b.1 b.2 fields) []

@[simp] theorem get?_nil (name : String) : get? name [] = none := rfl

theorem get?_cons (name k : String) (v : Json) (rest : List (String × Json)) :
    get? name ((k, v) :: rest) = if name = k then some v else get? name rest := by
  by_cases h : name = k
  · subst h; simp [get?]
  · have : (name == k) = false := by simpa using h
    simp [get?, List.lookup_cons, this, h]

theorem get?_put (name other : String) (value : Json) (fields : List (String × Json)) :
    get? other (put name value fields) = if other = name then some value else get? other fields := by
  induction fields with
  | nil => simp [put, get?_cons]
  | cons field rest ih =>
    obtain ⟨k, v⟩ := field
    by_cases hk : name = k
    · subst hk
      by_cases h : other = name <;> simp [put, get?_cons, h]
    · by_cases h : other = k
      · subst h
        have : ¬ other = name := fun e => hk e.symm
        simp [put, get?_cons, hk, this]
      · simp [put, get?_cons, hk, h, ih]

/-! ## Shapes -/

/-- The text of a string value. -/
def asString? : Json → Option String
  | .string s => some s
  | _ => none

/-- The value of a truth value. -/
def asBool? : Json → Option Bool
  | .bool b => some b
  | _ => none

/-- A whole number that is not negative. -/
def asNat? : Json → Option Nat
  | .number (.natural n) => some n
  | _ => none

/-- Any number, as a floating point number. -/
def asFloat? : Json → Option Float
  | .number (.natural n) => some (Float.ofNat n)
  | .number (.negative size) => some (-(Float.ofNat size))
  | .number (.real x) => some x
  | _ => none

/-- `null`, or what `read` makes of the value. -/
def optional? {α : Type} (read : Json → Option α) : Json → Option (Option α)
  | .null => some none
  | j => (read j).map some

/-- The items of an array, each as `read` makes of it. -/
def list? {α : Type} (read : Json → Option α) : Json → Option (List α)
  | .array items => items.mapM read
  | _ => none

/-! ## Records -/

/-- The fields of a record by name. A record is an object, in which unknown names mean
    nothing, or an array with the fields in the order of `names`, which may end early. -/
def record? (names : List String) : Json → Option (String → Option Json)
  | .object fields => some fun name => get? name fields
  | .array items =>
    if items.length ≤ names.length then
      some fun name => (names.idxOf? name).bind fun i => items[i]?
    else none
  | _ => none

/-- The field `name` of a record as `read` makes of it, or the default if it is absent. -/
def fieldOr {α : Type} (record : String → Option Json) (name : String) (read : Json → Option α)
    (default : α) : Option α :=
  match record name with
  | some j => read j
  | none => some default

end Json

end ParseBench
