/-
  ParseBench.Proofs.Json.Fields

  Objects as tables from names to values. No object in a value that is read has two fields of
  one name (`Keyed`, `keyed_of_ofText?`), so an object is known by the order of its names and
  the value of each (`fields_ext`). `at?` goes down into a value along names.
-/

import Mathlib.Data.List.Nodup
import ParseBench.Json.Tree

namespace ParseBench.Json

variable {a b fields : List (String × Json)} {name : String} {v j : Json}

/-! ## The fields of an object -/

theorem get?_eq_none_iff : get? name fields = none ↔ name ∉ fields.map Prod.fst := by
  rw [get?, List.lookup_eq_none_iff]
  simp only [bne_iff_ne, List.mem_map, not_exists, not_and]
  exact ⟨fun h p hp heq => h p hp heq.symm, fun h p hp heq => h p hp heq.symm⟩

theorem mem_of_get? (h : get? name fields = some v) : (name, v) ∈ fields := by
  obtain ⟨before, after, hfields, -⟩ := List.lookup_eq_some_iff.1 h
  rw [hfields]
  exact List.mem_append_right _ List.mem_cons_self

theorem get?_of_mem (hnodup : (fields.map Prod.fst).Nodup) (h : (name, v) ∈ fields) :
    get? name fields = some v := by
  induction fields with
  | nil => cases h
  | cons field rest ih =>
      obtain ⟨k, w⟩ := field
      rw [List.map_cons, List.nodup_cons] at hnodup
      rw [get?_cons]
      rcases List.mem_cons.1 h with hfirst | hrest
      · cases hfirst
        exact if_pos rfl
      · have hne : name ≠ k := fun heq => hnodup.1 (heq ▸ List.mem_map.2 ⟨_, hrest, rfl⟩)
        rw [if_neg hne]
        exact ih hnodup.2 hrest

/-- Fields in one order, each with one value, are the same. -/
theorem fields_ext (hkeys : a.map Prod.fst = b.map Prod.fst) (hnodup : (a.map Prod.fst).Nodup)
    (h : ∀ name, get? name a = get? name b) : a = b := by
  induction a generalizing b with
  | nil => exact (List.map_eq_nil_iff.1 hkeys.symm).symm
  | cons field a ih =>
      obtain ⟨k, v⟩ := field
      cases b with
      | nil => cases hkeys
      | cons field' b =>
          obtain ⟨k', v'⟩ := field'
          rw [List.map_cons, List.map_cons, List.cons.injEq] at hkeys
          obtain ⟨hk, hkeys⟩ := hkeys
          obtain rfl : k = k' := hk
          rw [List.map_cons, List.nodup_cons] at hnodup
          obtain ⟨hnew, hnodup⟩ := hnodup
          have hv : v = v' := by simpa [get?_cons] using h k
          have hrest : ∀ name, get? name a = get? name b := by
            intro name
            by_cases hname : name = k
            · -- the name stands in front, so neither rest has it
              have hnone : get? name a = none := get?_eq_none_iff.2 (hname ▸ hnew)
              have hnone' : get? name b = none :=
                get?_eq_none_iff.2 (by rw [hname, ← hkeys]; exact hnew)
              rw [hnone, hnone']
            · simpa [get?_cons, hname] using h name
          rw [hv, ih hkeys hnodup hrest]

theorem keys_put (name : String) (value : Json) (fields : List (String × Json)) :
    (put name value fields).map Prod.fst =
      if name ∈ fields.map Prod.fst then fields.map Prod.fst
      else fields.map Prod.fst ++ [name] := by
  induction fields with
  | nil => simp [put]
  | cons field rest ih =>
      obtain ⟨k, v⟩ := field
      by_cases hk : name = k
      · simp [put, hk]
      · simp only [put, hk, if_false, List.map_cons, ih, List.mem_cons, false_or]
        split <;> rfl

theorem nodup_keys_put (h : (fields.map Prod.fst).Nodup) (name : String) (value : Json) :
    ((put name value fields).map Prod.fst).Nodup := by
  rw [keys_put]
  split
  · exact h
  · next hnew =>
      rw [List.nodup_append_comm]
      exact List.nodup_cons.2 ⟨hnew, h⟩

theorem mem_put {field : String × Json} (h : field ∈ put name v fields) :
    field.2 = v ∨ field ∈ fields := by
  induction fields with
  | nil => exact .inl (congrArg Prod.snd (List.mem_singleton.1 h))
  | cons first rest ih =>
      obtain ⟨k, w⟩ := first
      unfold put at h
      split at h
      · rcases List.mem_cons.1 h with rfl | hrest
        · exact .inl rfl
        · exact .inr (List.mem_cons_of_mem _ hrest)
      · rcases List.mem_cons.1 h with rfl | hrest
        · exact .inr List.mem_cons_self
        · exact (ih hrest).imp_right (List.mem_cons_of_mem _)

/-! ## Values that are read -/

/-- Is the value an object? -/
def isObject : Json → Bool
  | .object _ => true
  | _ => false

theorem isObject_iff : j.isObject = true ↔ ∃ fields, j = .object fields := by
  cases j <;> simp [isObject]

/-- No object in the value has two fields of one name. What stands in arrays does not matter,
    because values are merged and looked up along the names of fields only. -/
inductive Keyed : Json → Prop
  | object {fields : List (String × Json)} (nodup : (fields.map Prod.fst).Nodup)
      (values : ∀ field ∈ fields, Keyed field.2) : Keyed (.object fields)
  | other {j : Json} (h : j.isObject = false) : Keyed j

theorem Keyed.nodup (h : (Json.object fields).Keyed) : (fields.map Prod.fst).Nodup := by
  cases h with
  | object nodup _ => exact nodup
  | other hother => cases hother

theorem Keyed.of_get? (h : (Json.object fields).Keyed) (hv : get? name fields = some v) :
    v.Keyed := by
  cases h with
  | object _ values => exact values _ (mem_of_get? hv)
  | other hother => cases hother

theorem nodup_keys_fieldsOf (bindings : List (String × Json)) :
    ((fieldsOf bindings).map Prod.fst).Nodup := by
  suffices h : ∀ fields : List (String × Json), (fields.map Prod.fst).Nodup →
      ((bindings.foldl (fun fields b => put b.1 b.2 fields) fields).map Prod.fst).Nodup from
    h [] List.nodup_nil
  induction bindings with
  | nil => exact fun _ h => h
  | cons b rest ih => exact fun fields hfields => ih _ (nodup_keys_put hfields _ _)

/-- The values of an object are among those that were bound. -/
theorem mem_fieldsOf {bindings : List (String × Json)} {field : String × Json}
    (h : field ∈ fieldsOf bindings) : ∃ b ∈ bindings, field.2 = b.2 := by
  suffices hfold : ∀ fields : List (String × Json),
      field ∈ bindings.foldl (fun fields b => put b.1 b.2 fields) fields →
        field ∈ fields ∨ ∃ b ∈ bindings, field.2 = b.2 from
    (hfold [] h).resolve_left List.not_mem_nil
  clear h
  induction bindings with
  | nil => exact fun _ h => .inl h
  | cons b rest ih =>
      intro fields hfold
      rcases ih _ hfold with hput | ⟨b', hb', hvalue⟩
      · rcases mem_put hput with hnew | hold
        · exact .inr ⟨b, List.mem_cons_self, hnew⟩
        · exact .inl hold
      · exact .inr ⟨b', List.mem_cons_of_mem _ hb', hvalue⟩

theorem keyed_fieldsOf {bindings : List (String × Json)} (h : ∀ b ∈ bindings, b.2.Keyed) :
    (object (fieldsOf bindings)).Keyed := by
  refine .object (nodup_keys_fieldsOf bindings) fun field hfield => ?_
  obtain ⟨b, hb, hvalue⟩ := mem_fieldsOf hfield
  rw [hvalue]
  exact h b hb

mutual

theorem keyed_of_value? : ∀ {depth : Nat} {t : Tree} {j : Json}, t.value? depth = some j → j.Keyed
  | _, .null, _, h => by
      cases h
      exact .other rfl
  | _, .bool _, _, h => by
      cases h
      exact .other rfl
  | _, .number _, _, h => by
      obtain ⟨_, -, rfl⟩ := Option.map_eq_some_iff.1 h
      exact .other rfl
  | _, .string _, _, h => by
      obtain ⟨_, -, rfl⟩ := Option.map_eq_some_iff.1 h
      exact .other rfl
  | depth, .array items, _, h => by
      rw [Tree.value?] at h
      split at h
      · cases h
      · obtain ⟨_, -, rfl⟩ := Option.map_eq_some_iff.1 h
        exact .other rfl
  | depth, .object members, _, h => by
      rw [Tree.value?] at h
      split at h
      · cases h
      · obtain ⟨bindings, hbindings, rfl⟩ := Option.map_eq_some_iff.1 h
        exact keyed_fieldsOf (keyed_of_bindings? hbindings)

theorem keyed_of_bindings? : ∀ {depth : Nat} {members : List (Option String × Tree)}
    {bindings : List (String × Json)}, Tree.bindings? depth members = some bindings →
      ∀ b ∈ bindings, b.2.Keyed
  | _, [], _, h => by
      cases h
      exact nofun
  | depth, (name, t) :: rest, _, h => by
      simp only [Tree.bindings?, Option.bind_eq_bind, Option.bind_eq_some_iff, Option.pure_def,
        Option.some.injEq] at h
      obtain ⟨_, -, j, hj, later, hlater, rfl⟩ := h
      exact List.forall_mem_cons.2 ⟨keyed_of_value? hj, keyed_of_bindings? hlater⟩

end

theorem keyed_of_ofText? {json : Reader} {text : String} (h : ofText? json text = some j) :
    j.Keyed := by
  simp only [ofText?, Option.bind_eq_bind, Option.bind_eq_some_iff] at h
  obtain ⟨t, -, hvalue⟩ := h
  exact keyed_of_value? hvalue

/-! ## Going down -/

/-- The value to which the names of fields lead, if there is one. -/
def at? : List String → Json → Option Json
  | [], j => some j
  | name :: path, .object fields => (get? name fields).bind (at? path)
  | _ :: _, _ => none

@[simp] theorem at?_nil (j : Json) : at? [] j = some j := by
  cases j <;> rfl

theorem at?_cons_object (name : String) (path : List String) (fields : List (String × Json)) :
    at? (name :: path) (.object fields) = (get? name fields).bind (at? path) := rfl

@[simp] theorem at?_singleton (name : String) (fields : List (String × Json)) :
    at? [name] (.object fields) = get? name fields := by
  rw [at?_cons_object]
  cases get? name fields with
  | none => rfl
  | some v => exact at?_nil v

theorem at?_cons_of_get? (h : get? name fields = some v) (path : List String) :
    at? (name :: path) (.object fields) = at? path v := by
  rw [at?_cons_object, h, Option.bind_some]

end ParseBench.Json
