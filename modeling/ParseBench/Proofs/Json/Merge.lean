/-
  ParseBench.Proofs.Json.Merge

  The algebra of laying one value over another. An object that is laid over an object gives an
  object with the names of both (`keys_mergeFields`), and each name has the value of the one
  side that has it, or the value of the overlay laid over that of the base
  (`get?_mergeFields`). The laws follow from this one name at a time, by induction on the value
  on top: a value laid over itself (`merge_self`) or over another one twice
  (`merge_merge_self`), and layers that are merged among themselves first, unless a value that
  is no object comes between two objects (`Parts`, `merge_assoc`).
-/

import ParseBench.Json.Merge
import ParseBench.Proofs.Json.Fields

namespace ParseBench.Json

variable {base overlay fields : List (String × Json)} {a b c : Json}

/-! ## What is merged -/

@[simp] theorem merge_object (base overlay : List (String × Json)) :
    merge (.object base) (.object overlay) = .object (mergeFields base overlay) := rfl

/-- Over what is no object the overlay stays as it is. -/
theorem merge_of_base (h : a.isObject = false) (b : Json) : merge a b = b := by
  cases b with
  | object overlay =>
      cases a with
      | object base => cases h
      | _ => rfl
  | _ => rfl

/-- What is no object takes the place of anything. -/
theorem merge_of_overlay (a : Json) (h : b.isObject = false) : merge a b = b := by
  cases b with
  | object overlay => cases h
  | _ => rfl

theorem mergeAll_concat (a : Json) (layers : List Json) (layer : Json) :
    mergeAll a (layers ++ [layer]) = merge (mergeAll a layers) layer :=
  List.foldl_concat _ _ _ _

theorem keys_mergeFields (hnodup : (overlay.map Prod.fst).Nodup) :
    (mergeFields base overlay).map Prod.fst =
      base.map Prod.fst ++ (overlay.map Prod.fst).filter (· ∉ base.map Prod.fst) := by
  induction overlay generalizing base with
  | nil => simp [mergeFields]
  | cons field rest ih =>
      obtain ⟨name, value⟩ := field
      rw [List.map_cons, List.nodup_cons] at hnodup
      obtain ⟨hnew, hnodup⟩ := hnodup
      rw [mergeFields, ih hnodup, keys_put, List.map_cons]
      split
      · next hold =>
          rw [List.filter_cons_of_neg (by simpa using hold)]
      · next hnot =>
          rw [List.filter_cons_of_pos (by simpa using hnot), List.append_assoc,
            List.singleton_append]
          -- no later name is the one that is added now
          congr 2
          refine List.filter_congr fun k hk => ?_
          have hne : k ≠ name := fun heq => hnew (heq ▸ hk)
          simp [hne]

/-- Each name has the value of the side that has it, or that of the overlay over that of the
    base. -/
theorem get?_mergeFields (hnodup : (overlay.map Prod.fst).Nodup) (name : String) :
    get? name (mergeFields base overlay) =
      Option.merge merge (get? name base) (get? name overlay) := by
  induction overlay generalizing base with
  | nil =>
      rw [mergeFields, get?_nil]
      cases get? name base <;> rfl
  | cons field rest ih =>
      obtain ⟨k, value⟩ := field
      rw [List.map_cons, List.nodup_cons] at hnodup
      obtain ⟨hnew, hnodup⟩ := hnodup
      rw [mergeFields, ih hnodup, get?_put, get?_cons]
      by_cases hname : name = k
      · -- the name does not come again
        have hrest : get? name rest = none := get?_eq_none_iff.2 (hname ▸ hnew)
        rw [if_pos hname, if_pos hname, hrest, hname]
        cases get? k base <;> rfl
      · rw [if_neg hname, if_neg hname]

/-- Each field of a merged object comes from one side, or from both. -/
theorem mergeFields_cases (hnodup : (overlay.map Prod.fst).Nodup) {name : String} {v : Json}
    (h : get? name (mergeFields base overlay) = some v) :
    get? name base = some v ∨ get? name overlay = some v ∨
      ∃ x y, get? name base = some x ∧ get? name overlay = some y ∧ v = merge x y := by
  rw [get?_mergeFields hnodup] at h
  cases hbase : get? name base with
  | none =>
      cases hoverlay : get? name overlay with
      | none => simp [hbase, hoverlay] at h
      | some y => exact .inr (.inl (by simpa [hbase, hoverlay] using h))
  | some x =>
      cases hoverlay : get? name overlay with
      | none => exact .inl (by simpa [hbase, hoverlay] using h)
      | some y => exact .inr (.inr ⟨x, y, rfl, rfl, by simpa [hbase, hoverlay] using h.symm⟩)

theorem nodup_keys_mergeFields (hbase : (base.map Prod.fst).Nodup)
    (hoverlay : (overlay.map Prod.fst).Nodup) :
    ((mergeFields base overlay).map Prod.fst).Nodup := by
  rw [keys_mergeFields hoverlay]
  refine hbase.append (hoverlay.filter _) fun name hold hnew => ?_
  exact of_decide_eq_true (List.mem_filter.1 hnew).2 hold

theorem keyed_merge (ha : a.Keyed) (hb : b.Keyed) : (merge a b).Keyed := by
  induction hb generalizing a with
  | other hother =>
      rw [merge_of_overlay a hother]
      exact .other hother
  | @object overlay nodup values ih =>
      cases ha with
      | other hother =>
          rw [merge_of_base hother]
          exact .object nodup values
      | @object base nodup' values' =>
          have hnodup := nodup_keys_mergeFields nodup' nodup
          refine .object hnodup fun field hfield => ?_
          rcases mergeFields_cases nodup (get?_of_mem hnodup hfield) with
            hbase | hoverlay | ⟨x, y, hbase, hoverlay, hvalue⟩
          · exact values' _ (mem_of_get? hbase)
          · exact values _ (mem_of_get? hoverlay)
          · rw [hvalue]
            exact ih _ (mem_of_get? hoverlay) (values' _ (mem_of_get? hbase))

/-! ## Laws -/

/-- An object laid over an object is known by what is under each name. -/
theorem mergeFields_eq (hoverlay : (overlay.map Prod.fst).Nodup)
    (hkeys : fields.map Prod.fst =
      base.map Prod.fst ++ (overlay.map Prod.fst).filter (· ∉ base.map Prod.fst))
    (hnodup : (fields.map Prod.fst).Nodup)
    (h : ∀ name, Option.merge merge (get? name base) (get? name overlay) = get? name fields) :
    mergeFields base overlay = fields := by
  refine (fields_ext ?_ hnodup fun name => ?_).symm
  · rw [hkeys, keys_mergeFields hoverlay]
  · rw [get?_mergeFields hoverlay, h]

theorem merge_empty (a : List (String × Json)) : merge (.object a) (.object []) = .object a := rfl

theorem empty_merge (hnodup : (fields.map Prod.fst).Nodup) :
    merge (.object []) (.object fields) = .object fields := by
  rw [merge_object, mergeFields_eq hnodup (by simp) hnodup]
  intro name
  rw [get?_nil]
  cases get? name fields <;> rfl

/-- A value laid over itself. -/
theorem merge_self (ha : a.Keyed) : merge a a = a := by
  induction ha with
  | other hother => exact merge_of_base hother _
  | @object fields nodup values ih =>
      refine congrArg Json.object (mergeFields_eq nodup ?_ nodup ?_)
      · -- no name is new
        rw [List.filter_eq_nil_iff.2 (by simp), List.append_nil]
      · intro name
        cases hname : get? name fields with
        | none => rfl
        | some x => exact congrArg some (ih _ (mem_of_get? hname))

/-- A value laid over another one twice. -/
theorem merge_merge_self (ha : a.Keyed) (hb : b.Keyed) : merge (merge a b) b = merge a b := by
  induction hb generalizing a with
  | other hother => rw [merge_of_overlay _ hother, merge_of_overlay _ hother]
  | @object overlay nodup values ih =>
      cases ha with
      | other hother =>
          rw [merge_of_base hother]
          exact merge_self (.object nodup values)
      | @object base nodup' values' =>
          have hnodup := nodup_keys_mergeFields nodup' nodup
          refine congrArg Json.object (mergeFields_eq nodup ?_ hnodup ?_)
          · -- all names are there after the first time
            have hnone : (overlay.map Prod.fst).filter
                (· ∉ (mergeFields base overlay).map Prod.fst) = [] := by
              rw [keys_mergeFields nodup, List.filter_eq_nil_iff]
              intro name hname
              by_cases hold : name ∈ base.map Prod.fst <;> simp [hold, hname]
            rw [hnone, List.append_nil]
          · intro name
            rw [get?_mergeFields nodup]
            cases hoverlay : get? name overlay with
            | none => cases get? name base <;> rfl
            | some y =>
                cases hbase : get? name base with
                | none => exact congrArg some (merge_self (values _ (mem_of_get? hoverlay)))
                | some x =>
                    exact congrArg some
                      (ih _ (mem_of_get? hoverlay) (values' _ (mem_of_get? hbase)))

/-- Does the middle one of three values part objects on the two other sides? There is a path to
    an object in the first and in the last, and to something else in the middle. -/
def Parts (a b c : Json) : Prop :=
  ∃ path, (∃ x, a.at? path = some (.object x)) ∧ (∃ z, c.at? path = some (.object z)) ∧
    ∃ y, b.at? path = some y ∧ y.isObject = false

/-- What is parted below a name is parted. -/
theorem Parts.of_get? {fields' fields'' : List (String × Json)} {name : String} {x y z : Json}
    (h : Parts x y z) (hx : get? name fields = some x) (hy : get? name fields' = some y)
    (hz : get? name fields'' = some z) :
    Parts (.object fields) (.object fields') (.object fields'') := by
  obtain ⟨path, ha, hc, hb⟩ := h
  refine ⟨name :: path, ?_, ?_, ?_⟩
  · rw [at?_cons_of_get? hx]
    exact ha
  · rw [at?_cons_of_get? hz]
    exact hc
  · rw [at?_cons_of_get? hy]
    exact hb

/-- Two layers may be merged with each other first. -/
theorem merge_assoc (ha : a.Keyed) (hb : b.Keyed) (hc : c.Keyed) (h : ¬ Parts a b c) :
    merge (merge a b) c = merge a (merge b c) := by
  -- on the value on top; what is below a name is parted only if the whole is
  induction hc generalizing a b with
  | other hother =>
      rw [merge_of_overlay _ hother, merge_of_overlay _ hother, merge_of_overlay _ hother]
  | @object top nodup values ih =>
      cases hb with
      | other hmiddle =>
          -- what is no object hides what is below it, which is then no object either
          rw [merge_of_overlay a hmiddle, merge_of_base hmiddle]
          refine (merge_of_base (Bool.eq_false_iff.2 fun hobject => h ?_) _).symm
          obtain ⟨x, rfl⟩ := isObject_iff.1 hobject
          exact ⟨[], ⟨x, rfl⟩, ⟨top, rfl⟩, _, at?_nil _, hmiddle⟩
      | @object middle nodup' values' =>
          cases ha with
          | other hbase => rw [merge_of_base hbase, merge_of_base hbase]
          | @object base nodup'' values'' =>
              have hupper := nodup_keys_mergeFields nodup' nodup
              refine congrArg Json.object (mergeFields_eq nodup ?_
                (nodup_keys_mergeFields nodup'' hupper) ?_)
              · rw [keys_mergeFields hupper, keys_mergeFields nodup', keys_mergeFields nodup,
                  List.filter_append, List.filter_filter, List.append_assoc]
                congr 2
                refine List.filter_congr fun name _ => ?_
                by_cases hbase : name ∈ base.map Prod.fst <;>
                  by_cases hmiddle : name ∈ middle.map Prod.fst <;> simp [hbase, hmiddle]
              · intro name
                rw [get?_mergeFields hupper, get?_mergeFields nodup, get?_mergeFields nodup']
                cases hx : get? name base with
                | none =>
                    cases get? name middle <;> cases get? name top <;> rfl
                | some x =>
                    cases hy : get? name middle with
                    | none => cases get? name top <;> rfl
                    | some y =>
                        cases hz : get? name top with
                        | none => rfl
                        | some z =>
                            -- all three have the name: the values below it are not parted either
                            have hbelow : ¬ Parts x y z := fun hparts => h (hparts.of_get? hx hy hz)
                            exact congrArg some (ih _ (mem_of_get? hz) (values'' _ (mem_of_get? hx))
                              (values' _ (mem_of_get? hy)) hbelow)

/-- Merged values are values again. Laying a value over another one twice is laying it over once,
    and a value over itself changes nothing. The empty object changes no object, on either side;
    each name of two merged objects has the value of the side that has it, or that of the overlay
    merged into that of the base. Two layers may be merged with each other before they are laid
    over a third value, unless a path leads to an object below and on top and to something else
    in the middle. -/
theorem merge_algebra (ha : a.Keyed) (hb : b.Keyed) (hc : c.Keyed) :
    (merge a b).Keyed ∧ merge (merge a b) b = merge a b ∧ merge a a = a ∧
      (∀ base, a = .object base → merge a (.object []) = a ∧ merge (.object []) a = a) ∧
      (∀ base overlay, a = .object base → b = .object overlay →
        ∃ fields, merge a b = .object fields ∧ ∀ name,
          get? name fields = Option.merge merge (get? name base) (get? name overlay)) ∧
      (¬ Parts a b c → merge (merge a b) c = merge a (merge b c)) := by
  refine ⟨keyed_merge ha hb, merge_merge_self ha hb, merge_self ha, ?_, ?_, merge_assoc ha hb hc⟩
  · rintro base rfl
    exact ⟨merge_empty base, empty_merge ha.nodup⟩
  · rintro base overlay rfl rfl
    exact ⟨mergeFields base overlay, merge_object base overlay, get?_mergeFields hb.nodup⟩

theorem merge_algebra_layers :
    ∃ a b c, a.Keyed ∧ b.Keyed ∧ c.Keyed ∧ ¬ Parts a b c ∧
      merge (merge a b) c = merge a (merge b c) ∧
      merge (merge a b) c = .object [("model", .object [("layers", .null), ("type", .bool true)]),
        ("seed", .null)] := by
  let a : Json := .object [("model", .object [("layers", .bool false), ("type", .bool true)])]
  let b : Json := .object [("model", .object [("layers", .string "two")]), ("seed", .null)]
  let c : Json := .object [("model", .object [("layers", .null)])]
  have ha : a.Keyed := by
    refine .object (by decide) (List.forall_mem_singleton.2 (.object (by decide) ?_))
    simpa using ⟨.other rfl, .other rfl⟩
  have hb : b.Keyed := by
    refine .object (by decide) (List.forall_mem_cons.2 ⟨.object (by decide) ?_, ?_⟩)
    · simpa using .other rfl
    · simpa using .other rfl
  have hc : c.Keyed := by
    refine .object (by decide) (List.forall_mem_singleton.2 (.object (by decide) ?_))
    simpa using .other rfl
  have hparts : ¬ Parts a b c := by
    rintro ⟨path, -, ⟨z, hz⟩, y, hy, hother⟩
    match path with
    | [] =>
        cases hy
        cases hother
    | [name] =>
        by_cases hname : name = "model"
        · subst hname
          cases hy
          cases hother
        · simp [c, at?_cons_object, get?_cons, hname] at hz
    | name :: next :: more =>
        by_cases hname : name = "model"
        · subst hname
          by_cases hnext : next = "layers"
          · subst hnext
            cases more <;> simp [c, get?_cons, at?] at hz
          · simp [c, at?_cons_object, get?_cons, hnext] at hz
        · simp [c, at?_cons_object, get?_cons, hname] at hz
  exact ⟨a, b, c, ha, hb, hc, hparts, (merge_algebra ha hb hc).2.2.2.2.2 hparts, rfl⟩

/-- The middle layer hides what is below it only until it is merged with the top. -/
example : let a : Json := .object [("x", .null)]
    merge (merge a .null) (.object []) = .object [] ∧ merge a (merge .null (.object [])) = a :=
  ⟨rfl, rfl⟩

end ParseBench.Json
