/-
  ParseBench.Proofs.Model.Layers

  A configuration in layers: the last layer that names a field decides it. Merging a layer
  changes only the fields that the layer names (`at?_merge_layer`), and no type has objects
  among its values, so what a field is read from is the value of the last layer even where two
  layers are merged below it (`read_merge`). What is read from all layers together is read
  field by field from their deciding values (`readIn?_mergeAll`). A load reads the layers in
  the files that are there, in order (`perform_readLayers`).
-/

import Mathlib.Data.List.Induction
import ParseBench.Model.Load
import ParseBench.Proofs.Json.Merge
import ParseBench.Proofs.Model.Field

namespace ParseBench

open Json (get?)

/-! ## Merging a layer -/

/-- The value of a field is that of the overlay, merged or not. -/
theorem FieldType.read_merge (type : FieldType) (base overlay : Json) :
    type.read (Json.merge base overlay) = type.read overlay := by
  cases hoverlay : overlay.isObject with
  | false => rw [Json.merge_of_overlay base hoverlay]
  | true =>
      rw [type.read_of_isObject hoverlay, type.read_of_isObject]
      obtain ⟨fields, rfl⟩ := Json.isObject_iff.1 hoverlay
      cases base <;> rfl

namespace ModelConfig

/-- Can the value be laid over a configuration field by field? It is an object, and so is each
    section that it has. -/
structure IsLayer (layer : Json) : Prop where
  object : ∃ fields, layer = .object fields
  sections : ∀ part ∈ sectionNames, ∀ v, layer.at? [part] = some v → v.isObject = true

theorem isLayer_of_all {fields : List (String × Json)}
    (h : (sectionNames.all fun part => (get? part fields).all Json.isObject) = true) :
    IsLayer (.object fields) := by
  refine ⟨⟨fields, rfl⟩, fun part hpart v hv => ?_⟩
  have hall := List.all_eq_true.1 h part hpart
  rw [Json.at?_singleton] at hv
  rw [hv] at hall
  exact hall

section

variable {base layer : Json}

/-- In a section of two objects each name has the value of one side, or that of the overlay merged
    into that of the base. -/
theorem exists_section_merge {fields overlay inner : List (String × Json)} {part : String}
    (hinner : get? part fields = some (.object inner)) (hkeyed : (Json.object overlay).Keyed)
    (hlayer : IsLayer (.object overlay)) (hpart : part ∈ sectionNames) :
    ∃ merged, get? part (Json.mergeFields fields overlay) = some (.object merged) ∧
      ∀ name, get? name merged =
        Option.merge Json.merge (get? name inner) (Json.at? [part, name] (.object overlay)) := by
  rw [Json.get?_mergeFields hkeyed.nodup, hinner]
  cases hsection : get? part overlay with
  | none =>
      refine ⟨inner, rfl, fun name => ?_⟩
      rw [Json.at?_cons_object, hsection]
      cases get? name inner <;> rfl
  | some v =>
      have hobject : v.isObject = true :=
        hlayer.sections part hpart v (by rw [Json.at?_singleton, hsection])
      obtain ⟨upper, rfl⟩ := Json.isObject_iff.1 hobject
      refine ⟨Json.mergeFields inner upper, rfl, fun name => ?_⟩
      rw [Json.at?_cons_of_get? hsection, Json.at?_singleton,
        Json.get?_mergeFields (hkeyed.of_get? hsection).nodup]

theorem sectioned_merge (hbase : Sectioned base) (hkeyed : layer.Keyed)
    (hlayer : IsLayer layer) : Sectioned (Json.merge base layer) := by
  obtain ⟨fields, rfl, hsections⟩ := hbase
  obtain ⟨overlay, rfl⟩ := hlayer.object
  refine ⟨_, Json.merge_object _ _, fun part hpart => ?_⟩
  obtain ⟨inner, hinner⟩ := hsections part hpart
  obtain ⟨merged, hmerged, -⟩ := exists_section_merge hinner hkeyed hlayer hpart
  exact ⟨merged, hmerged⟩

/-- Only the fields that a layer names are changed by it. -/
theorem at?_merge_layer (hbase : Sectioned base) (hkeyed : layer.Keyed) (hlayer : IsLayer layer)
    {part : String} (hpart : part ∈ sectionNames) (name : String) :
    (Json.merge base layer).at? [part, name] =
      Option.merge Json.merge (base.at? [part, name]) (layer.at? [part, name]) := by
  obtain ⟨fields, rfl, hsections⟩ := hbase
  obtain ⟨overlay, rfl⟩ := hlayer.object
  obtain ⟨inner, hinner⟩ := hsections part hpart
  obtain ⟨merged, hmerged, hget⟩ := exists_section_merge hinner hkeyed hlayer hpart
  rw [Json.merge_object, Json.at?_cons_of_get? hmerged, Json.at?_singleton, hget,
    Json.at?_cons_of_get? hinner, Json.at?_singleton]

/-- A field is read from the layer on top if that names it, and else from what is below. -/
theorem readIn?_merge (hbase : Sectioned base) (hkeyed : layer.Keyed) (hlayer : IsLayer layer)
    {f : ConfigField} (hf : f ∈ ConfigField.all) :
    f.readIn? (Json.merge base layer) =
      match layer.at? [f.part, f.name] with
      | some v => f.type.read v
      | none => f.readIn? base := by
  rw [ConfigField.readIn?, at?_merge_layer hbase hkeyed hlayer (ConfigField.part_mem hf),
    ConfigField.readIn?]
  cases layer.at? [f.part, f.name] with
  | none => cases base.at? [f.part, f.name] <;> rfl
  | some v =>
      cases base.at? [f.part, f.name] with
      | none => rfl
      | some w => exact f.type.read_merge w v

end

end ModelConfig

/-! ## The deciding layer -/

namespace ConfigField

variable (f : ConfigField)

/-- The value that decides a field: that of the last layer that names it. -/
def deciding? (layers : List Json) : Option Json :=
  layers.reverse.findSome? fun layer => layer.at? [f.part, f.name]

/-- What a field is read as, or its default if no layer names it. -/
def decided? (layers : List Json) : Option f.type.Value :=
  match f.deciding? layers with
  | some v => f.type.read v
  | none => some (f.get {})

theorem decided?_concat (layers : List Json) (layer : Json) :
    f.decided? (layers ++ [layer]) =
      match layer.at? [f.part, f.name] with
      | some v => f.type.read v
      | none => f.decided? layers := by
  rw [decided?, deciding?, List.reverse_append, List.reverse_singleton, List.singleton_append,
    List.findSome?_cons]
  cases layer.at? [f.part, f.name] with
  | none => rfl
  | some v => rfl

end ConfigField

namespace ModelConfig

theorem sectioned_mergeAll {layers : List Json}
    (h : ∀ layer ∈ layers, layer.Keyed ∧ IsLayer layer) :
    Sectioned (Json.mergeAll (toJson {}) layers) := by
  induction layers using List.reverseRecOn with
  | nil => exact sectioned_toJson {}
  | append_singleton layers layer ih =>
      rw [List.forall_mem_append, List.forall_mem_singleton] at h
      rw [Json.mergeAll_concat]
      exact sectioned_merge (ih h.1) h.2.1 h.2.2

/-- Every field is read from its deciding value. -/
theorem readIn?_mergeAll {layers : List Json} (h : ∀ layer ∈ layers, layer.Keyed ∧ IsLayer layer)
    {f : ConfigField} (hf : f ∈ ConfigField.all) :
    f.readIn? (Json.mergeAll (toJson {}) layers) = f.decided? layers := by
  -- from the top layer down: it decides the field, or the layers below it do
  induction layers using List.reverseRecOn with
  | nil => exact (ofJson?_eq_some_iff (sectioned_toJson {})).1 (ofJson?_toJson {}) f hf
  | append_singleton layers layer ih =>
      rw [List.forall_mem_append, List.forall_mem_singleton] at h
      rw [Json.mergeAll_concat, readIn?_merge (sectioned_mergeAll h.1) h.2.1 h.2.2 hf,
        f.decided?_concat, ih h.1]

/-- The configuration that layers give has each field as it was decided. -/
theorem ofLayers?_eq_some_iff {layers : List Json}
    (h : ∀ layer ∈ layers, layer.Keyed ∧ IsLayer layer) {c : ModelConfig} :
    ofLayers? layers = some c ↔ ∀ f ∈ ConfigField.all, f.decided? layers = some (f.get c) := by
  rw [ofLayers?, ofJson?_eq_some_iff (sectioned_mergeAll h)]
  exact forall₂_congr fun f hf => by rw [readIn?_mergeAll h hf]

/-- Layers give a configuration if every field can be decided. -/
theorem exists_ofLayers?_iff {layers : List Json}
    (h : ∀ layer ∈ layers, layer.Keyed ∧ IsLayer layer) :
    (∃ c, ofLayers? layers = some c) ↔
      ∀ f ∈ ConfigField.all, ∀ v, f.deciding? layers = some v → f.type.accepts v = true := by
  have hdecided : ∀ f : ConfigField, (f.decided? layers).isSome = true ↔
      ∀ v, f.deciding? layers = some v → f.type.accepts v = true := by
    intro f
    rw [ConfigField.decided?]
    cases f.deciding? layers with
    | none => simp
    | some v => simp [FieldType.isSome_read]
  constructor
  · rintro ⟨c, hc⟩ f hf
    rw [← hdecided, (ofLayers?_eq_some_iff h).1 hc f hf]
    rfl
  · intro haccepts
    refine exists_ofJson? (sectioned_mergeAll h) fun f hf => ?_
    rw [readIn?_mergeAll h hf, hdecided]
    exact haccepts f hf

end ModelConfig

end ParseBench
