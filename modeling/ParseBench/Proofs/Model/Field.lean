/-
  ParseBench.Proofs.Model.Field

  The known fields of a model's configuration as a table: where each is written, its type and
  its place in the record. A section is read field by field (`ReadBy`, one table for each
  section), and so is the whole configuration (`ofJson?_eq_some_iff`, `exists_ofJson?`). What
  was written is read back (`ofJson?_toJson`).
-/

import Mathlib.Data.List.Basic
import ParseBench.Model.Config
import ParseBench.Proofs.Json.Fields

namespace ParseBench

open Json (get? fieldOr)

/-! ## Types -/

/-- What a field can be. -/
inductive FieldType where
  | text
  | natural
  /-- A natural number or nothing. -/
  | size
  | real
  | truth
  deriving DecidableEq, Repr

namespace FieldType

/-- The values of a type. -/
abbrev Value : FieldType → Type
  | text => String
  | natural => Nat
  | size => Option Nat
  | real => Float
  | truth => Bool

/-- The value of a type that is written as JSON. -/
def read : (type : FieldType) → Json → Option type.Value
  | text => Json.asString?
  | natural => Json.asNat?
  | size => Json.optional? Json.asNat?
  | real => Json.asFloat?
  | truth => Json.asBool?

/-- Is a JSON value of a type? A size may be null, and every number is real. -/
def accepts : FieldType → Json → Bool
  | text, .string _ => true
  | natural, .number (.natural _) => true
  | size, .null => true
  | size, .number (.natural _) => true
  | real, .number _ => true
  | truth, .bool _ => true
  | _, _ => false

theorem isSome_read (type : FieldType) (j : Json) : (type.read j).isSome = type.accepts j := by
  cases j with
  | number n => cases n <;> cases type <;> rfl
  | _ => cases type <;> rfl

/-- No type has objects among its values. -/
theorem read_of_isObject (type : FieldType) {j : Json} (h : j.isObject = true) :
    type.read j = none := by
  obtain ⟨fields, rfl⟩ := Json.isObject_iff.1 h
  cases type <;> rfl

end FieldType

/-! ## Sections -/

/-- A field of a record: its name, its type and its place. -/
structure RecordField (ρ : Type) where
  name : String
  type : FieldType
  get : ρ → type.Value

namespace RecordField

variable {ρ : Type}

/-- The value that an object has for a field, or the default if it has none. -/
def readIn? (f : RecordField ρ) (default : ρ) (fields : List (String × Json)) :
    Option f.type.Value :=
  fieldOr (get? · fields) f.name f.type.read (f.get default)

end RecordField

/-- Is a record read field by field? -/
structure ReadBy {ρ : Type} (ofJson? : Json → Option ρ) (default : ρ)
    (table : List (RecordField ρ)) : Prop where
  some_iff : ∀ (fields : List (String × Json)) (r : ρ), ofJson? (.object fields) = some r ↔
    ∀ f ∈ table, f.readIn? default fields = some (f.get r)
  exists_some : ∀ fields : List (String × Json),
    (∀ f ∈ table, (f.readIn? default fields).isSome) → ∃ r, ofJson? (.object fields) = some r

namespace ModelSection

/-- The known fields. -/
def table : List (RecordField ModelSection) :=
  [⟨"model_type", .text, modelType⟩, ⟨"encoder_type", .text, encoderType⟩,
    ⟨"encoder_hidden_size", .natural, encoderSize⟩, ⟨"decoder_hidden_size", .natural, decoderSize⟩,
    ⟨"hidden_size", .size, hiddenSize⟩, ⟨"rnn_cell_type", .text, cellType⟩,
    ⟨"rnn_layers", .natural, layers⟩, ⟨"apply_attention", .truth, attention⟩,
    ⟨"attention_probability_fn", .text, attentionFunction⟩]

theorem readBy : ReadBy ofJson? {} table := by
  constructor
  case some_iff =>
    intro fields s
    simp only [table, List.forall_mem_cons, ofJson?, Json.record?, Option.bind_eq_bind,
      Option.bind_some, Option.bind_eq_some_iff, Option.pure_def, Option.some.injEq]
    constructor
    · rintro ⟨_, h1, _, h2, _, h3, _, h4, _, h5, _, h6, _, h7, _, h8, _, h9, rfl⟩
      exact ⟨h1, h2, h3, h4, h5, h6, h7, h8, h9, List.forall_mem_nil _⟩
    · rintro ⟨h1, h2, h3, h4, h5, h6, h7, h8, h9, -⟩
      exact ⟨_, h1, _, h2, _, h3, _, h4, _, h5, _, h6, _, h7, _, h8, _, h9, rfl⟩
  case exists_some =>
    intro fields h
    simp only [table, List.forall_mem_cons, Option.isSome_iff_exists] at h
    obtain ⟨⟨_, h1⟩, ⟨_, h2⟩, ⟨_, h3⟩, ⟨_, h4⟩, ⟨_, h5⟩, ⟨_, h6⟩, ⟨_, h7⟩, ⟨_, h8⟩, ⟨_, h9⟩, -⟩ := h
    simp only [ofJson?, Json.record?, Option.bind_eq_bind, Option.bind_some,
      Option.bind_eq_some_iff, Option.pure_def, Option.some.injEq]
    exact ⟨_, _, h1, _, h2, _, h3, _, h4, _, h5, _, h6, _, h7, _, h8, _, h9, rfl⟩

end ModelSection

namespace TrainingSection

/-- The known fields. -/
def table : List (RecordField TrainingSection) :=
  [⟨"batch_size", .natural, batchSize⟩, ⟨"n_epochs", .natural, epochs⟩,
    ⟨"learning_rate", .real, learningRate⟩, ⟨"learning_rate_decay", .real, learningRateDecay⟩,
    ⟨"dropout", .real, dropout⟩, ⟨"gradient_clip", .real, gradientClip⟩,
    ⟨"l2_regularization", .real, regularization⟩, ⟨"optimizer", .text, optimizer⟩,
    ⟨"shuffle_data", .truth, shuffle⟩, ⟨"curriculum_schedule", .real, curriculumSchedule⟩,
    ⟨"curriculum_max_prob", .real, curriculumMaximum⟩]

theorem readBy : ReadBy ofJson? {} table := by
  constructor
  case some_iff =>
    intro fields s
    simp only [table, List.forall_mem_cons, ofJson?, Json.record?, Option.bind_eq_bind,
      Option.bind_some, Option.bind_eq_some_iff, Option.pure_def, Option.some.injEq]
    constructor
    · rintro ⟨_, h1, _, h2, _, h3, _, h4, _, h5, _, h6, _, h7, _, h8, _, h9, _, h10, _, h11, rfl⟩
      exact ⟨h1, h2, h3, h4, h5, h6, h7, h8, h9, h10, h11, List.forall_mem_nil _⟩
    · rintro ⟨h1, h2, h3, h4, h5, h6, h7, h8, h9, h10, h11, -⟩
      exact ⟨_, h1, _, h2, _, h3, _, h4, _, h5, _, h6, _, h7, _, h8, _, h9, _, h10, _, h11, rfl⟩
  case exists_some =>
    intro fields h
    simp only [table, List.forall_mem_cons, Option.isSome_iff_exists] at h
    obtain ⟨⟨_, h1⟩, ⟨_, h2⟩, ⟨_, h3⟩, ⟨_, h4⟩, ⟨_, h5⟩, ⟨_, h6⟩, ⟨_, h7⟩, ⟨_, h8⟩, ⟨_, h9⟩, ⟨_,
      h10⟩, ⟨_, h11⟩, -⟩ := h
    simp only [ofJson?, Json.record?, Option.bind_eq_bind, Option.bind_some,
      Option.bind_eq_some_iff, Option.pure_def, Option.some.injEq]
    exact ⟨_, _, h1, _, h2, _, h3, _, h4, _, h5, _, h6, _, h7, _, h8, _, h9, _, h10, _,
      h11, rfl⟩

end TrainingSection

namespace InputSection

/-- The known fields. -/
def table : List (RecordField InputSection) :=
  [⟨"input_words", .text, words⟩, ⟨"input_embeddings", .text, embeddings⟩,
    ⟨"input_embed_size", .natural, embedSize⟩, ⟨"max_length", .natural, maxLength⟩]

theorem readBy : ReadBy ofJson? {} table := by
  constructor
  case some_iff =>
    intro fields s
    simp only [table, List.forall_mem_cons, ofJson?, Json.record?, Option.bind_eq_bind,
      Option.bind_some, Option.bind_eq_some_iff, Option.pure_def, Option.some.injEq]
    constructor
    · rintro ⟨_, h1, _, h2, _, h3, _, h4, rfl⟩
      exact ⟨h1, h2, h3, h4, List.forall_mem_nil _⟩
    · rintro ⟨h1, h2, h3, h4, -⟩
      exact ⟨_, h1, _, h2, _, h3, _, h4, rfl⟩
  case exists_some =>
    intro fields h
    simp only [table, List.forall_mem_cons, Option.isSome_iff_exists] at h
    obtain ⟨⟨_, h1⟩, ⟨_, h2⟩, ⟨_, h3⟩, ⟨_, h4⟩, -⟩ := h
    simp only [ofJson?, Json.record?, Option.bind_eq_bind, Option.bind_some,
      Option.bind_eq_some_iff, Option.pure_def, Option.some.injEq]
    exact ⟨_, _, h1, _, h2, _, h3, _, h4, rfl⟩

end InputSection

namespace OutputSection

/-- The known fields. -/
def table : List (RecordField OutputSection) :=
  [⟨"grammar", .text, grammar⟩, ⟨"grammar_input_file", .text, grammarFile⟩,
    ⟨"output_embed_size", .natural, embedSize⟩, ⟨"beam_width", .natural, beamWidth⟩,
    ⟨"training_beam_width", .natural, trainingBeamWidth⟩]

theorem readBy : ReadBy ofJson? {} table := by
  constructor
  case some_iff =>
    intro fields s
    simp only [table, List.forall_mem_cons, ofJson?, Json.record?, Option.bind_eq_bind,
      Option.bind_some, Option.bind_eq_some_iff, Option.pure_def, Option.some.injEq]
    constructor
    · rintro ⟨_, h1, _, h2, _, h3, _, h4, _, h5, rfl⟩
      exact ⟨h1, h2, h3, h4, h5, List.forall_mem_nil _⟩
    · rintro ⟨h1, h2, h3, h4, h5, -⟩
      exact ⟨_, h1, _, h2, _, h3, _, h4, _, h5, rfl⟩
  case exists_some =>
    intro fields h
    simp only [table, List.forall_mem_cons, Option.isSome_iff_exists] at h
    obtain ⟨⟨_, h1⟩, ⟨_, h2⟩, ⟨_, h3⟩, ⟨_, h4⟩, ⟨_, h5⟩, -⟩ := h
    simp only [ofJson?, Json.record?, Option.bind_eq_bind, Option.bind_some,
      Option.bind_eq_some_iff, Option.pure_def, Option.some.injEq]
    exact ⟨_, _, h1, _, h2, _, h3, _, h4, _, h5, rfl⟩

end OutputSection

/-! ## The whole configuration -/

/-- A field of a configuration: its section, its name, its type and its place. -/
structure ConfigField where
  part : String
  name : String
  type : FieldType
  get : ModelConfig → type.Value

namespace ConfigField

/-- A field of a section. -/
def within {ρ : Type} (part : String) (get : ModelConfig → ρ) (f : RecordField ρ) : ConfigField :=
  ⟨part, f.name, f.type, f.get ∘ get⟩

/-- The known fields. -/
def all : List ConfigField :=
  ModelSection.table.map (within "model" ModelConfig.model) ++
    TrainingSection.table.map (within "training" ModelConfig.training) ++
    InputSection.table.map (within "input" ModelConfig.input) ++
    OutputSection.table.map (within "output" ModelConfig.output)

/-- The value that a JSON value has for a field, or the default if it has none. -/
def readIn? (f : ConfigField) (j : Json) : Option f.type.Value :=
  match j.at? [f.part, f.name] with
  | some v => f.type.read v
  | none => some (f.get {})

theorem part_mem {f : ConfigField} (h : f ∈ all) : f.part ∈ ModelConfig.sectionNames := by
  have hparts : ∀ p ∈ all.map ConfigField.part, p ∈ ModelConfig.sectionNames := by decide
  exact hparts _ (List.mem_map.2 ⟨f, h, rfl⟩)

/-- A property of all fields is one of the fields of each section. -/
theorem forall_mem_all {p : ConfigField → Prop} :
    (∀ f ∈ all, p f) ↔
      (∀ f ∈ ModelSection.table, p (within "model" ModelConfig.model f)) ∧
      (∀ f ∈ TrainingSection.table, p (within "training" ModelConfig.training f)) ∧
      (∀ f ∈ InputSection.table, p (within "input" ModelConfig.input f)) ∧
      (∀ f ∈ OutputSection.table, p (within "output" ModelConfig.output f)) := by
  simp only [all, List.forall_mem_append, List.forall_mem_map, and_assoc]

theorem readIn?_within {ρ : Type} {part : String} {get : ModelConfig → ρ} {f : RecordField ρ}
    {fields inner : List (String × Json)} (h : get? part fields = some (.object inner)) :
    (within part get f).readIn? (.object fields) = f.readIn? (get {}) inner := by
  have hat : Json.at? [part, f.name] (.object fields) = get? f.name inner := by
    rw [Json.at?_cons_of_get? h, Json.at?_singleton]
  show (match Json.at? [part, f.name] (.object fields) with
    | some v => f.type.read v
    | none => some (f.get (get {}))) = _
  rw [hat]
  rfl

end ConfigField

namespace ModelConfig

/-- Is the value an object with every section, and each of them an object? -/
def Sectioned (j : Json) : Prop :=
  ∃ fields, j = .object fields ∧
    ∀ part ∈ sectionNames, ∃ inner, get? part fields = some (.object inner)

/-- The sections of a value that has them all. -/
theorem Sectioned.exists_sections {j : Json} (h : Sectioned j) :
    ∃ fields model training input output, j = .object fields ∧
      get? "model" fields = some (.object model) ∧
      get? "training" fields = some (.object training) ∧
      get? "input" fields = some (.object input) ∧
      get? "output" fields = some (.object output) := by
  obtain ⟨fields, hj, hsections⟩ := h
  obtain ⟨model, hmodel⟩ := hsections "model" (by decide)
  obtain ⟨training, htraining⟩ := hsections "training" (by decide)
  obtain ⟨input, hinput⟩ := hsections "input" (by decide)
  obtain ⟨output, houtput⟩ := hsections "output" (by decide)
  exact ⟨fields, model, training, input, output, hj, hmodel, htraining, hinput, houtput⟩

section

variable {fields model training input output : List (String × Json)} {c : ModelConfig}
  (hmodel : get? "model" fields = some (.object model))
  (htraining : get? "training" fields = some (.object training))
  (hinput : get? "input" fields = some (.object input))
  (houtput : get? "output" fields = some (.object output))

include hmodel htraining hinput houtput

/-- A configuration is read section by section. -/
theorem ofJson?_object :
    ofJson? (.object fields) = some c ↔
      ModelSection.ofJson? (.object model) = some c.model ∧
      TrainingSection.ofJson? (.object training) = some c.training ∧
      InputSection.ofJson? (.object input) = some c.input ∧
      OutputSection.ofJson? (.object output) = some c.output := by
  simp only [ofJson?, Json.record?, fieldOr, hmodel, htraining, hinput, houtput,
    Option.bind_eq_bind, Option.bind_some, Option.bind_eq_some_iff, Option.pure_def,
    Option.some.injEq]
  constructor
  · rintro ⟨_, h1, _, h2, _, h3, _, h4, rfl⟩
    exact ⟨h1, h2, h3, h4⟩
  · rintro ⟨h1, h2, h3, h4⟩
    exact ⟨_, h1, _, h2, _, h3, _, h4, rfl⟩

end

/-- A configuration is read field by field. -/
theorem ofJson?_eq_some_iff {j : Json} {c : ModelConfig} (hj : Sectioned j) :
    ofJson? j = some c ↔ ∀ f ∈ ConfigField.all, f.readIn? j = some (f.get c) := by
  obtain ⟨fields, model, training, input, output, rfl, hmodel, htraining, hinput, houtput⟩ :=
    hj.exists_sections
  rw [ofJson?_object hmodel htraining hinput houtput, ModelSection.readBy.some_iff,
    TrainingSection.readBy.some_iff, InputSection.readBy.some_iff, OutputSection.readBy.some_iff,
    ConfigField.forall_mem_all]
  simp only [ConfigField.readIn?_within hmodel, ConfigField.readIn?_within htraining,
    ConfigField.readIn?_within hinput, ConfigField.readIn?_within houtput]
  exact Iff.rfl

/-- Nothing but a field of a wrong type keeps a configuration from being read. -/
theorem exists_ofJson? {j : Json} (hj : Sectioned j)
    (h : ∀ f ∈ ConfigField.all, (f.readIn? j).isSome) : ∃ c, ofJson? j = some c := by
  obtain ⟨fields, model, training, input, output, rfl, hmodel, htraining, hinput, houtput⟩ :=
    hj.exists_sections
  rw [ConfigField.forall_mem_all] at h
  simp only [ConfigField.readIn?_within hmodel, ConfigField.readIn?_within htraining,
    ConfigField.readIn?_within hinput, ConfigField.readIn?_within houtput] at h
  obtain ⟨hm, ht, hi, ho⟩ := h
  obtain ⟨m, hm⟩ := ModelSection.readBy.exists_some model hm
  obtain ⟨t, ht⟩ := TrainingSection.readBy.exists_some training ht
  obtain ⟨i, hi⟩ := InputSection.readBy.exists_some input hi
  obtain ⟨o, ho⟩ := OutputSection.readBy.exists_some output ho
  exact ⟨⟨m, t, i, o⟩, (ofJson?_object hmodel htraining hinput houtput).2 ⟨hm, ht, hi, ho⟩⟩

/-- What is written has all its sections. -/
theorem sectioned_toJson (c : ModelConfig) : Sectioned c.toJson := by
  refine ⟨_, rfl, fun part hpart => ?_⟩
  simp only [sectionNames, List.mem_cons, List.not_mem_nil, or_false] at hpart
  rcases hpart with rfl | rfl | rfl | rfl
  · exact ⟨_, rfl⟩
  · exact ⟨_, rfl⟩
  · exact ⟨_, rfl⟩
  · exact ⟨_, rfl⟩

/-- What is written is read back. -/
theorem ofJson?_toJson (c : ModelConfig) : ofJson? c.toJson = some c := by
  obtain ⟨⟨_, _, _, _, hiddenSize, _, _, _, _⟩, _, _, _⟩ := c
  cases hiddenSize with
  | none => rfl
  | some n => rfl

end ModelConfig

end ParseBench
