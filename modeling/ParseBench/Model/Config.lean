/-
  ParseBench.Model.Config

  What a model is configured with, in four sections. A configuration is written
  as JSON and read from it; fields that are not there have their defaults.
-/

import ParseBench.Json.Value
import ParseBench.Program.Kind

namespace ParseBench

/-! ## The model -/

/-- The model itself. -/
structure ModelSection where
  modelType : String := "seq2seq"
  encoderType : String := "birnn"
  encoderSize : Nat := 125
  decoderSize : Nat := 250
  /-- Stands for the sizes of encoder and decoder if it is given. -/
  hiddenSize : Option Nat := none
  cellType : String := "lstm"
  layers : Nat := 1
  attention : Bool := true
  attentionFunction : String := "softmax"
  deriving Inhabited

namespace ModelSection

/-- The names of the fields, in order. -/
def fieldNames : List String :=
  ["model_type", "encoder_type", "encoder_hidden_size", "decoder_hidden_size", "hidden_size",
    "rnn_cell_type", "rnn_layers", "apply_attention", "attention_probability_fn"]

/-- The section as JSON. A size that is not given has no field. -/
def toJson (s : ModelSection) : Json :=
  .object
    ([("model_type", .string s.modelType), ("encoder_type", .string s.encoderType),
      ("encoder_hidden_size", .number (.natural s.encoderSize)),
      ("decoder_hidden_size", .number (.natural s.decoderSize))] ++
    (s.hiddenSize.toList.map fun n => ("hidden_size", .number (.natural n))) ++
    [("rnn_cell_type", .string s.cellType), ("rnn_layers", .number (.natural s.layers)),
      ("apply_attention", .bool s.attention),
      ("attention_probability_fn", .string s.attentionFunction)])

/-- Reads the section. -/
def ofJson? (j : Json) : Option ModelSection := do
  let record ← Json.record? fieldNames j
  let d : ModelSection := {}
  let modelType ← Json.fieldOr record "model_type" Json.asString? d.modelType
  let encoderType ← Json.fieldOr record "encoder_type" Json.asString? d.encoderType
  let encoderSize ← Json.fieldOr record "encoder_hidden_size" Json.asNat? d.encoderSize
  let decoderSize ← Json.fieldOr record "decoder_hidden_size" Json.asNat? d.decoderSize
  let hiddenSize ← Json.fieldOr record "hidden_size" (Json.optional? Json.asNat?) d.hiddenSize
  let cellType ← Json.fieldOr record "rnn_cell_type" Json.asString? d.cellType
  let layers ← Json.fieldOr record "rnn_layers" Json.asNat? d.layers
  let attention ← Json.fieldOr record "apply_attention" Json.asBool? d.attention
  let attentionFunction ←
    Json.fieldOr record "attention_probability_fn" Json.asString? d.attentionFunction
  return ⟨modelType, encoderType, encoderSize, decoderSize, hiddenSize, cellType, layers, attention,
    attentionFunction⟩

end ModelSection

/-! ## Its training -/

/-- How the model is trained. -/
structure TrainingSection where
  batchSize : Nat := 256
  epochs : Nat := 25
  learningRate : Float := 0.005
  learningRateDecay : Float := 0.95
  dropout : Float := 0.5
  gradientClip : Float := 1.0
  regularization : Float := 0.0
  optimizer : String := "RMSProp"
  shuffle : Bool := true
  curriculumSchedule : Float := 0.05
  curriculumMaximum : Float := 0.7
  deriving Inhabited

namespace TrainingSection

/-- The names of the fields, in order. -/
def fieldNames : List String :=
  ["batch_size", "n_epochs", "learning_rate", "learning_rate_decay", "dropout", "gradient_clip",
    "l2_regularization", "optimizer", "shuffle_data", "curriculum_schedule",
    "curriculum_max_prob"]

/-- The section as JSON. -/
def toJson (s : TrainingSection) : Json :=
  .object
    [("batch_size", .number (.natural s.batchSize)), ("n_epochs", .number (.natural s.epochs)),
      ("learning_rate", .number (.real s.learningRate)),
      ("learning_rate_decay", .number (.real s.learningRateDecay)),
      ("dropout", .number (.real s.dropout)), ("gradient_clip", .number (.real s.gradientClip)),
      ("l2_regularization", .number (.real s.regularization)), ("optimizer", .string s.optimizer),
      ("shuffle_data", .bool s.shuffle),
      ("curriculum_schedule", .number (.real s.curriculumSchedule)),
      ("curriculum_max_prob", .number (.real s.curriculumMaximum))]

/-- Reads the section. -/
def ofJson? (j : Json) : Option TrainingSection := do
  let record ← Json.record? fieldNames j
  let d : TrainingSection := {}
  let batchSize ← Json.fieldOr record "batch_size" Json.asNat? d.batchSize
  let epochs ← Json.fieldOr record "n_epochs" Json.asNat? d.epochs
  let learningRate ← Json.fieldOr record "learning_rate" Json.asFloat? d.learningRate
  let learningRateDecay ← Json.fieldOr record "learning_rate_decay" Json.asFloat? d.learningRateDecay
  let dropout ← Json.fieldOr record "dropout" Json.asFloat? d.dropout
  let gradientClip ← Json.fieldOr record "gradient_clip" Json.asFloat? d.gradientClip
  let regularization ← Json.fieldOr record "l2_regularization" Json.asFloat? d.regularization
  let optimizer ← Json.fieldOr record "optimizer" Json.asString? d.optimizer
  let shuffle ← Json.fieldOr record "shuffle_data" Json.asBool? d.shuffle
  let curriculumSchedule ←
    Json.fieldOr record "curriculum_schedule" Json.asFloat? d.curriculumSchedule
  let curriculumMaximum ← Json.fieldOr record "curriculum_max_prob" Json.asFloat? d.curriculumMaximum
  return ⟨batchSize, epochs, learningRate, learningRateDecay, dropout, gradientClip, regularization,
    optimizer, shuffle, curriculumSchedule, curriculumMaximum⟩

end TrainingSection

/-! ## Its input -/

/-- How sentences are read. -/
structure InputSection where
  words : String := "./en/input_words.txt"
  embeddings : String := "./en/embeddings-300.txt"
  embedSize : Nat := 300
  maxLength : Nat := 65
  deriving DecidableEq, Repr, Inhabited

namespace InputSection

/-- The names of the fields, in order. -/
def fieldNames : List String :=
  ["input_words", "input_embeddings", "input_embed_size", "max_length"]

/-- The section as JSON. -/
def toJson (s : InputSection) : Json :=
  .object
    [("input_words", .string s.words), ("input_embeddings", .string s.embeddings),
      ("input_embed_size", .number (.natural s.embedSize)),
      ("max_length", .number (.natural s.maxLength))]

/-- Reads the section. -/
def ofJson? (j : Json) : Option InputSection := do
  let record ← Json.record? fieldNames j
  let d : InputSection := {}
  let words ← Json.fieldOr record "input_words" Json.asString? d.words
  let embeddings ← Json.fieldOr record "input_embeddings" Json.asString? d.embeddings
  let embedSize ← Json.fieldOr record "input_embed_size" Json.asNat? d.embedSize
  let maxLength ← Json.fieldOr record "max_length" Json.asNat? d.maxLength
  return ⟨words, embeddings, embedSize, maxLength⟩

end InputSection

/-! ## Its output -/

/-- How programs are written. -/
structure OutputSection where
  grammar : String := "bottomup"
  grammarFile : String := "./en/grammar.json"
  embedSize : Nat := 100
  beamWidth : Nat := 10
  trainingBeamWidth : Nat := 10
  deriving DecidableEq, Repr, Inhabited

namespace OutputSection

/-- The names of the fields, in order. -/
def fieldNames : List String :=
  ["grammar", "grammar_input_file", "output_embed_size", "beam_width", "training_beam_width"]

/-- The section as JSON. -/
def toJson (s : OutputSection) : Json :=
  .object
    [("grammar", .string s.grammar), ("grammar_input_file", .string s.grammarFile),
      ("output_embed_size", .number (.natural s.embedSize)),
      ("beam_width", .number (.natural s.beamWidth)),
      ("training_beam_width", .number (.natural s.trainingBeamWidth))]

/-- Reads the section. -/
def ofJson? (j : Json) : Option OutputSection := do
  let record ← Json.record? fieldNames j
  let d : OutputSection := {}
  let grammar ← Json.fieldOr record "grammar" Json.asString? d.grammar
  let grammarFile ← Json.fieldOr record "grammar_input_file" Json.asString? d.grammarFile
  let embedSize ← Json.fieldOr record "output_embed_size" Json.asNat? d.embedSize
  let beamWidth ← Json.fieldOr record "beam_width" Json.asNat? d.beamWidth
  let trainingBeamWidth ← Json.fieldOr record "training_beam_width" Json.asNat? d.trainingBeamWidth
  return ⟨grammar, grammarFile, embedSize, beamWidth, trainingBeamWidth⟩

end OutputSection

/-! ## All sections -/

/-- The configuration of a model. -/
structure ModelConfig where
  model : ModelSection := {}
  training : TrainingSection := {}
  input : InputSection := {}
  output : OutputSection := {}
  deriving Inhabited

namespace ModelConfig

/-- The names of the sections, in order. -/
def sectionNames : List String := ["model", "training", "input", "output"]

/-- The configuration as JSON. -/
def toJson (c : ModelConfig) : Json :=
  .object
    [("model", c.model.toJson), ("training", c.training.toJson), ("input", c.input.toJson),
      ("output", c.output.toJson)]

/-- Reads a configuration. -/
def ofJson? (j : Json) : Option ModelConfig := do
  let record ← Json.record? sectionNames j
  let model ← Json.fieldOr record "model" ModelSection.ofJson? {}
  let training ← Json.fieldOr record "training" TrainingSection.ofJson? {}
  let input ← Json.fieldOr record "input" InputSection.ofJson? {}
  let output ← Json.fieldOr record "output" OutputSection.ofJson? {}
  return ⟨model, training, input, output⟩

/-- The hidden size of the encoder. -/
def encoderSize (c : ModelConfig) : Nat :=
  c.model.hiddenSize.getD c.model.encoderSize

/-- The hidden size of the decoder. -/
def decoderSize (c : ModelConfig) : Nat :=
  c.model.hiddenSize.getD c.model.decoderSize

/-- The size of the beam. Only models that search with a beam have one wider than one. -/
def beamSize (c : ModelConfig) : Nat :=
  if c.model.modelType ∈ ["beamsearch", "beamdecode"] then c.output.beamWidth else 1

/-- The kind of encoding that the configured name stands for. -/
def kind (c : ModelConfig) : Except GrammarError Kind :=
  Kind.ofName? c.output.grammar

/-- The configuration in one line of a report. -/
def summary (c : ModelConfig) : String :=
  "Model " ++ c.model.modelType ++ " (" ++ toString c.model.layers ++ " layers, hidden " ++
    toString c.encoderSize ++ "/" ++ toString c.decoderSize ++ "), beam size " ++
    toString c.beamSize ++ ", grammar " ++ c.output.grammar

end ModelConfig

end ParseBench
