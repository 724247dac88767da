/-
  ParseBench.Training.Plan

  The functional test: a plan of external calls that takes a few training steps
  with every combination of problem, grammar direction, model and hyperparameter
  option, decodes with each trained model, trains once with perturbation and
  ends with the retrieval baseline.
-/

import ParseBench.Json.Tree
import ParseBench.Training.Flags
import ParseBench.Training.Runner

namespace ParseBench

/-- What a functional test is made of. -/
structure PlanConfig where
  workDir : String := "./workdir"
  datasetDir : String := "./dataset"
  userDir : Option String := some "./luinet"
  problems : List String := ["semantic_parsing_for_thingtalk"]
  models : List String := ["luinet_copy_seq2seq", "luinet_copy_transformer"]
  directions : List String := ["bottomup", "topdown"]
  /-- Further hyperparameters, one run for each; an empty option adds none. -/
  hparamsOptions : List String := ["", "pointer_layer=decaying_attentive"]
  hparamsSet : String := "lui_transformer_tiny"
  trainSteps : Nat := 2
  evalSteps : Nat := 2
  decodeHparams : String := "beam_size=1,return_beams=false"
  retrievalProgram : String := "python3"
  retrievalScript : String := "./luinet/scripts/retrieval.py"
  deriving DecidableEq, Repr, Inhabited

namespace PlanConfig

/-! ## Reading -/

/-- The fields of a configuration file, in order. -/
def fieldNames : List String :=
  ["workdir", "dataset_dir", "t2t_usr_dir", "problems", "models", "grammar_directions",
    "hparams_options", "hparams_set", "train_steps", "eval_steps", "decode_hparams",
    "retrieval_program", "retrieval_script"]

/-- Reads a configuration file. Fields that are not there keep their defaults. -/
def ofText? (json : Json.Reader) (s : String) : Option PlanConfig := do
  let tree ← json s
  let record ← tree.record? fieldNames
  let field {α : Type} (name : String) (read : Json → Option α) (default : α) : Option α :=
    match record name with
    | some t => (t.value? Json.maxDepth).bind read
    | none => some default
  let d : PlanConfig := {}
  let text := Json.asString?
  let texts := Json.list? Json.asString?
  let workDir ← field "workdir" text d.workDir
  let datasetDir ← field "dataset_dir" text d.datasetDir
  let userDir ← field "t2t_usr_dir" (Json.optional? text) d.userDir
  let problems ← field "problems" texts d.problems
  let models ← field "models" texts d.models
  let directions ← field "grammar_directions" texts d.directions
  let hparamsOptions ← field "hparams_options" texts d.hparamsOptions
  let hparamsSet ← field "hparams_set" text d.hparamsSet
  let trainSteps ← field "train_steps" Json.asNat? d.trainSteps
  let evalSteps ← field "eval_steps" Json.asNat? d.evalSteps
  let decodeHparams ← field "decode_hparams" text d.decodeHparams
  let retrievalProgram ← field "retrieval_program" text d.retrievalProgram
  let retrievalScript ← field "retrieval_script" text d.retrievalScript
  return ⟨workDir, datasetDir, userDir, problems, models, directions, hparamsOptions, hparamsSet,
    trainSteps, evalSteps, decodeHparams, retrievalProgram, retrievalScript⟩

end PlanConfig

/-! ## Steps -/

/-- The programs that a plan calls. -/
structure PlanPrograms where
  trainer : String
  datagen : String
  decoder : String
  deriving DecidableEq, Repr, Inhabited

/-- A named call. -/
structure PlanStep where
  label : String
  invocation : Invocation
  deriving DecidableEq, Repr, Inhabited

/-- The lines that show a step without running it. -/
def PlanStep.preview (s : PlanStep) : String :=
  "# " ++ s.label ++ "\n" ++ s.invocation.display ++ "\n"

/-- One combination of the grid: the names in it and the place of its option. -/
structure GridRun where
  problem : String
  direction : String
  model : String
  option : String
  index : Nat
  deriving DecidableEq, Repr, Inhabited

/-- A configuration and the programs to call. -/
structure Plan where
  config : PlanConfig
  programs : PlanPrograms
  deriving DecidableEq, Repr, Inhabited

namespace Plan

/-- The data directory of a problem. -/
def dataDir (p : Plan) (problem : String) : String :=
  Path.join (Path.join p.config.workDir problem) "data"

/-- The directory of a problem's model below which its runs write. -/
def modelDir (p : Plan) (problem model : String) : String :=
  Path.join (Path.join p.config.workDir problem) model

/-- The argument for the directory with further problems and models. -/
def userDirArgument (p : Plan) : List String :=
  p.config.userDir.toList.map ("--t2t_usr_dir=" ++ ·)

/-- The call that generates the data of a problem. -/
def datagen (p : Plan) (problem : String) : PlanStep where
  label := "datagen " ++ problem
  invocation := ⟨p.programs.datagen,
    ["--problem=" ++ problem, "--data_dir=" ++ p.dataDir problem,
      "--tmp_dir=" ++ p.config.datasetDir] ++ p.userDirArgument⟩

/-- The arguments that training and decoding share. -/
def runArguments (p : Plan) (problem model hparams outputDir : String) : List String :=
  ["--problem=" ++ problem, "--model=" ++ model, "--hparams_set=" ++ p.config.hparamsSet,
    "--hparams=" ++ hparams, "--data_dir=" ++ p.dataDir problem, "--output_dir=" ++ outputDir]

/-- The call that trains a model, with further flags before the step counts. -/
def trainCall (p : Plan) (problem model hparams outputDir : String) (extra : List String) :
    Invocation :=
  ⟨p.programs.trainer,
    "train" :: p.runArguments problem model hparams outputDir ++ p.userDirArgument ++ extra ++
      ["--", "--train_steps=" ++ toString p.config.trainSteps,
        "--eval_steps=" ++ toString p.config.evalSteps]⟩

/-- The hyperparameters of a grid run. -/
def hparams (run : GridRun) : String :=
  normalizeHparams ("grammar_direction=" ++ run.direction ++ "," ++ run.option)

/-- The output directory of a grid run. -/
def outputDir (p : Plan) (run : GridRun) : String :=
  Path.join (p.modelDir run.problem run.model) (run.direction ++ "-" ++ toString run.index)

/-- The name of a grid run in labels. -/
def runName (run : GridRun) : String :=
  run.problem ++ " " ++ run.model ++ " " ++ run.direction ++ " #" ++ toString run.index

/-- The step that trains in a grid run. -/
def trainStep (p : Plan) (run : GridRun) : PlanStep where
  label := "train " ++ runName run
  invocation := p.trainCall run.problem run.model (hparams run) (p.outputDir run) []

/-- The step that decodes with the model of a grid run. -/
def decodeStep (p : Plan) (run : GridRun) : PlanStep where
  label := "decode " ++ runName run
  invocation := ⟨p.programs.decoder,
    p.runArguments run.problem run.model (hparams run) (p.outputDir run) ++
      ["--decode_hparams=" ++ p.config.decodeHparams,
        "--decode_to_file=" ++ Path.join (p.outputDir run) "results.tt"] ++ p.userDirArgument⟩

/-- The grid runs of a problem: by direction, then model, then option. -/
def gridRuns (p : Plan) (problem : String) : List GridRun :=
  p.config.directions.flatMap fun direction =>
    p.config.models.flatMap fun model =>
      p.config.hparamsOptions.zipIdx.map fun option =>
        { problem, direction, model, option := option.1, index := option.2 }

/-- The steps of a problem. -/
def problemSteps (p : Plan) (problem : String) : List PlanStep :=
  p.datagen problem :: (p.gridRuns problem).flatMap fun run => [p.trainStep run, p.decodeStep run]

/-- The step that trains with perturbation, on the first combination of the grid. -/
def perturbSteps (p : Plan) : List PlanStep :=
  match p.config.problems, p.config.models, p.config.directions with
  | problem :: _, model :: _, direction :: _ =>
    [{ label := "perturb-train " ++ problem ++ " " ++ model
       invocation := p.trainCall problem model ("grammar_direction=" ++ direction)
         (Path.join (p.modelDir problem model) "perturb")
         ["--perturb_training", "--num_loops", "1"] }]
  | _, _, _ => []

/-- The step that runs the retrieval baseline. -/
def retrievalStep (p : Plan) : PlanStep where
  label := "retrieval baseline"
  invocation := ⟨p.config.retrievalProgram,
    [p.config.retrievalScript,
      "--train_file=" ++ Path.join p.config.datasetDir "train.tsv",
      "--test_file=" ++ Path.join p.config.datasetDir "eval.tsv"]⟩

/-- Every step in the order in which it is run. -/
def steps (p : Plan) : List PlanStep :=
  p.config.problems.flatMap p.problemSteps ++ p.perturbSteps ++ [p.retrievalStep]

end Plan

end ParseBench
