/-
  ParseBench.CommandLine.Command

  The commands of the program and the command lines that stand for them. Names
  of options have underscores, as those of the programs that are wrapped, and
  what follows `--` on the command line of a training or an evaluation is handed
  on to the trainer.
-/

import ParseBench.CommandLine.Argument
import ParseBench.Score.Run
import ParseBench.Training.Evaluate
import ParseBench.Training.Train

namespace ParseBench

/-- What the program is asked to do. -/
inductive Command where
  | train (config : TrainConfig)
  | evaluate (config : EvalConfig)
  /-- Run the functional test, or only show its plan. -/
  | functionalTest (config : Option String) (dryRun : Bool) (datagen decoder : String)
  | score (config : ScoreConfig)
  /-- Tabulate result lines out of a file or the standard input. -/
  | stats (grammar kind : String) (device input : Option String)
  | ruleDistribution (directory dataset : String)
  deriving Repr, Inhabited

/-- Can the command read the standard input? -/
def Command.readsInput : Command → Bool
  | score _ => false
  | stats _ _ _ (some _) => false
  | ruleDistribution .. => false
  | functionalTest _ true _ _ => false
  | _ => true

namespace CommandLine

/-! ## Signatures -/

/-- The arguments of trainings and evaluations. -/
def trainerOptions : List Argument :=
  [{ name := "problem", required := true },
    { name := "model", required := true },
    { name := "hparams" },
    { name := "hparams_set" },
    { name := "data_dir", type := .path, required := true },
    { name := "output_dir", type := .path, required := true },
    { name := "t2t_usr_dir", type := .path },
    { name := "schedule" },
    { name := "curriculum", arity := .switch },
    { name := "lui_problem_prefix", byDefault := some ({} : Family).problemLead },
    { name := "lui_model_prefix", byDefault := some ({} : Family).modelLead },
    { name := "trainer", envName := some "LUINET_TRAINER", byDefault := some "t2t-trainer" }]

/-- The arguments of trainings alone. -/
def perturbOptions : List Argument :=
  [{ name := "perturb_training", arity := .switch },
    { name := "num_loops", type := .natural },
    { name := "num_last_checkpoints", type := .integer, signed := true },
    { name := "averager", envName := some "LUINET_AVERAGER", byDefault := some "t2t-avg-all" }]

/-- The arguments of the command `train`. -/
def trainSignature : Signature where
  options := trainerOptions ++ perturbOptions
  handsOn := true

/-- The arguments of the command `evaluate`. -/
def evaluateSignature : Signature where
  options := trainerOptions
  handsOn := true

/-- The arguments of the command `functional-test`. -/
def functionalTestSignature : Signature where
  options :=
    [{ name := "config", type := .path },
      { name := "dry_run", arity := .switch },
      { name := "datagen", envName := some "LUINET_DATAGEN", byDefault := some "t2t-datagen" },
      { name := "decoder", envName := some "LUINET_DECODER", byDefault := some "t2t-decoder" }]

/-- The arguments of the command `score`. -/
def scoreSignature : Signature where
  options :=
    [{ name := "model_conf", arity := .many, type := .path, byDefault := some "model.json" },
      { name := "results_dir", type := .path, byDefault := some "./workdir/t2t_results" },
      { name := "predictions", type := .path,
        byDefault := some "./workdir/t2t_results/translation.tt" },
      { name := "pre_t2t_data", type := .path, byDefault := some "./dataset/test.tsv" }]

/-- The arguments of the command `stats`. -/
def statsSignature : Signature where
  options :=
    [{ name := "grammar", type := .path, required := true },
      { name := "grammar_type", byDefault := some "bottomup" },
      { name := "device" },
      { name := "input", type := .path }]

/-- The arguments of the command `rule-distribution`. -/
def ruleDistributionSignature : Signature where
  options := []
  positionals :=
    [{ name := "model_dir", type := .path, required := true },
      { name := "dataset", type := .path, required := true }]

/-! ## Values -/

namespace Arguments

/-- The values of an argument. -/
def values (a : Arguments) (name : String) : List String :=
  (a.found.lookup name).getD []

/-- The value of an argument that need not have one. -/
def value? (a : Arguments) (name : String) : Option String :=
  (a.values name).head?

/-- The value of an argument. Only an argument without a default can have none. -/
def value (a : Arguments) (name : String) : String :=
  (a.value? name).getD ""

/-- Is the switch on? -/
def isOn (a : Arguments) (name : String) : Bool :=
  (a.found.lookup name).isSome

/-- The number of loops that a training makes unless another is asked for. -/
def defaultLoops : Nat := 1

/-- The flags of a training or an evaluation without those of perturb training. -/
def flags (a : Arguments) : Flags where
  problem := a.value "problem"
  model := a.value "model"
  hparams := a.value "hparams"
  hparamsSet := a.value? "hparams_set"
  dataDir := a.value "data_dir"
  outputDir := a.value "output_dir"
  userDir := a.value? "t2t_usr_dir"
  schedule := a.value? "schedule"
  curriculum := a.isOn "curriculum"
  perturbTraining := false
  loops := 0
  lastCheckpoints := none
  passthrough := a.trailing

/-- The family that the arguments describe. -/
def family (a : Arguments) : Family :=
  ⟨a.value "lui_problem_prefix", a.value "lui_model_prefix"⟩

/-- The training that the arguments describe. -/
def trainConfig (a : Arguments) : TrainConfig where
  flags :=
    { a.flags with
      perturbTraining := a.isOn "perturb_training"
      loops := ((a.value? "num_loops").bind natural?).getD defaultLoops
      lastCheckpoints := (a.value? "num_last_checkpoints").bind integer? }
  family := a.family
  trainer := a.value "trainer"
  averager := a.value "averager"

/-- The evaluation that the arguments describe. -/
def evalConfig (a : Arguments) : EvalConfig :=
  ⟨a.flags, a.family, a.value "trainer"⟩

/-- The scoring that the arguments describe. -/
def scoreConfig (a : Arguments) : ScoreConfig where
  layers := a.values "model_conf"
  predictions := a.value "predictions"
  dataset := a.value "pre_t2t_data"
  results := a.value "results_dir"

end Arguments

/-! ## Command lines -/

/-- The names of the commands, with their arguments and what these stand for. -/
def commands : List (String × Signature × (Arguments → Command)) :=
  [("train", trainSignature, fun a => .train a.trainConfig),
    ("evaluate", evaluateSignature, fun a => .evaluate a.evalConfig),
    ("functional-test", functionalTestSignature, fun a =>
      .functionalTest (a.value? "config") (a.isOn "dry_run") (a.value "datagen") (a.value "decoder")),
    ("score", scoreSignature, fun a => .score a.scoreConfig),
    ("stats", statsSignature, fun a =>
      .stats (a.value "grammar") (a.value "grammar_type") (a.value? "device") (a.value? "input")),
    ("rule-distribution", ruleDistributionSignature, fun a =>
      .ruleDistribution (a.value "model_dir") (a.value "dataset"))]

/-- The names of the commands with their signatures. -/
def signatures : List (String × Signature) :=
  commands.map fun c => (c.1, c.2.1)

/-- The command that a command line stands for. -/
def parse (reader : Reader) (environment : Environment) (words : List String) :
    Except Usage Command := do
  let (name, arguments) ← reader signatures environment words
  match commands.lookup name with
  | some (_, command) => return command arguments
  | none => .error (.unknownCommand name)

end CommandLine

end ParseBench
