/-
  ParseBench.Proofs.Training.FunctionalTest

  The plan of a functional test, step by step, and how it is run. Every step of the plan
  has its place (`Laid`): each problem takes a block of steps, and within the block each
  combination of direction, model and option takes two places next to each other, as the
  blocks of a list of blocks of one length (`getElem?_flatMap_block`). The two calls of
  a combination are given the same options (`given_runOptions`). A run makes the calls of
  the plan in this order and stops at the first that fails (`run_follows_steps`).
-/

import Mathlib.Data.List.Basic
import ParseBench.Proofs.CommandLine.Written
import ParseBench.Proofs.Training.Recording
import ParseBench.Training.FunctionalTest

namespace ParseBench

open CommandLine (written given given_append given_cons_of_none given_cons_dashes given_eq_nil
  given_of_sublist)

/-! ## Lists of blocks -/

section

variable {α β : Type} {l : List α} {f : α → List β} {size : Nat}

theorem length_flatMap_block (h : ∀ a ∈ l, (f a).length = size) :
    (l.flatMap f).length = l.length * size := by
  induction l with
  | nil => simp
  | cons a l ih =>
      obtain ⟨ha, hl⟩ := List.forall_mem_cons.1 h
      rw [List.flatMap_cons, List.length_append, ha, ih hl, List.length_cons, Nat.succ_mul,
        Nat.add_comm]

theorem block_lt {i j n : Nat} (hi : i < n) (hj : j < size) : i * size + j < n * size :=
  calc i * size + j < i * size + size := Nat.add_lt_add_left hj _
    _ = (i + 1) * size := (Nat.succ_mul i size).symm
    _ ≤ n * size := Nat.mul_le_mul_right size hi

/-- Place `j` of block `i`. -/
theorem getElem?_flatMap_block (h : ∀ a ∈ l, (f a).length = size) {i j : Nat} {a : α}
    (ha : l[i]? = some a) (hj : j < size) : (l.flatMap f)[i * size + j]? = (f a)[j]? := by
  induction l generalizing i with
  | nil => cases ha
  | cons b l ih =>
      obtain ⟨hb, hl⟩ := List.forall_mem_cons.1 h
      rw [List.flatMap_cons]
      cases i with
      | zero =>
          cases ha
          rw [Nat.zero_mul, Nat.zero_add, List.getElem?_append_left (by omega)]
      | succ i =>
          have hplace : (i + 1) * size + j = size + (i * size + j) := by
            rw [Nat.succ_mul]
            omega
          rw [hplace, List.getElem?_append_right (by omega), hb, Nat.add_sub_cancel_left]
          exact ih hl ha

end

namespace Plan

variable {σ : Type} {runner : Runner σ} (p : Plan)

/-! ## The places of the steps -/

/-- The number of combinations for each problem. -/
def gridSize : Nat :=
  p.config.directions.length * p.config.models.length * p.config.hparamsOptions.length

/-- The number of steps for each problem. -/
def problemSize : Nat := 1 + 2 * p.gridSize

/-- The place of a combination among those of its problem. -/
def gridPlace (d m h : Nat) : Nat :=
  (d * p.config.models.length + m) * p.config.hparamsOptions.length + h

/-- Is there a combination to train with perturbation, whatever its option? -/
def Perturbs : Prop :=
  p.config.problems ≠ [] ∧ p.config.models ≠ [] ∧ p.config.directions ≠ []

instance : Decidable p.Perturbs :=
  inferInstanceAs (Decidable (_ ∧ _ ∧ _))

/-- The step that trains with perturbation. -/
def perturbStep (problem model direction : String) : PlanStep where
  label := "perturb-train " ++ problem ++ " " ++ model
  invocation := p.trainCall problem model ("grammar_direction=" ++ direction)
    (Path.join (p.modelDir problem model) "perturb") ["--perturb_training", "--num_loops", "1"]

/-- The steps of a plan in their places. -/
structure Laid (steps : List PlanStep) : Prop where
  length : steps.length =
    p.config.problems.length * p.problemSize + (if p.Perturbs then 1 else 0) + 1
  datagen : ∀ i problem, p.config.problems[i]? = some problem →
    steps[i * p.problemSize]? = some (p.datagen problem)
  grid : ∀ i d m h problem direction model option, p.config.problems[i]? = some problem →
    p.config.directions[d]? = some direction → p.config.models[m]? = some model →
    p.config.hparamsOptions[h]? = some option →
    steps[i * p.problemSize + (1 + 2 * p.gridPlace d m h)]? =
        some (p.trainStep ⟨problem, direction, model, option, h⟩) ∧
      steps[i * p.problemSize + (1 + 2 * p.gridPlace d m h) + 1]? =
        some (p.decodeStep ⟨problem, direction, model, option, h⟩)
  perturb : ∀ problem direction model, p.config.problems.head? = some problem →
    p.config.directions.head? = some direction → p.config.models.head? = some model →
    steps[p.config.problems.length * p.problemSize]? =
      some (p.perturbStep problem model direction)
  retrieval : steps.getLast? = some ⟨"retrieval baseline", p.config.retrievalProgram,
    [p.config.retrievalScript,
      "--train_file=" ++ Path.join p.config.datasetDir "train.tsv",
      "--test_file=" ++ Path.join p.config.datasetDir "eval.tsv"]⟩

theorem length_modelRuns (problem direction model : String) :
    (p.config.hparamsOptions.zipIdx.map fun option =>
      (⟨problem, direction, model, option.1, option.2⟩ : GridRun)).length =
        p.config.hparamsOptions.length := by
  rw [List.length_map, List.length_zipIdx]

theorem length_directionRuns (problem direction : String) :
    (p.config.models.flatMap fun model =>
      p.config.hparamsOptions.zipIdx.map fun option =>
        (⟨problem, direction, model, option.1, option.2⟩ : GridRun)).length =
          p.config.models.length * p.config.hparamsOptions.length :=
  length_flatMap_block fun model _ => p.length_modelRuns problem direction model

theorem length_gridRuns (problem : String) : (p.gridRuns problem).length = p.gridSize := by
  rw [gridSize, Nat.mul_assoc]
  exact length_flatMap_block fun direction _ => p.length_directionRuns problem direction

theorem getElem?_gridRuns {problem direction model option : String} {d m h : Nat}
    (hd : p.config.directions[d]? = some direction) (hm : p.config.models[m]? = some model)
    (hh : p.config.hparamsOptions[h]? = some option) :
    (p.gridRuns problem)[p.gridPlace d m h]? = some ⟨problem, direction, model, option, h⟩ := by
  have hlt : h < p.config.hparamsOptions.length := (List.getElem?_eq_some_iff.1 hh).1
  -- a block for each direction, and within it a block for each model
  have hplace : p.gridPlace d m h =
      d * (p.config.models.length * p.config.hparamsOptions.length) +
        (m * p.config.hparamsOptions.length + h) := by
    rw [gridPlace, Nat.add_mul, Nat.mul_assoc, Nat.add_assoc]
  rw [hplace, gridRuns,
    getElem?_flatMap_block (fun direction _ => p.length_directionRuns problem direction) hd
      (block_lt (List.getElem?_eq_some_iff.1 hm).1 hlt),
    getElem?_flatMap_block (fun model _ => p.length_modelRuns problem direction model) hm hlt]
  simp [hh]

theorem mem_of_mem_gridRuns {problem : String} {run : GridRun} (hrun : run ∈ p.gridRuns problem) :
    run.direction ∈ p.config.directions ∧ run.option ∈ p.config.hparamsOptions := by
  simp only [gridRuns, List.mem_flatMap, List.mem_map] at hrun
  obtain ⟨direction, hdirection, model, -, ⟨option, index⟩, hoption, rfl⟩ := hrun
  exact ⟨hdirection, List.fst_mem_of_mem_zipIdx hoption⟩

theorem length_runSteps (problem : String) :
    ∀ run ∈ p.gridRuns problem, [p.trainStep run, p.decodeStep run].length = 2 :=
  fun _ _ => rfl

theorem length_problemSteps (problem : String) :
    (p.problemSteps problem).length = p.problemSize := by
  rw [problemSteps, List.length_cons, length_flatMap_block (p.length_runSteps problem),
    p.length_gridRuns, problemSize]
  omega

theorem length_problemBlocks :
    (p.config.problems.flatMap p.problemSteps).length = p.config.problems.length * p.problemSize :=
  length_flatMap_block fun problem _ => p.length_problemSteps problem

theorem getElem?_problemSteps {problem : String} {k : Nat} {run : GridRun}
    (hrun : (p.gridRuns problem)[k]? = some run) :
    (p.problemSteps problem)[1 + 2 * k]? = some (p.trainStep run) ∧
      (p.problemSteps problem)[1 + 2 * k + 1]? = some (p.decodeStep run) := by
  have hpair : ∀ j < 2, ((p.gridRuns problem).flatMap fun run =>
      [p.trainStep run, p.decodeStep run])[k * 2 + j]? = [p.trainStep run, p.decodeStep run][j]? :=
    fun j hj => getElem?_flatMap_block (p.length_runSteps problem) hrun hj
  have htrain := hpair 0 (by omega)
  have hdecode := hpair 1 (by omega)
  -- the one step before the pairs is the generation of the data
  rw [problemSteps, show 1 + 2 * k = k * 2 + 0 + 1 by omega, List.getElem?_cons_succ,
    List.getElem?_cons_succ]
  exact ⟨htrain, hdecode⟩

theorem getElem?_steps {problem : String} {i j : Nat}
    (hproblem : p.config.problems[i]? = some problem) (hj : j < p.problemSize) :
    p.steps[i * p.problemSize + j]? = (p.problemSteps problem)[j]? := by
  have hlength := p.length_problemBlocks
  have hlt := block_lt (List.getElem?_eq_some_iff.1 hproblem).1 hj
  rw [steps, List.append_assoc, List.getElem?_append_left (by omega)]
  exact getElem?_flatMap_block (fun problem _ => p.length_problemSteps problem) hproblem hj

theorem perturbSteps_of_cons {problem model direction : String}
    {problems models directions : List String} (hproblems : p.config.problems = problem :: problems)
    (hmodels : p.config.models = model :: models)
    (hdirections : p.config.directions = direction :: directions) :
    p.perturbSteps = [p.perturbStep problem model direction] := by
  rw [perturbSteps, hproblems, hmodels, hdirections]
  rfl

theorem exists_eq_perturbStep {s : PlanStep} (hs : s ∈ p.perturbSteps) :
    ∃ problem model direction, s = p.perturbStep problem model direction := by
  unfold perturbSteps at hs
  split at hs
  · exact ⟨_, _, _, List.mem_singleton.1 hs⟩
  · cases hs

theorem perturbSteps_of_not_perturbs (h : ¬ p.Perturbs) : p.perturbSteps = [] := by
  unfold perturbSteps
  split
  · next hproblems hmodels hdirections =>
      exact absurd ⟨by simp [hproblems], by simp [hmodels], by simp [hdirections]⟩ h
  · rfl

theorem length_perturbSteps : p.perturbSteps.length = if p.Perturbs then 1 else 0 := by
  split
  · next h =>
      obtain ⟨hproblems, hmodels, hdirections⟩ := h
      obtain ⟨problem, problems, hproblems⟩ := List.exists_cons_of_ne_nil hproblems
      obtain ⟨model, models, hmodels⟩ := List.exists_cons_of_ne_nil hmodels
      obtain ⟨direction, directions, hdirections⟩ := List.exists_cons_of_ne_nil hdirections
      rw [p.perturbSteps_of_cons hproblems hmodels hdirections]
      rfl
  · next h =>
      rw [p.perturbSteps_of_not_perturbs h]
      rfl

theorem laid_steps : p.Laid p.steps := by
  have hlength := p.length_problemBlocks
  constructor
  case length =>
    rw [steps, List.length_append, List.length_append, hlength, p.length_perturbSteps,
      List.length_singleton]
  case datagen =>
    intro i problem hproblem
    exact p.getElem?_steps hproblem (j := 0) (by unfold problemSize; omega)
  case grid =>
    intro i d m h problem direction model option hproblem hd hm hh
    have hrun : (p.gridRuns problem)[p.gridPlace d m h]? =
        some ⟨problem, direction, model, option, h⟩ := p.getElem?_gridRuns hd hm hh
    have hlt : p.gridPlace d m h < p.gridSize := by
      rw [← p.length_gridRuns problem]
      exact (List.getElem?_eq_some_iff.1 hrun).1
    obtain ⟨htrain, hdecode⟩ := p.getElem?_problemSteps hrun
    rw [Nat.add_assoc, p.getElem?_steps hproblem (by unfold problemSize; omega),
      p.getElem?_steps hproblem (by unfold problemSize; omega)]
    exact ⟨htrain, hdecode⟩
  case perturb =>
    intro problem direction model hproblem hdirection hmodel
    obtain ⟨problems, hproblems⟩ := List.head?_eq_some_iff.1 hproblem
    obtain ⟨directions, hdirections⟩ := List.head?_eq_some_iff.1 hdirection
    obtain ⟨models, hmodels⟩ := List.head?_eq_some_iff.1 hmodel
    rw [steps, List.append_assoc, List.getElem?_append_right (by omega), hlength, Nat.sub_self,
      p.perturbSteps_of_cons hproblems hmodels hdirections]
    rfl
  case retrieval =>
    rw [steps, List.getLast?_concat]
    rfl

/-- The two steps of a grid run stand next to each other. -/
theorem infix_steps {problem : String} (hproblem : problem ∈ p.config.problems) {run : GridRun}
    (hrun : run ∈ p.gridRuns problem) : [p.trainStep run, p.decodeStep run] <:+: p.steps := by
  have hpair : [p.trainStep run, p.decodeStep run] <:+:
      (p.gridRuns problem).flatMap fun run => [p.trainStep run, p.decodeStep run] := by
    rw [List.flatMap_def]
    exact List.infix_of_mem_flatten (List.mem_map.2 ⟨run, hrun, rfl⟩)
  have hblock : p.problemSteps problem <:+: p.config.problems.flatMap p.problemSteps := by
    rw [List.flatMap_def]
    exact List.infix_of_mem_flatten (List.mem_map.2 ⟨problem, hproblem, rfl⟩)
  rw [steps, List.append_assoc]
  exact (hpair.trans (List.suffix_cons _ _).isInfix).trans
    (hblock.trans (List.prefix_append _ _).isInfix)

/-! ## What the steps are given -/

/-- The options that the plan writes in every call of a problem's runs. -/
def coreOptions (problem model hparams outputDir : String) : List (String × String) :=
  [("problem", problem), ("model", model), ("hparams_set", p.config.hparamsSet),
    ("hparams", hparams), ("data_dir", p.dataDir problem), ("output_dir", outputDir)]

/-- The option for the directory with further problems and models. -/
def userDirOptions : List (String × String) :=
  p.config.userDir.toList.map (("t2t_usr_dir", ·))

/-- The options that training and decoding share. -/
def runOptions (run : GridRun) : List (String × String) :=
  p.coreOptions run.problem run.model (hparams run) (p.outputDir run) ++ p.userDirOptions

/-- The options of decoding alone. -/
def decodeOptions (run : GridRun) : List (String × String) :=
  [("decode_hparams", p.config.decodeHparams),
    ("decode_to_file", Path.join (p.outputDir run) "results.tt")]

/-- The options that are handed on to the trainer. -/
def trainerOptions : List (String × String) :=
  [("train_steps", toString p.config.trainSteps), ("eval_steps", toString p.config.evalSteps)]

theorem userDirArgument_eq : p.userDirArgument = p.userDirOptions.map written := by
  rw [userDirArgument, userDirOptions, List.map_map]
  rfl

theorem trainCall_arguments (problem model hparams outputDir : String) (extra : List String) :
    (p.trainCall problem model hparams outputDir extra).arguments =
      "train" :: (p.coreOptions problem model hparams outputDir ++ p.userDirOptions).map written ++
        (extra ++ "--" :: p.trainerOptions.map written) := by
  rw [List.map_append, ← userDirArgument_eq, List.cons_append, List.append_assoc]
  simp only [trainCall, List.cons_append, List.append_assoc]
  rfl

theorem decodeStep_arguments (run : GridRun) :
    (p.decodeStep run).invocation.arguments =
      (p.coreOptions run.problem run.model (hparams run) (p.outputDir run) ++
        p.decodeOptions run ++ p.userDirOptions).map written := by
  rw [List.map_append, List.map_append, ← userDirArgument_eq]
  rfl

theorem datagen_arguments (problem : String) :
    (p.datagen problem).invocation.arguments =
      ([("problem", problem), ("data_dir", p.dataDir problem), ("tmp_dir", p.config.datasetDir)] ++
        p.userDirOptions).map written := by
  rw [List.map_append, ← userDirArgument_eq]
  rfl

theorem userDirOptions_sublist : (p.userDirOptions.map Prod.fst).Sublist ["t2t_usr_dir"] := by
  unfold userDirOptions
  cases p.config.userDir with
  | none => exact List.nil_sublist _
  | some dir => exact List.Sublist.refl _

/-- The names of the options that training and decoding share. -/
def sharedNames : List String :=
  ["problem", "model", "hparams_set", "hparams", "data_dir", "output_dir", "t2t_usr_dir"]

theorem sharedOptions_sublist (problem model hparams outputDir : String) :
    ((p.coreOptions problem model hparams outputDir ++ p.userDirOptions).map Prod.fst).Sublist
      sharedNames := by
  rw [List.map_append]
  exact (List.Sublist.refl _).append p.userDirOptions_sublist

theorem runOptions_sublist (run : GridRun) :
    ((p.runOptions run).map Prod.fst).Sublist sharedNames :=
  p.sharedOptions_sublist _ _ _ _

theorem given_runOptions {run : GridRun} {o : String × String} (ho : o ∈ p.runOptions run) :
    given o.1 ((p.runOptions run).map written) = [o.2] :=
  given_of_sublist (p.runOptions_sublist run) (by decide) (by decide) ho

theorem mem_sharedNames {run : GridRun} {o : String × String} (ho : o ∈ p.runOptions run) :
    o.1 ∈ sharedNames :=
  (p.runOptions_sublist run).subset (List.mem_map.2 ⟨o, ho, rfl⟩)

/-- The options for the trainer have names of their own. -/
theorem given_trainerOptions {name : String} (hname : name ∈ sharedNames) :
    given name (p.trainerOptions.map written) = [] := by
  have hnames : p.trainerOptions.map Prod.fst = ["train_steps", "eval_steps"] := rfl
  have hother : ∀ name ∈ sharedNames, name ∉ ["train_steps", "eval_steps"] := by decide
  exact given_eq_nil hnames (by decide) (hother name hname)

/-- The options of decoding alone have names of their own. -/
theorem given_decodeOptions (run : GridRun) {name : String} (hname : name ∈ sharedNames) :
    given name ((p.decodeOptions run).map written) = [] := by
  have hnames : (p.decodeOptions run).map Prod.fst = ["decode_hparams", "decode_to_file"] := rfl
  have hother : ∀ name ∈ sharedNames, name ∉ ["decode_hparams", "decode_to_file"] := by decide
  exact given_eq_nil hnames (by decide) (hother name hname)

/-- What a training shares with a decoding is not said again after it. -/
theorem given_trainCall_eq (problem model hparams outputDir : String) {extra : List String}
    {name : String} (hname : name ∈ sharedNames) (hextra : given name extra = []) :
    given name (p.trainCall problem model hparams outputDir extra).arguments =
      given name ((p.coreOptions problem model hparams outputDir ++ p.userDirOptions).map
        written) := by
  rw [trainCall_arguments, List.cons_append, given_cons_of_none rfl, given_append, given_append,
    hextra, given_cons_dashes, p.given_trainerOptions hname, List.append_nil, List.append_nil]

theorem given_trainStep_eq (run : GridRun) {name : String} (hname : name ∈ sharedNames) :
    given name (p.trainStep run).invocation.arguments =
      given name ((p.runOptions run).map written) :=
  p.given_trainCall_eq _ _ _ _ hname rfl

/-- The training with perturbation is given one value for each of these options, too. -/
theorem given_perturbStep (problem model direction : String) {o : String × String}
    (ho : o ∈ p.coreOptions problem model ("grammar_direction=" ++ direction)
      (Path.join (p.modelDir problem model) "perturb") ++ p.userDirOptions) :
    given o.1 (p.perturbStep problem model direction).invocation.arguments = [o.2] := by
  have hname : o.1 ∈ sharedNames :=
    (p.sharedOptions_sublist _ _ _ _).subset (List.mem_map.2 ⟨o, ho, rfl⟩)
  have hextra : ∀ name ∈ sharedNames,
      given name ["--perturb_training", "--num_loops", "1"] = [] := by decide +kernel
  have hcall : (p.perturbStep problem model direction).invocation =
      p.trainCall problem model ("grammar_direction=" ++ direction)
        (Path.join (p.modelDir problem model) "perturb")
        ["--perturb_training", "--num_loops", "1"] := rfl
  rw [hcall, p.given_trainCall_eq problem model _ _ hname (hextra o.1 hname)]
  exact given_of_sublist (p.sharedOptions_sublist _ _ _ _) (by decide) (by decide) ho

theorem given_decodeStep_eq (run : GridRun) {name : String} (hname : name ∈ sharedNames) :
    given name (p.decodeStep run).invocation.arguments =
      given name ((p.runOptions run).map written) := by
  rw [decodeStep_arguments, runOptions, List.map_append, List.map_append, given_append,
    given_append, p.given_decodeOptions run hname, List.append_nil, List.map_append, given_append]

theorem given_datagen (problem : String) :
    given "data_dir" (p.datagen problem).invocation.arguments = [p.dataDir problem] := by
  rw [datagen_arguments]
  have hsub : (([("problem", problem), ("data_dir", p.dataDir problem),
      ("tmp_dir", p.config.datasetDir)] ++ p.userDirOptions).map Prod.fst).Sublist
      ["problem", "data_dir", "tmp_dir", "t2t_usr_dir"] := by
    rw [List.map_append]
    exact (List.Sublist.refl _).append p.userDirOptions_sublist
  have hmem : ("data_dir", p.dataDir problem) ∈ [("problem", problem),
      ("data_dir", p.dataDir problem), ("tmp_dir", p.config.datasetDir)] ++ p.userDirOptions :=
    List.mem_append_left _ (.tail _ (.head _))
  exact given_of_sublist hsub (by decide) (by decide) hmem

/-! ## The run -/

/-- The call of a step, which needs no directory made for it. -/
def plannedCall (s : PlanStep) : PlannedCall := ⟨none, s.invocation⟩

theorem runSteps_followsPlan (hrunner : runner.Plain) (total number : Nat)
    (steps : List PlanStep) :
    (runSteps runner.recorded total number steps).FollowsPlan (steps.map plannedCall) := by
  induction steps generalizing number with
  | nil => exact .pure
  | cons s steps ih =>
      rw [List.map_cons]
      exact .cons (.after_report _ _ (.within _ (.runChecked hrunner _))) (ih (number + 1))

theorem run_followsPlan (hrunner : runner.Plain) :
    (p.run runner.recorded).FollowsPlan (p.steps.map plannedCall) := by
  rw [← List.append_nil (p.steps.map plannedCall)]
  exact (runSteps_followsPlan hrunner _ _ _).bind (.report _ _)

theorem runSteps_mirrors (runner : Runner σ) (total number : Nat) (steps : List PlanStep) :
    Run.Mirrors (runSteps runner.recorded total number steps)
      (runSteps runner total number steps) := by
  induction steps generalizing number with
  | nil => exact .pure ()
  | cons s steps ih =>
      refine .bind (.bind (.report _ _) fun _ => ?_) fun _ => ih (number + 1)
      exact .within _ (.runChecked runner _)

theorem run_mirrors (runner : Runner σ) : Run.Mirrors (p.run runner.recorded) (p.run runner) :=
  (runSteps_mirrors runner _ _ _).bind fun _ => .report _ _

theorem invocation_plannedCall (steps : List PlanStep) :
    (steps.map plannedCall).map PlannedCall.invocation = steps.map PlanStep.invocation := by
  rw [List.map_map]
  rfl

/-- A failure is that of the last step that was run. -/
theorem error_of_follows {steps : List PlanStep} {t t' : FileTree} {e : Error} {calls : List Call}
    (h : Follows (steps.map plannedCall) t (.error e) calls t') :
    ∃ before last, calls = before ++ [last] ∧ (∀ call ∈ before, call.Succeeded) ∧
      ¬ last.Succeeded ∧ e.exitCode = last.code := by
  refine h.error_cases.resolve_right ?_
  -- a call that fails before it is made lacks a directory, and these calls need none
  rintro ⟨planned, hplanned, -, hready, -⟩
  obtain ⟨s, -, rfl⟩ := List.mem_map.1 (List.mem_of_getElem? hplanned)
  exact hready rfl

/-- The plan has a block of steps for each problem, in order: the generation of its data, and for
    each combination a training and right after it a decoding that are given the same options, the
    directory of the generated data among them. After the blocks comes a training with
    perturbation if there is a combination, and last the retrieval baseline. A run makes these
    calls in order, up to the first that does not end with zero. It ends well just when all were
    made and did, and otherwise with the exit code of the last one. -/
theorem run_follows_steps (hrunner : runner.Plain) (s : Session σ) :
    p.Laid p.steps ∧
      (∀ run, ∀ o ∈ p.runOptions run,
        given o.1 (p.trainStep run).invocation.arguments = [o.2] ∧
          given o.1 (p.decodeStep run).invocation.arguments = [o.2]) ∧
      (∀ problem, given "data_dir" (p.datagen problem).invocation.arguments =
        [p.dataDir problem]) ∧
      ∃ result calls,
        (p.run runner.recorded).record s = (result, calls) ∧
        (p.run runner).perform s =
          (result, ((p.run runner.recorded).perform s.recording).2.unrecorded) ∧
        calls.map Call.invocation <+: p.steps.map PlanStep.invocation ∧
        (result = .ok () ↔
          calls.map Call.invocation = p.steps.map PlanStep.invocation ∧
            ∀ call ∈ calls, call.Succeeded) ∧
        ∀ e, result = .error e → ∃ before last, calls = before ++ [last] ∧
          (∀ call ∈ before, call.Succeeded) ∧ ¬ last.Succeeded ∧ e.exitCode = last.code := by
  obtain ⟨result, calls, hrecord⟩ : ∃ result calls,
      (p.run runner.recorded).record s = (result, calls) := ⟨_, _, rfl⟩
  have hperform := p.run_mirrors runner s.recording
  rw [show ((p.run runner.recorded).perform s.recording).1 = result from
    congrArg Prod.fst hrecord] at hperform
  obtain ⟨t, hfollows⟩ := (p.run_followsPlan hrunner).record hrecord
  have hprefix := hfollows.isPrefix
  have hok := hfollows.ok_iff
  rw [invocation_plannedCall] at hprefix hok
  refine ⟨p.laid_steps, fun run o ho => ⟨?_, ?_⟩, p.given_datagen, result, calls, hrecord, hperform,
    hprefix, hok, ?_⟩
  · rw [p.given_trainStep_eq run (p.mem_sharedNames ho), p.given_runOptions ho]
  · rw [p.given_decodeStep_eq run (p.mem_sharedNames ho), p.given_runOptions ho]
  · rintro e rfl
    exact error_of_follows hfollows

/-- The functional test as it is by default. -/
def defaults : Plan := ⟨{}, ⟨"luinet", "t2t-datagen", "t2t-decoder"⟩⟩

theorem run_follows_steps_defaults :
    Rehearsal.runner.Plain ∧ defaults.Perturbs ∧ defaults.steps.length = 19 ∧
      ∃ e before last, (defaults.run Rehearsal.runner.recorded).record
          (.start {} .empty ⟨[some 0, some 0, some 7], []⟩) = (.error e, before ++ [last]) ∧
        before.length = 2 ∧ (∀ call ∈ before, call.Succeeded) ∧ ¬ last.Succeeded ∧
        last.code = 7 ∧ e.exitCode = 7 := by
  let s : Session Rehearsal := .start {} .empty ⟨[some 0, some 0, some 7], []⟩
  obtain ⟨hlaid, -, -, result, calls, hrecord, -, -, -, herror⟩ :=
    defaults.run_follows_steps Rehearsal.runner_plain s
  have hperturbs : defaults.Perturbs := by decide
  have hlength : defaults.steps.length = 19 := by
    rw [hlaid.length, if_pos hperturbs]
    decide
  have hresult : ((defaults.run Rehearsal.runner.recorded).record s).1 =
      .error ⟨[.planStep "decode semantic_parsing_for_thingtalk luinet_copy_seq2seq bottomup #0"],
        .externalFailure "t2t-decoder" 7⟩ := by decide +kernel
  have hcount : ((defaults.run Rehearsal.runner.recorded).record s).2.length = 3 := by
    decide +kernel
  rw [hrecord] at hresult hcount
  obtain ⟨before, last, rfl, hbefore, hnot, hcode⟩ := herror _ hresult
  rw [List.length_append, List.length_singleton] at hcount
  obtain rfl := hresult
  exact ⟨Rehearsal.runner_plain, hperturbs, hlength, _, before, last, hrecord, by omega, hbefore,
    hnot, hcode.symm, rfl⟩

end Plan

end ParseBench
