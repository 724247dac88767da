/-
  ParseBench.Proofs.Training.OutputDirectories

  Where the steps of a functional test write. A training has a directory of its own: the names
  along its path are those of the working directory, then problem and model, and then a name
  that is made of the direction and the number of the option (`names_outputDir`). The last
  hyphen of that name tells the two apart again (`indexed_injective`), and the directory of the
  training with perturbation has none in its name. A decoding stands right behind a training and
  writes into its directory; lists of steps for which this holds may be put together
  (`Paired.append`), so it holds for the plan.
-/

import Mathlib.Data.List.Nodup
import Mathlib.Data.List.ProdSigma
import ParseBench.Proofs.Files.Path
import ParseBench.Proofs.Training.FunctionalTest

namespace ParseBench

open CommandLine (given written given_of_sublist)

/-- Names that directories can be told apart by: none comes twice, and each is one step along a
    path. -/
structure Path.AreParts (names : List String) : Prop where
  nodup : names.Nodup
  isPart : ∀ name ∈ names, IsPart name

/-! ## Kinds of steps -/

namespace PlanStep

/-- What a step does, in one word: the first one of its label. -/
def kind (s : PlanStep) : String :=
  String.ofList (s.label.toList.takeWhile (· ≠ ' '))

theorem kind_of_label {s : PlanStep} {word lead rest : String} (hlead : lead = word ++ " ")
    (hword : ' ' ∉ word.toList) (h : s.label = lead ++ rest) : s.kind = word := by
  have hchars : s.label.toList = word.toList ++ ' ' :: rest.toList := by
    rw [h, hlead]
    simp
  have hnone : ∀ c ∈ word.toList, decide (c ≠ ' ') = true := by
    intro c hc
    rw [decide_eq_true_eq]
    rintro rfl
    exact hword hc
  rw [kind, hchars, List.takeWhile_append_of_pos hnone, List.takeWhile_cons_of_neg (by decide),
    List.append_nil, String.ofList_toList]

/-- Does the step train a model, in the grid or with perturbation? -/
def isTraining (s : PlanStep) : Bool :=
  s.kind == "train" || s.kind == "perturb-train"

/-- Does the step decode with a model? -/
def isDecoding (s : PlanStep) : Bool :=
  s.kind == "decode"

/-- The directories that a step is told to write its output to. -/
def outputDirs (s : PlanStep) : List String :=
  given "output_dir" s.invocation.arguments

/-- A file that is an entry of a directory, by their paths. -/
def LiesIn (file dir : String) : Prop :=
  ∃ name, Path.IsName name ∧ file = dir ++ "/" ++ name

/-- A decoding goes with a training: it writes to the same directory, and decodes into a file
    that is an entry of it. -/
def DecodesWith (decoding training : PlanStep) : Prop :=
  ∃ dir file, training.outputDirs = [dir] ∧ decoding.outputDirs = [dir] ∧
    given "decode_to_file" decoding.invocation.arguments = [file] ∧ LiesIn file dir

/-- Right before each decoding stands a training that it goes with. -/
def Paired (steps : List PlanStep) : Prop :=
  ∀ front step back, steps = front ++ step :: back → step.isDecoding = true →
    ∃ training, front.getLast? = some training ∧ training.isTraining = true ∧
      step.DecodesWith training

variable {steps more : List PlanStep}

theorem Paired.append (h : Paired steps) (h' : Paired more) : Paired (steps ++ more) := by
  intro front step back hsteps hstep
  rcases List.append_eq_append_iff.1 hsteps with ⟨inner, rfl, hmore⟩ | ⟨inner, hsame, hback⟩
  · -- the step is one of the later list
    obtain ⟨training, hlast, htraining⟩ := h' inner step back hmore hstep
    refine ⟨training, ?_, htraining⟩
    rw [List.getLast?_append, hlast, Option.some_or]
  · cases inner with
    | nil =>
        -- it is the first one of the later list, with nothing before it there
        obtain ⟨training, hlast, -⟩ := h' [] step back hback.symm hstep
        cases hlast
    | cons first inner =>
        obtain ⟨rfl, -⟩ := List.cons.inj hback
        exact h front step inner hsame hstep

theorem paired_of_forall (h : ∀ step ∈ steps, step.isDecoding = false) : Paired steps := by
  rintro front step back rfl hstep
  rw [h step (List.mem_append_right _ List.mem_cons_self)] at hstep
  cases hstep

theorem Paired.flatMap {α : Type} {l : List α} {f : α → List PlanStep}
    (h : ∀ a ∈ l, Paired (f a)) : Paired (l.flatMap f) := by
  induction l with
  | nil => exact paired_of_forall (List.forall_mem_nil _)
  | cons a l ih =>
      obtain ⟨ha, hl⟩ := List.forall_mem_cons.1 h
      rw [List.flatMap_cons]
      exact ha.append (ih hl)

end PlanStep

namespace Plan

variable (p : Plan)

@[simp] theorem kind_datagen (problem : String) : (p.datagen problem).kind = "datagen" :=
  PlanStep.kind_of_label (by decide) (by decide) rfl

@[simp] theorem kind_trainStep (run : GridRun) : (p.trainStep run).kind = "train" :=
  PlanStep.kind_of_label (by decide) (by decide) rfl

@[simp] theorem kind_decodeStep (run : GridRun) : (p.decodeStep run).kind = "decode" :=
  PlanStep.kind_of_label (by decide) (by decide) rfl

@[simp] theorem kind_perturbStep (problem model direction : String) :
    (p.perturbStep problem model direction).kind = "perturb-train" := by
  have hlabel : (p.perturbStep problem model direction).label =
      "perturb-train " ++ problem ++ " " ++ model := rfl
  have hrest : "perturb-train " ++ problem ++ " " ++ model =
      "perturb-train " ++ (problem ++ (" " ++ model)) := by
    rw [String.append_assoc, String.append_assoc]
  exact PlanStep.kind_of_label (by decide) (by decide) (hlabel.trans hrest)

@[simp] theorem kind_retrievalStep : p.retrievalStep.kind = "retrieval" := by
  have hlabel : "retrieval baseline" = "retrieval " ++ "baseline" := by decide
  exact PlanStep.kind_of_label (by decide) (by decide) hlabel

/-! ## Decodings and their trainings -/

theorem outputDirs_trainStep (run : GridRun) :
    (p.trainStep run).outputDirs = [p.outputDir run] := by
  have hoption : ("output_dir", p.outputDir run) ∈ p.runOptions run :=
    List.mem_append_left _ (by simp [coreOptions])
  rw [PlanStep.outputDirs, p.given_trainStep_eq run (by decide)]
  exact p.given_runOptions hoption

theorem outputDirs_decodeStep (run : GridRun) :
    (p.decodeStep run).outputDirs = [p.outputDir run] := by
  have hoption : ("output_dir", p.outputDir run) ∈ p.runOptions run :=
    List.mem_append_left _ (by simp [coreOptions])
  rw [PlanStep.outputDirs, p.given_decodeStep_eq run (by decide)]
  exact p.given_runOptions hoption

theorem outputDirs_perturbStep (problem model direction : String) :
    (p.perturbStep problem model direction).outputDirs =
      [Path.join (p.modelDir problem model) "perturb"] := by
  have hoption : ("output_dir", Path.join (p.modelDir problem model) "perturb") ∈
      p.coreOptions problem model ("grammar_direction=" ++ direction)
        (Path.join (p.modelDir problem model) "perturb") ++ p.userDirOptions :=
    List.mem_append_left _ (by simp [coreOptions])
  exact p.given_perturbStep problem model direction hoption

/-- The file that a decoding writes. -/
theorem given_decode_to_file (run : GridRun) :
    given "decode_to_file" (p.decodeStep run).invocation.arguments =
      [Path.join (p.outputDir run) "results.tt"] := by
  have hsub : ((p.coreOptions run.problem run.model (hparams run) (p.outputDir run) ++
      p.decodeOptions run ++ p.userDirOptions).map Prod.fst).Sublist
      ["problem", "model", "hparams_set", "hparams", "data_dir", "output_dir", "decode_hparams",
        "decode_to_file", "t2t_usr_dir"] := by
    rw [List.map_append]
    exact (List.Sublist.refl _).append p.userDirOptions_sublist
  have hoption : ("decode_to_file", Path.join (p.outputDir run) "results.tt") ∈
      p.coreOptions run.problem run.model (hparams run) (p.outputDir run) ++
        p.decodeOptions run ++ p.userDirOptions :=
    List.mem_append_left _ (List.mem_append_right _ (by simp [decodeOptions]))
  rw [decodeStep_arguments]
  exact given_of_sublist hsub (by decide) (by decide) hoption

/-- The name of the directory of a grid run. -/
def indexed (direction : String) (index : Nat) : String :=
  direction ++ "-" ++ toString index

theorem toList_indexed (direction : String) (index : Nat) :
    (indexed direction index).toList = direction.toList ++ '-' :: (toString index).toList := by
  simp [indexed]

theorem isName_indexed {direction : String} (h : '/' ∉ direction.toList) (index : Nat) :
    Path.IsName (indexed direction index) := by
  refine Path.isName_of_mem (c := '-') ?_ (by decide) ?_
  · rw [toList_indexed]
    exact List.mem_append_right _ List.mem_cons_self
  · rw [toList_indexed, List.mem_append, List.mem_cons, not_or, not_or]
    exact ⟨h, by decide, Text.not_mem_toString (by decide) index⟩

theorem decodeStep_decodesWith {run : GridRun} (h : '/' ∉ run.direction.toList) :
    (p.decodeStep run).DecodesWith (p.trainStep run) := by
  have hname := isName_indexed h run.index
  have hfile : Path.join (p.outputDir run) "results.tt" = p.outputDir run ++ "/" ++ "results.tt" :=
    Path.join_eq_append_slash (by decide) hname.join_ne_empty hname.endsInSlash_join
  refine ⟨p.outputDir run, _, p.outputDirs_trainStep run, p.outputDirs_decodeStep run,
    p.given_decode_to_file run, "results.tt", by decide, hfile⟩

theorem paired_runSteps {run : GridRun} (h : '/' ∉ run.direction.toList) :
    PlanStep.Paired [p.trainStep run, p.decodeStep run] := by
  intro front step back hsteps hstep
  rcases front with _ | ⟨first, _ | ⟨second, front⟩⟩
  · -- the training is no decoding
    obtain ⟨rfl, -⟩ := List.cons.inj hsteps
    simp [PlanStep.isDecoding] at hstep
  · obtain ⟨rfl, hrest⟩ := List.cons.inj hsteps
    obtain ⟨rfl, -⟩ := List.cons.inj hrest
    exact ⟨_, rfl, by simp [PlanStep.isTraining], p.decodeStep_decodesWith h⟩
  · simp at hsteps

theorem paired_steps (h : ∀ direction ∈ p.config.directions, '/' ∉ direction.toList) :
    PlanStep.Paired p.steps := by
  have hproblem : ∀ problem ∈ p.config.problems, PlanStep.Paired (p.problemSteps problem) := by
    intro problem _
    have hruns : PlanStep.Paired ((p.gridRuns problem).flatMap fun run =>
        [p.trainStep run, p.decodeStep run]) :=
      .flatMap fun run hrun => p.paired_runSteps (h _ (p.mem_of_mem_gridRuns hrun).1)
    have hdata : PlanStep.Paired [p.datagen problem] :=
      PlanStep.paired_of_forall (by simp [PlanStep.isDecoding])
    exact hdata.append hruns
  have hperturb : PlanStep.Paired p.perturbSteps := by
    refine PlanStep.paired_of_forall fun step hstep => ?_
    obtain ⟨problem, model, direction, rfl⟩ := p.exists_eq_perturbStep hstep
    simp [PlanStep.isDecoding]
  have hretrieval : PlanStep.Paired [p.retrievalStep] :=
    PlanStep.paired_of_forall (by simp [PlanStep.isDecoding])
  exact ((PlanStep.Paired.flatMap hproblem).append hperturb).append hretrieval

/-! ## Different directories -/

/-- The last hyphen parts the direction from the number. -/
theorem indexed_injective {direction direction' : String} {index index' : Nat}
    (h : indexed direction index = indexed direction' index') :
    direction = direction' ∧ index = index' := by
  have hfront : ∀ (direction : String) (index : Nat),
      Text.beforeLast? '-' (indexed direction index).toList = some direction.toList := by
    intro direction index
    rw [toList_indexed, Text.beforeLast?_eq_some_iff]
    exact ⟨_, rfl, Text.not_mem_toString (by decide) index⟩
  have hdirection : direction = direction' := by
    have hchars := (hfront direction index).symm.trans (h ▸ hfront direction' index')
    exact String.toList_injective (Option.some.inj hchars)
  subst hdirection
  rw [indexed, indexed, String.append_right_inj] at h
  exact ⟨rfl, Text.toString_injective h⟩

/-- There is no hyphen in the name of the other directory. -/
theorem indexed_ne_perturb (direction : String) (index : Nat) :
    indexed direction index ≠ "perturb" := by
  intro h
  have hhyphen : '-' ∈ (indexed direction index).toList := by
    rw [toList_indexed]
    exact List.mem_append_right _ List.mem_cons_self
  rw [h] at hhyphen
  revert hhyphen
  decide

/-- The grid runs of all problems, in the order of the plan. -/
def runs : List GridRun :=
  p.config.problems.flatMap p.gridRuns

/-- What tells a grid run from the others: its names, and the place of its option. -/
def runKey (run : GridRun) : String × String × String × Nat :=
  (run.problem, run.direction, run.model, run.index)

theorem map_runKey_runs :
    p.runs.map runKey = p.config.problems ×ˢ (p.config.directions ×ˢ
      (p.config.models ×ˢ List.range p.config.hparamsOptions.length)) := by
  have hoptions : ∀ problem direction model : String,
      (p.config.hparamsOptions.zipIdx.map fun option =>
        runKey ⟨problem, direction, model, option.1, option.2⟩) =
          (List.range p.config.hparamsOptions.length).map fun index =>
            (problem, direction, model, index) := by
    intro problem direction model
    rw [List.range_eq_range', ← List.zipIdx_map_snd 0, List.map_map]
    rfl
  simp only [SProd.sprod, List.product, runs, gridRuns, List.map_flatMap, List.map_map,
    Function.comp_def, hoptions]

theorem mem_of_mem_runs {run : GridRun} (hrun : run ∈ p.runs) :
    run.problem ∈ p.config.problems ∧ run.direction ∈ p.config.directions ∧
      run.model ∈ p.config.models := by
  have hkey : runKey run ∈ p.runs.map runKey := List.mem_map.2 ⟨run, hrun, rfl⟩
  rw [map_runKey_runs] at hkey
  obtain ⟨hproblem, hrest⟩ := List.mem_product.1 hkey
  obtain ⟨hdirection, hlater⟩ := List.mem_product.1 hrest
  exact ⟨hproblem, hdirection, (List.mem_product.1 hlater).1⟩

theorem names_modelDir {problem model : String} (hproblem : Path.IsPart problem)
    (hmodel : Path.IsPart model) :
    Path.names (p.modelDir problem model) = Path.names p.config.workDir ++ [problem, model] := by
  rw [modelDir, hmodel.names_join, hproblem.names_join, List.append_assoc]
  rfl

section

variable (hproblems : Path.AreParts p.config.problems) (hmodels : Path.AreParts p.config.models)
variable (hdirections : Path.AreParts p.config.directions)

include hproblems hmodels hdirections

theorem names_outputDir {run : GridRun} (hrun : run ∈ p.runs) :
    Path.names (p.outputDir run) = Path.names p.config.workDir ++
      [run.problem, run.model, indexed run.direction run.index] := by
  obtain ⟨hproblem, hdirection, hmodel⟩ := p.mem_of_mem_runs hrun
  have hname := isName_indexed (hdirections.isPart _ hdirection).slash_not_mem run.index
  have hjoin : p.outputDir run =
      Path.join (p.modelDir run.problem run.model) (indexed run.direction run.index) := rfl
  rw [hjoin, hname.names_join,
    p.names_modelDir (hproblems.isPart _ hproblem) (hmodels.isPart _ hmodel), List.append_assoc]
  rfl

/-- Runs that differ in a name or in the place of their option write to different directories. -/
theorem nodup_names_runs : ((p.runs.map p.outputDir).map Path.names).Nodup := by
  have hkeys : (p.runs.map runKey).Nodup := by
    rw [map_runKey_runs]
    exact hproblems.nodup.product
      (hdirections.nodup.product (hmodels.nodup.product List.nodup_range))
  -- no key comes twice, so it is enough that the names along a path tell the key
  rw [List.map_map]
  refine List.Nodup.map_on (fun run hrun run' hrun' hnames => ?_) (hkeys.of_map runKey)
  refine List.inj_on_of_nodup_map hkeys hrun hrun' ?_
  rw [Function.comp_apply, Function.comp_apply,
    p.names_outputDir hproblems hmodels hdirections hrun,
    p.names_outputDir hproblems hmodels hdirections hrun', List.append_cancel_left_eq] at hnames
  simp only [List.cons.injEq, and_true] at hnames
  obtain ⟨hproblem, hmodel, hlast⟩ := hnames
  obtain ⟨hdirection, hindex⟩ := indexed_injective hlast
  rw [runKey, runKey, hproblem, hdirection, hmodel, hindex]

/-- The training with perturbation has a directory that no run of the grid has. -/
theorem names_perturb_not_mem {problem model : String} (hproblem : problem ∈ p.config.problems)
    (hmodel : model ∈ p.config.models) :
    Path.names (Path.join (p.modelDir problem model) "perturb") ∉
      (p.runs.map p.outputDir).map Path.names := by
  have hperturb : Path.IsName "perturb" := by decide
  intro hmem
  obtain ⟨dir, hdir, hnames⟩ := List.mem_map.1 hmem
  obtain ⟨run, hrun, rfl⟩ := List.mem_map.1 hdir
  rw [p.names_outputDir hproblems hmodels hdirections hrun, hperturb.names_join,
    p.names_modelDir (hproblems.isPart _ hproblem) (hmodels.isPart _ hmodel), List.append_assoc,
    List.append_cancel_left_eq] at hnames
  simp only [List.cons_append, List.nil_append, List.cons.injEq, and_true] at hnames
  exact indexed_ne_perturb run.direction run.index hnames.2.2

end

theorem filter_isTraining_steps :
    p.steps.filter PlanStep.isTraining = p.runs.map p.trainStep ++ p.perturbSteps := by
  have hproblem : ∀ problem, (p.problemSteps problem).filter PlanStep.isTraining =
      (p.gridRuns problem).map p.trainStep := by
    intro problem
    have hpair : ∀ run, [p.trainStep run, p.decodeStep run].filter PlanStep.isTraining =
        [p.trainStep run] := by
      intro run
      simp [PlanStep.isTraining]
    rw [problemSteps, List.filter_cons_of_neg (by simp [PlanStep.isTraining]),
      List.filter_flatMap, List.map_eq_flatMap]
    simp only [hpair]
  have hperturb : p.perturbSteps.filter PlanStep.isTraining = p.perturbSteps := by
    rw [List.filter_eq_self]
    intro step hstep
    obtain ⟨problem, model, direction, rfl⟩ := p.exists_eq_perturbStep hstep
    simp [PlanStep.isTraining]
  have hretrieval : [p.retrievalStep].filter PlanStep.isTraining = [] := by
    simp [PlanStep.isTraining]
  rw [steps, List.filter_append, List.filter_append, List.filter_flatMap, hperturb, hretrieval,
    List.append_nil, runs, List.map_flatMap]
  simp only [hproblem]

theorem perturbSteps_cases :
    p.perturbSteps = [] ∨ ∃ problem ∈ p.config.problems, ∃ model ∈ p.config.models, ∃ direction,
      p.perturbSteps = [p.perturbStep problem model direction] := by
  unfold perturbSteps
  split
  · next problem _ model _ direction _ hproblems hmodels _ =>
      exact .inr ⟨problem, hproblems ▸ List.mem_cons_self, model, hmodels ▸ List.mem_cons_self,
        direction, rfl⟩
  · exact .inl rfl

theorem exists_training_dirs (hproblems : Path.AreParts p.config.problems)
    (hmodels : Path.AreParts p.config.models) (hdirections : Path.AreParts p.config.directions) :
    ∃ dirs : List String,
      (p.steps.filter PlanStep.isTraining).map PlanStep.outputDirs = dirs.map ([·]) ∧
        (dirs.map Path.names).Nodup := by
  have hnodup := p.nodup_names_runs hproblems hmodels hdirections
  have hgrid : (p.runs.map p.trainStep).map PlanStep.outputDirs =
      (p.runs.map p.outputDir).map ([·]) := by
    rw [List.map_map, List.map_map]
    exact List.map_congr_left fun run _ => p.outputDirs_trainStep run
  rw [filter_isTraining_steps, List.map_append, hgrid]
  -- there may be one training more than those of the grid
  rcases p.perturbSteps_cases with hnone | ⟨problem, hproblem, model, hmodel, direction, hone⟩
  · exact ⟨p.runs.map p.outputDir, by rw [hnone, List.map_nil, List.append_nil], hnodup⟩
  · refine ⟨p.runs.map p.outputDir ++ [Path.join (p.modelDir problem model) "perturb"], ?_, ?_⟩
    · rw [hone, List.map_singleton, p.outputDirs_perturbStep, List.map_append, List.map_singleton]
    · rw [List.map_append, List.map_singleton, List.nodup_append_comm, List.singleton_append,
        List.nodup_cons]
      exact ⟨p.names_perturb_not_mem hproblems hmodels hdirections hproblem hmodel, hnodup⟩

/-- No two trainings of a plan write to the same directory, neither as texts nor by the names
    along their paths, and each is given just one. They are those of the grid, however often an
    option comes, and the one with perturbation. Right before each decoding stands a training
    with whose directory it works, and the file that it writes is an entry of this directory. -/
theorem trainings_write_apart (hproblems : Path.AreParts p.config.problems)
    (hmodels : Path.AreParts p.config.models) (hdirections : Path.AreParts p.config.directions) :
    p.steps.filter PlanStep.isTraining = p.runs.map p.trainStep ++ p.perturbSteps ∧
    (∃ dirs : List String,
      (p.steps.filter PlanStep.isTraining).map PlanStep.outputDirs = dirs.map ([·]) ∧
        dirs.Nodup ∧ (dirs.map Path.names).Nodup) ∧
    PlanStep.Paired p.steps := by
  obtain ⟨dirs, hdirs, hnodup⟩ := p.exists_training_dirs hproblems hmodels hdirections
  refine ⟨p.filter_isTraining_steps, ⟨dirs, hdirs, hnodup.of_map Path.names, hnodup⟩, ?_⟩
  exact p.paired_steps fun direction hdirection => (hdirections.isPart _ hdirection).slash_not_mem

/-- A plan with a direction that looks like a run of another one, and the same option twice. -/
def hyphenPlan : Plan :=
  ⟨{ problems := ["translation", ".."], models := ["transformer"], directions := ["up", "up-1"],
     hparamsOptions := ["", ""] }, ⟨"luinet", "t2t-datagen", "t2t-decoder"⟩⟩

theorem trainings_write_apart_hyphenPlan :
    Path.AreParts hyphenPlan.config.problems ∧ Path.AreParts hyphenPlan.config.models ∧
      Path.AreParts hyphenPlan.config.directions ∧
      (∃ dirs : List String, (hyphenPlan.steps.filter PlanStep.isTraining).map PlanStep.outputDirs =
        dirs.map ([·]) ∧ dirs.Nodup ∧ dirs.length = 9) ∧
      ∃ (training : PlanStep) (dir : String), hyphenPlan.steps[1]? = some training ∧
        training.isTraining = true ∧ training.outputDirs = [dir] ∧
        (hyphenPlan.decodeStep ⟨"translation", "up", "transformer", "", 0⟩).outputDirs = [dir] := by
  have hproblems : Path.AreParts hyphenPlan.config.problems := ⟨by decide, by decide⟩
  have hmodels : Path.AreParts hyphenPlan.config.models := ⟨by decide, by decide⟩
  have hdirections : Path.AreParts hyphenPlan.config.directions := ⟨by decide, by decide⟩
  obtain ⟨-, ⟨dirs, hdirs, hnodup, -⟩, hpaired⟩ :=
    hyphenPlan.trainings_write_apart hproblems hmodels hdirections
  have hlength : (hyphenPlan.steps.filter PlanStep.isTraining).length = 9 := by
    rw [filter_isTraining_steps]
    rfl
  have hcount : dirs.length = 9 := by
    have hsame := congrArg List.length hdirs
    rw [List.length_map, List.length_map, hlength] at hsame
    exact hsame.symm
  obtain ⟨training, hlast, htraining, dir, file, hdir, hsame, -, -⟩ :=
    hpaired (hyphenPlan.steps.take 2)
      (hyphenPlan.decodeStep ⟨"translation", "up", "transformer", "", 0⟩)
      (hyphenPlan.steps.drop 3) rfl (by decide +kernel)
  exact ⟨hproblems, hmodels, hdirections, ⟨dirs, hdirs, hnodup, hcount⟩, training, dir, hlast,
    htraining, hdir, hsame⟩

end Plan

end ParseBench
