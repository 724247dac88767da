/-
  ParseBench.Proofs.CommandLine.TrainCommand

  The trainings of a functional test as this program reads them. The words of a planned
  call are options in one word each, then those that ask for perturb training, and after
  two dashes what is handed on; they are accepted and mean the training that the plan has
  in mind (`parse_trainCall`). That training calls the trainer with the options of the
  plan again: normalised hyperparameters are not normalised any further
  (`normalizeHparams_normalizeHparams`), and they are not empty, so nothing is left out
  (`trainer_arguments`). The decoding that comes next in the plan is given the same
  (`trainStep_agrees`).
-/

import ParseBench.CommandLine.Command
import ParseBench.Proofs.CommandLine.Reading
import ParseBench.Proofs.Training.FunctionalTest
import ParseBench.Proofs.Training.PerturbTraining

namespace ParseBench

open CommandLine

namespace CommandLine.IsRead

variable {environment : Environment} {signature : Signature} {pieces : List Piece}
  {trailing : List String} {a : Arguments}

theorem lookup_of_joined (h : IsRead environment signature pieces trailing a)
    {name value : String} (hpiece : .joined name value ∈ pieces) :
    a.found.lookup name = some [value] :=
  h.given _ hpiece

/-- An option without a piece has the value of its variable, or else its default. -/
theorem lookup_of_not_given (h : IsRead environment signature pieces trailing a) {name : String}
    {argument : Argument} (hoption : signature.option? name = some argument)
    (hnot : name ∉ pieces.map Piece.name) :
    a.found.lookup name = (argument.standIn? environment).map ([·]) := by
  have hname : argument.name = name := by simpa using List.find?_some hoption
  subst hname
  exact h.others argument (List.mem_of_find?_eq_some hoption) hnot

end CommandLine.IsRead

theorem normalizeHparams_normalizeHparams (hparams : String) :
    normalizeHparams (normalizeHparams hparams) = normalizeHparams hparams := by
  rw [normalizeHparams, normalizeHparams, String.toList_ofList, Text.trimWhere_trimWhere]

namespace Plan

variable (p : Plan)

/-- The training that a call of a plan asks for. -/
def trainConfig (environment : Environment) (problem model hparams outputDir : String)
    (perturbs : Bool) : TrainConfig where
  flags :=
    { problem, model, hparams, hparamsSet := some p.config.hparamsSet
      dataDir := p.dataDir problem, outputDir, userDir := p.config.userDir
      perturbTraining := perturbs, loops := 1, passthrough := p.trainerOptions.map written }
  family := {}
  trainer := (environment.lookup "LUINET_TRAINER").getD "t2t-trainer"
  averager := (environment.lookup "LUINET_AVERAGER").getD "t2t-avg-all"

/-! ## Reading a planned call -/

section Reading

variable {problem model hparams outputDir : String}

/-- The words that ask for one loop of perturb training. -/
def perturbWords (perturbs : Bool) : List String :=
  if perturbs then ["--perturb_training", "--num_loops", "1"] else []

/-- The pieces of a planned call. -/
def trainPieces (problem model hparams outputDir : String) (perturbs : Bool) : List Piece :=
  (p.coreOptions problem model hparams outputDir ++ p.userDirOptions).map
      (fun o => .joined o.1 o.2) ++
    if perturbs then [.switch "perturb_training", .apart "num_loops" "1"] else []

theorem words_trainPieces (perturbs : Bool) :
    (p.trainPieces problem model hparams outputDir perturbs).flatMap Piece.words =
      (p.coreOptions problem model hparams outputDir ++ p.userDirOptions).map written ++
        perturbWords perturbs := by
  have hjoined : ∀ options : List (String × String),
      (options.map fun o => Piece.joined o.1 o.2).flatMap Piece.words = options.map written := by
    intro options
    rw [List.flatMap_map]
    exact List.map_eq_flatMap.symm
  rw [trainPieces, List.flatMap_append, hjoined]
  cases perturbs <;> rfl

theorem dataDir_ne_empty (problem : String) : p.dataDir problem ≠ "" :=
  Path.join_ne_empty (by decide)

/-- Paths must not be empty. All other values are taken as they are. -/
theorem takes_trainPieces (houtput : outputDir ≠ "") (huser : p.config.userDir ≠ some "")
    (perturbs : Bool) :
    ∀ piece ∈ p.trainPieces problem model hparams outputDir perturbs,
      trainSignature.Takes piece := by
  have hpath : ∀ name value, value ≠ "" → ValueType.path.fault? name value = none := by
    intro name value hvalue
    rw [ValueType.fault?, if_neg (by simpa using hvalue)]
  have hnames : ∀ name ∈ sharedNames, IsOptionName name ∧ name ≠ "" ∧ name ≠ "help" := by decide
  intro piece hpiece
  rcases List.mem_append.1 hpiece with hoption | hperturb
  · obtain ⟨o, ho, rfl⟩ := List.mem_map.1 hoption
    obtain ⟨hname, hempty, hhelp⟩ :=
      hnames o.1 ((p.sharedOptions_sublist _ _ _ _).subset (List.mem_map.2 ⟨o, ho, rfl⟩))
    refine ⟨hname, hempty, hhelp, ?_⟩
    rcases List.mem_append.1 ho with ho | ho
    · simp only [coreOptions, List.mem_cons, List.not_mem_nil, or_false] at ho
      rcases ho with rfl | rfl | rfl | rfl | rfl | rfl
      · exact ⟨_, rfl, rfl, rfl⟩
      · exact ⟨_, rfl, rfl, rfl⟩
      · exact ⟨_, rfl, rfl, rfl⟩
      · exact ⟨_, rfl, rfl, rfl⟩
      · exact ⟨_, rfl, rfl, hpath _ _ (p.dataDir_ne_empty problem)⟩
      · exact ⟨_, rfl, rfl, hpath _ _ houtput⟩
    · obtain ⟨dir, hdir, rfl⟩ := List.mem_map.1 ho
      have hne : dir ≠ "" := by
        rintro rfl
        exact huser (Option.mem_toList.1 hdir)
      exact ⟨_, rfl, rfl, hpath _ _ hne⟩
  · split at hperturb
    · rcases List.mem_pair.1 hperturb with rfl | rfl
      · exact ⟨by decide, by decide, by decide, _, rfl, rfl⟩
      · exact ⟨by decide, by decide, by decide, _, rfl, rfl, by rfl, by decide⟩
    · cases hperturb

theorem names_trainPieces_sublist (perturbs : Bool) :
    ((p.trainPieces problem model hparams outputDir perturbs).map Piece.name).Sublist
      (sharedNames ++ ["perturb_training", "num_loops"]) := by
  rw [trainPieces, List.map_append, List.map_map]
  refine (p.sharedOptions_sublist problem model hparams outputDir).append ?_
  cases perturbs with
  | false => exact List.nil_sublist _
  | true => exact .refl _

/-- What stands in for an argument of a training is any text. -/
theorem fits_trainSignature (environment : Environment) :
    ∀ a ∈ trainSignature.options, ∀ value, a.standIn? environment = some value →
      a.type.fault? a.name value = none := by
  have htypes : ∀ a ∈ trainSignature.options,
      a.type = .text ∨ a.envName = none ∧ a.byDefault = none := by
    decide
  intro a ha value hvalue
  rcases htypes a ha with htext | ⟨hvariable, hdefault⟩
  · rw [htext]
    rfl
  · rw [Argument.standIn?, hvariable, hdefault] at hvalue
    cases hvalue

theorem isLine_trainPieces (houtput : outputDir ≠ "") (huser : p.config.userDir ≠ some "")
    (environment : Environment) (perturbs : Bool) :
    IsLine signatures environment "train" trainSignature
      (p.trainPieces problem model hparams outputDir perturbs) where
  known := rfl
  ne_help := by decide
  word := by decide
  handsOn := rfl
  options := by decide
  takes := p.takes_trainPieces houtput huser perturbs
  once := List.Nodup.sublist (p.names_trainPieces_sublist perturbs) (by decide)
  required := by
    have hrequired : trainSignature.required = ["problem", "model", "data_dir", "output_dir"] := by
      decide
    rw [hrequired, trainPieces, List.map_append, List.map_map]
    intro name hname
    refine List.mem_append_left _ ?_
    revert name
    simp [coreOptions, Piece.name]
  fits := fits_trainSignature environment

section Values

variable {environment : Environment} {perturbs : Bool} {a : Arguments}

theorem lookup_option (h : IsRead environment trainSignature
      (p.trainPieces problem model hparams outputDir perturbs) (p.trainerOptions.map written) a)
    {o : String × String}
    (ho : o ∈ p.coreOptions problem model hparams outputDir ++ p.userDirOptions) :
    a.found.lookup o.1 = some [o.2] :=
  h.lookup_of_joined (List.mem_append_left _ (List.mem_map.2 ⟨o, ho, rfl⟩))

theorem lookup_userDir (h : IsRead environment trainSignature
      (p.trainPieces problem model hparams outputDir perturbs) (p.trainerOptions.map written) a) :
    a.found.lookup "t2t_usr_dir" = p.config.userDir.map ([·]) := by
  cases hdir : p.config.userDir with
  | some dir =>
      have hmem : ("t2t_usr_dir", dir) ∈ p.userDirOptions := by simp [userDirOptions, hdir]
      exact p.lookup_option h (List.mem_append_right _ hmem)
  | none =>
      have hnot : "t2t_usr_dir" ∉
          (p.trainPieces problem model hparams outputDir perturbs).map Piece.name := by
        simp only [trainPieces, coreOptions, userDirOptions, hdir]
        cases perturbs <;> simp [Piece.name]
      have hnone := h.lookup_of_not_given rfl hnot
      exact hnone

theorem lookup_perturbs (h : IsRead environment trainSignature
      (p.trainPieces problem model hparams outputDir perturbs) (p.trainerOptions.map written) a) :
    a.found.lookup "perturb_training" = (if perturbs then some [] else none) ∧
      a.found.lookup "num_loops" = if perturbs then some ["1"] else none := by
  cases perturbs with
  | true =>
      exact ⟨h.given (.switch "perturb_training") (List.mem_append_right _ (by simp)),
        h.given (.apart "num_loops" "1") (List.mem_append_right _ (by simp))⟩
  | false =>
      have hnot : ∀ name, name ∉ sharedNames →
          name ∉ (p.trainPieces problem model hparams outputDir false).map Piece.name := by
        intro name hname hmem
        rw [trainPieces, if_neg Bool.false_ne_true, List.append_nil, List.map_map] at hmem
        exact hname ((p.sharedOptions_sublist _ _ _ _).subset hmem)
      have hswitch := h.lookup_of_not_given rfl (hnot "perturb_training" (by decide))
      have hloops := h.lookup_of_not_given rfl (hnot "num_loops" (by decide))
      exact ⟨hswitch, hloops⟩

/-- All other options of a training have what stands in for them. -/
theorem lookup_other (h : IsRead environment trainSignature
      (p.trainPieces problem model hparams outputDir perturbs) (p.trainerOptions.map written) a)
    (name : String) (hname : name ∉ sharedNames ++ ["perturb_training", "num_loops"])
    {argument : Argument} (hoption : trainSignature.option? name = some argument) :
    a.found.lookup name = (argument.standIn? environment).map ([·]) :=
  h.lookup_of_not_given hoption fun hmem =>
    hname ((p.names_trainPieces_sublist perturbs).subset hmem)

/-- The training that is meant by such a call. -/
theorem trainConfig_of_isRead (h : IsRead environment trainSignature
      (p.trainPieces problem model hparams outputDir perturbs) (p.trainerOptions.map written) a) :
    a.trainConfig = p.trainConfig environment problem model hparams outputDir perturbs := by
  have hcore : ∀ o ∈ p.coreOptions problem model hparams outputDir,
      a.found.lookup o.1 = some [o.2] := fun o ho => p.lookup_option h (List.mem_append_left _ ho)
  simp only [coreOptions, List.forall_mem_cons] at hcore
  obtain ⟨hproblem, hmodel, hset, hhparams, hdata, houtput, -⟩ := hcore
  have hschedule : a.found.lookup "schedule" = none :=
    p.lookup_other h "schedule" (by decide) rfl
  have hcurriculum : a.found.lookup "curriculum" = none :=
    p.lookup_other h "curriculum" (by decide) rfl
  have hcheckpoints : a.found.lookup "num_last_checkpoints" = none :=
    p.lookup_other h "num_last_checkpoints" (by decide) rfl
  have hproblemLead : a.found.lookup "lui_problem_prefix" = some [({} : Family).problemLead] :=
    p.lookup_other h "lui_problem_prefix" (by decide) rfl
  have hmodelLead : a.found.lookup "lui_model_prefix" = some [({} : Family).modelLead] :=
    p.lookup_other h "lui_model_prefix" (by decide) rfl
  have hvariable : ∀ v default : String,
      ((environment.lookup v).or (some default)).map (fun value => [value]) =
        some [(environment.lookup v).getD default] := by
    intro v default
    cases environment.lookup v <;> rfl
  have htrainer := (p.lookup_other h "trainer" (by decide) rfl).trans
    (hvariable "LUINET_TRAINER" "t2t-trainer")
  have haverager := (p.lookup_other h "averager" (by decide) rfl).trans
    (hvariable "LUINET_AVERAGER" "t2t-avg-all")
  unfold Arguments.trainConfig Arguments.flags Arguments.family trainConfig
  simp only [Arguments.value, Arguments.value?, Arguments.values, Arguments.isOn, hproblem, hmodel,
    hset, hhparams, hdata, houtput, hschedule, hcurriculum, hproblemLead, hmodelLead, htrainer,
    haverager, hcheckpoints, p.lookup_userDir h, p.lookup_perturbs h, h.trailing]
  cases p.config.userDir <;> cases perturbs <;> rfl

end Values

/-- A documented reader takes the words of a planned call for the training that it asks for. -/
theorem parse_trainCall {reader : Reader} (hreader : reader.IsDocumented)
    (houtput : outputDir ≠ "") (huser : p.config.userDir ≠ some "") (environment : Environment)
    (perturbs : Bool) :
    parse reader environment
        (p.trainCall problem model hparams outputDir (perturbWords perturbs)).arguments =
      .ok (.train (p.trainConfig environment problem model hparams outputDir perturbs)) := by
  have hline : IsLine signatures environment "train" trainSignature
      (p.trainPieces problem model hparams outputDir perturbs) :=
    p.isLine_trainPieces houtput huser environment perturbs
  obtain ⟨a, hread, ha⟩ := hreader hline (p.trainerOptions.map written)
  rw [words_trainPieces, List.append_assoc] at hread
  rw [trainCall_arguments, List.cons_append, parse, hread, ← p.trainConfig_of_isRead ha]
  rfl

end Reading

/-! ## The call of the trainer -/

theorem outputDir_ne_empty (run : GridRun) : p.outputDir run ≠ "" := by
  refine Path.join_ne_empty fun h => ?_
  have hlist := congrArg String.toList h
  simp at hlist

/-- The first character of the hyperparameters of a grid run is not trimmed. -/
theorem hparams_ne_empty (run : GridRun) : hparams run ≠ "" := by
  intro h
  rw [hparams, normalizeHparams, ← String.ofList_nil, String.ofList_inj] at h
  have hfirst := Text.forall_of_trimWhere_eq_nil h 'g' (by simp)
  revert hfirst
  decide

/-- The training of a grid run hands the options of the plan on. -/
theorem trainer_arguments (environment : Environment) (run : GridRun) :
    (p.trainConfig environment run.problem run.model (hparams run) (p.outputDir run)
        false).flags.normalized.arguments =
      (p.runOptions run).map written ++ p.trainerOptions.map written := by
  have hnormalized : normalizeHparams (hparams run) = hparams run :=
    normalizeHparams_normalizeHparams _
  have hnonempty : ¬ (hparams run).isEmpty = true := by
    simpa using hparams_ne_empty run
  unfold Flags.arguments Flags.normalized trainConfig
  dsimp only
  rw [hnormalized, if_neg hnonempty, runOptions, List.map_append, ← userDirArgument_eq]
  simp only [userDirArgument, Option.toList, List.map_nil, List.map_cons, List.append_nil,
    Bool.false_eq_true, if_false]
  rfl

section Steps

variable {reader : Reader}

theorem parse_trainStep (hreader : reader.IsDocumented) (huser : p.config.userDir ≠ some "")
    (environment : Environment) (run : GridRun) :
    parse reader environment (p.trainStep run).invocation.arguments =
      .ok (.train (p.trainConfig environment run.problem run.model (hparams run) (p.outputDir run)
        false)) :=
  p.parse_trainCall hreader (p.outputDir_ne_empty run) huser environment false

theorem parse_perturbStep (hreader : reader.IsDocumented) (huser : p.config.userDir ≠ some "")
    (environment : Environment) (problem model direction : String) :
    parse reader environment (p.perturbStep problem model direction).invocation.arguments =
      .ok (.train (p.trainConfig environment problem model ("grammar_direction=" ++ direction)
        (Path.join (p.modelDir problem model) "perturb") true)) :=
  p.parse_trainCall hreader (Path.join_ne_empty (by decide)) huser environment true

end Steps

/-- The trainer is given what the decoding is given. -/
theorem given_trainer_eq (environment : Environment) (run : GridRun) {name : String}
    (hname : name ∈ sharedNames) :
    given name (p.trainConfig environment run.problem run.model (hparams run) (p.outputDir run)
        false).flags.normalized.arguments =
      given name (p.decodeStep run).invocation.arguments := by
  rw [trainer_arguments, given_append, p.given_trainerOptions hname, List.append_nil,
    p.given_decodeStep_eq run hname]

/-- The words of every planned training are accepted by a reader that reads as documented, and
    mean a training. That of a grid run calls
    the trainer once if problem and model are of one family, with the options that the decoding
    right after it in the plan is given, and then the numbers of steps; that with perturbation
    makes one loop. -/
theorem trainStep_agrees {reader : Reader} (hreader : reader.IsDocumented)
    (huser : p.config.userDir ≠ some "") (environment : Environment) :
    (∀ problem ∈ p.config.problems, ∀ run ∈ p.gridRuns problem,
      [p.trainStep run, p.decodeStep run] <:+: p.steps ∧
      ∃ c, parse reader environment (p.trainStep run).invocation.arguments = .ok (.train c) ∧
        c.flags.perturbTraining = false ∧
        (c.family.check c.flags.problem c.flags.model = .ok () →
          ∀ {σ : Type} (runner : Runner σ) (s : Session σ), ∃ call,
            (c.run runner.recorded).record s = (call.checked, [call]) ∧
            call.invocation.program = c.trainer ∧
            call.invocation.arguments = (p.runOptions run).map written ++
              ["--train_steps=" ++ toString p.config.trainSteps,
                "--eval_steps=" ++ toString p.config.evalSteps] ∧
            ∀ name ∈ sharedNames, given name call.invocation.arguments =
              given name (p.decodeStep run).invocation.arguments)) ∧
      ∀ step ∈ p.perturbSteps, ∃ c,
        parse reader environment step.invocation.arguments = .ok (.train c) ∧
          c.flags.perturbTraining = true ∧ c.flags.loops = 1 := by
  refine ⟨fun problem hproblem run hrun => ⟨p.infix_steps hproblem hrun, ?_⟩, fun step hstep => ?_⟩
  · refine ⟨_, p.parse_trainStep hreader huser environment run, rfl, fun hcheck σ runner s => ?_⟩
    obtain ⟨call, hrecord, hinvocation⟩ :=
      (TrainConfig.run_callsOnce _ runner hcheck rfl).record s
    refine ⟨call, hrecord, ?_, ?_, fun name hname => ?_⟩
    · rw [hinvocation]
      rfl
    · rw [hinvocation]
      exact p.trainer_arguments environment run
    · rw [hinvocation]
      exact p.given_trainer_eq environment run hname
  · obtain ⟨problem, model, direction, rfl⟩ := p.exists_eq_perturbStep hstep
    exact ⟨_, p.parse_perturbStep hreader huser environment problem model direction, rfl, rfl⟩

/-- The first combination of the default plan. -/
def firstRun : GridRun where
  problem := "semantic_parsing_for_thingtalk"
  direction := "bottomup"
  model := "luinet_copy_seq2seq"
  option := ""
  index := 0

theorem trainStep_agrees_defaults :
    defaults.config.userDir ≠ some "" ∧ firstRun ∈ defaults.gridRuns firstRun.problem ∧
      ∃ c call, parse reader [] (defaults.trainStep firstRun).invocation.arguments =
          .ok (.train c) ∧
        c.family.check c.flags.problem c.flags.model = .ok () ∧
        (c.run Rehearsal.runner.recorded).record (.start {} .empty ⟨[some 3], []⟩) =
          (call.checked, [call]) ∧
        given "hparams" (defaults.decodeStep firstRun).invocation.arguments =
          ["grammar_direction=bottomup"] ∧
        given "hparams" call.invocation.arguments = ["grammar_direction=bottomup"] ∧
        ∀ step ∈ defaults.perturbSteps, ∃ c',
          parse reader [] step.invocation.arguments = .ok (.train c') ∧
            c'.flags.perturbTraining = true := by
  have huser : defaults.config.userDir ≠ some "" := by decide
  have hproblem : firstRun.problem ∈ defaults.config.problems := by decide
  have hrun : firstRun ∈ defaults.gridRuns firstRun.problem := by decide +kernel
  obtain ⟨hgrid, hperturb⟩ := defaults.trainStep_agrees reader_isDocumented huser []
  obtain ⟨-, c, hparse, -, hcalls⟩ := hgrid firstRun.problem hproblem firstRun hrun
  have hcheck : c.family.check c.flags.problem c.flags.model = .ok () := by
    cases hparse.symm.trans (defaults.parse_trainStep reader_isDocumented huser [] firstRun)
    decide +kernel
  obtain ⟨call, hrecord, -, -, hgiven⟩ :=
    hcalls hcheck Rehearsal.runner (.start {} .empty ⟨[some 3], []⟩)
  have hoption : ("hparams", hparams firstRun) ∈ defaults.runOptions firstRun :=
    List.mem_append_left _ (by simp [coreOptions])
  have hdecode : given "hparams" (defaults.decodeStep firstRun).invocation.arguments =
      ["grammar_direction=bottomup"] := by
    rw [defaults.given_decodeStep_eq firstRun (by decide), defaults.given_runOptions hoption]
    decide +kernel
  refine ⟨huser, hrun, c, call, hparse, hcheck, hrecord, hdecode, ?_, fun step hstep => ?_⟩
  · rw [hgiven "hparams" (by decide), hdecode]
  · obtain ⟨c', hparse', hon, -⟩ := hperturb step hstep
    exact ⟨c', hparse', hon⟩

end Plan

end ParseBench
