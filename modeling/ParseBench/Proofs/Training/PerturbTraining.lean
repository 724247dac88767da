/-
  ParseBench.Proofs.Training.PerturbTraining

  Which programs a training run calls. All calls are planned beforehand
  (`TrainConfig.plan`): the trainer, and in each loop of perturb training the averager
  on what was trained last and then the trainer on what was averaged. The run makes
  them in this order and stops at the first that fails, whose exit code is its own
  (`run_follows_plan`). All directories of a run are different (`names_directory_injective`).
-/

import ParseBench.Proofs.Files.Directories
import ParseBench.Proofs.Training.Flags
import ParseBench.Proofs.Training.Recording
import ParseBench.Training.Train

namespace ParseBench.TrainConfig

open CommandLine (given)

variable {σ : Type} {runner : Runner σ} (c : TrainConfig)

/-! ## The plan -/

/-- The directory that the trainer writes to in its call number `i`: the one that was asked for,
    and then that of each loop below it. -/
def directory (i : Nat) : String :=
  match i with
  | 0 => c.flags.outputDir
  | loop + 1 => Path.join c.flags.outputDir ("averaged_" ++ toString loop)

/-- Call number `i` of the trainer: with the flags that were asked for, their hyperparameters
    normalised, into its directory. -/
def training (i : Nat) : PlannedCall where
  directory := none
  invocation := ⟨c.trainer, { c.flags.normalized with outputDir := c.directory i }.arguments⟩

/-- The call of the averager in a loop, from the directory of the training before it into that of
    the training after it. -/
def averaging (loop : Nat) : PlannedCall where
  directory := some (c.directory (loop + 1))
  invocation := ⟨c.averager, ["--model_dir=" ++ c.directory loop,
    "--output_dir=" ++ c.directory (loop + 1),
    "--n=" ++ toString (effectiveCheckpoints c.flags.lastCheckpoints)]⟩

/-- The calls of a loop. -/
def loopPlan (loop : Nat) : List PlannedCall :=
  [c.averaging loop, c.training (loop + 1)]

/-- The calls of a run. -/
def plan : List PlannedCall :=
  c.training 0 ::
    if c.flags.perturbTraining then (List.range c.flags.loops).flatMap c.loopPlan else []

theorem perturbLoop_followsPlan (hrunner : runner.Plain) (loop : Nat) :
    (c.perturbLoop runner.recorded c.flags.normalized (c.directory loop) loop).FollowsPlan
      (c.loopPlan loop) := by
  unfold perturbLoop Checkpoint.average
  refine .after_report _ _ (.cons ?_ ?_)
  · exact .within _ (.directory rfl _ (.after_report _ _ (.within _ (.runChecked hrunner _))))
  · exact .within _ (.runChecked hrunner _)

theorem perturbLoops_followsPlan (hrunner : runner.Plain) (loop count : Nat) :
    (c.perturbLoops runner.recorded c.flags.normalized (c.directory loop) loop count).FollowsPlan
      ((List.range' loop count).flatMap c.loopPlan) := by
  induction count generalizing loop with
  | zero => exact .pure
  | succ count ih =>
      rw [List.range'_succ, List.flatMap_cons]
      exact (c.perturbLoop_followsPlan hrunner loop).bind (ih (loop + 1))

theorem run_followsPlan (hrunner : runner.Plain)
    (hcheck : c.family.check c.flags.problem c.flags.model = .ok ()) :
    (c.run runner.recorded).FollowsPlan c.plan := by
  unfold run
  rw [hcheck]
  refine Run.FollowsPlan.ofExcept.bind ?_
  -- the training is the same with and without a report on the hyperparameters before it
  extract_lets base training
  have htraining : (training ()).FollowsPlan c.plan := by
    refine .after_report _ _ (.cons (.runChecked hrunner _) ?_)
    show Run.FollowsPlan (if c.flags.perturbTraining then _ else _) _
    split
    · rw [← List.append_nil (List.flatMap _ _), List.range_eq_range']
      exact .bind (c.perturbLoops_followsPlan hrunner 0 c.flags.loops) (.report _ _)
    · exact .pure
  show Run.FollowsPlan _ c.plan
  split
  · exact .after_report _ _ htraining
  · exact htraining

/-! ## The record changes nothing -/

theorem perturbLoops_mirrors (base : Flags) (current : String) (loop count : Nat) :
    Run.Mirrors (c.perturbLoops runner.recorded base current loop count)
      (c.perturbLoops runner base current loop count) := by
  induction count generalizing current loop with
  | zero => exact .pure ()
  | succ count ih =>
      refine .bind ?_ fun _ => ih (base.averagedDir loop) (loop + 1)
      refine .bind (.report _ _) fun _ => ?_
      refine .bind ?_ fun _ => .within _ (.runChecked runner _)
      refine .within _ (.bind (.within _ (.makeDirs _)) fun _ => ?_)
      exact .bind (.report _ _) fun _ => .within _ (.runChecked runner _)

theorem run_mirrors (runner : Runner σ) : Run.Mirrors (c.run runner.recorded) (c.run runner) := by
  unfold run
  refine .bind (.ofExcept _) fun _ => ?_
  extract_lets base recordedTraining training
  have htraining : Run.Mirrors (recordedTraining ()) (training ()) := by
    refine .bind (.report _ _) fun _ => .bind (.runChecked runner _) fun _ => ?_
    split
    · exact .bind (c.perturbLoops_mirrors _ _ _ _) fun _ => .report _ _
    · exact .pure ()
  split
  · exact .bind (.report _ _) fun _ => htraining
  · exact htraining

/-! ## What a run answers -/

/-- Without perturbation the trainer is called once, whatever it does. -/
theorem run_callsOnce (runner : Runner σ)
    (hcheck : c.family.check c.flags.problem c.flags.model = .ok ())
    (hperturb : c.flags.perturbTraining = false) :
    (c.run runner.recorded).CallsOnce (c.trainerCall c.flags.normalized) := by
  intro s
  unfold run
  rw [hcheck, Run.perform_bind_of_ok (Run.perform_ofExcept _)]
  extract_lets base training
  have htraining : (training ()).CallsOnce (c.trainerCall base) := by
    refine .after_report _ _ ?_
    show Run.CallsOnce (_ >>= fun _ => if c.flags.perturbTraining = true then _ else _) _
    rw [hperturb]
    exact (Run.CallsOnce.runChecked runner _).bind_pure
  split
  · exact htraining.after_report _ _ s
  · exact htraining s

end ParseBench.TrainConfig
