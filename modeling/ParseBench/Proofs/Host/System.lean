/-
  ParseBench.Proofs.Host.System

  What the runner of a machine keeps to, whatever the programs do. It announces every call. A
  program that ends answers with an exit code, which is reported; one that cannot be started
  fails the call for one cause and leaves everything else as it was; and no program is started
  that has no name or is given a text with the zero character in it (`IsSystem`).

  The runner of a machine is such a runner (`runner_isSystem`), and runs of the process itself
  need no more of it: they follow their plans (`plan_run_followsPlan`, `train_run_followsPlan`).
-/

import ParseBench.Host.System
import ParseBench.Proofs.Training.FunctionalTest
import ParseBench.Proofs.Training.PerturbTraining

namespace ParseBench

variable {σ : Type}

/-! ## Runners of machines -/

/-- The announcement of a call. -/
def Invocation.announcement (i : Invocation) : Event :=
  ⟨.info, "Running: " ++ i.display⟩

/-- The report about a program that has ended. -/
def Invocation.ended (i : Invocation) (code : Int) : Event :=
  if code = 0 then ⟨.debug, "'" ++ i.program ++ "' finished"⟩
  else ⟨.warn, "'" ++ i.program ++ "' exited with code " ++ toString code⟩

/-- The session with a further event. -/
def Session.reported (s : Session σ) (e : Event) : Session σ :=
  { s with events := s.events ++ [e] }

/-- A runner that starts programs and waits for their ends. -/
structure Runner.IsSystem (runner : Runner σ) : Prop where
  /-- A program that ends is announced before and reported after, and otherwise changes nothing
      in the report. -/
  ended : ∀ i s code s', (runner i).perform s = (.ok code, s') →
    s'.events = s.events ++ [i.announcement, i.ended code]
  /-- A program that cannot be started is announced, and changes nothing else. -/
  refused : ∀ i s e s', (runner i).perform s = (.error e, s') →
    e = ⟨[.starting i.program], .system⟩ ∧ s' = s.reported i.announcement
  /-- What cannot be handed to a program is not started. -/
  passable : ∀ i s code s', (runner i).perform s = (.ok code, s') →
    i.program ≠ "" ∧ ∀ text ∈ i.program :: i.arguments, '\x00' ∉ text.toList

theorem Runner.IsSystem.plain {runner : Runner σ} (h : runner.IsSystem) : runner.Plain := by
  intro i s e s' hrun
  rw [(h.refused i s e s' hrun).1]
  rfl

namespace Host

variable (h : Host) {s : Session Schedule}

/-! ## Starting -/

/-- A program that is searched for ends and leaves the report alone, or cannot be started. -/
theorem perform_startFirst_cases (arguments paths : List String) (s : Session Schedule) :
    (∃ code s', (h.startFirst arguments paths).perform s = (.ok code, s') ∧
        s'.events = s.events) ∨
      (h.startFirst arguments paths).perform s = (.error ⟨[], .system⟩, s) := by
  induction paths with
  | nil => exact .inr rfl
  | cons path rest ih =>
      rw [startFirst, Run.perform_bind_of_ok Run.perform_get]
      dsimp only
      split
      · exact .inr rfl
      · exact ih
      · exact .inl ⟨_, _, rfl, rfl⟩

/-- This program run by itself ends with the status of its command line. -/
theorem perform_inSelf (inner : Runner Schedule) (i : Invocation) (s : Session Schedule) :
    (h.inSelf inner i).perform s =
      (.ok (CommandLine.execute h.libraries h.self inner h.environment i.arguments s).1,
        { (CommandLine.execute h.libraries h.self inner h.environment i.arguments s).2 with
          events := s.events }) := by
  rw [inSelf, Run.perform_bind_of_ok Run.perform_get]
  rfl

theorem perform_start_cases (inner : Runner Schedule) (i : Invocation) (s : Session Schedule) :
    (∃ code s', (h.start inner i).perform s = (.ok code, s') ∧ s'.events = s.events ∧
        isPassable i = true ∧ i.program ≠ "") ∨
      (h.start inner i).perform s = (.error ⟨[], .system⟩, s) := by
  rw [start]
  split
  · exact .inr rfl
  · next hpassable =>
      have hcall : isPassable i = true ∧ i.program ≠ "" := by
        simpa [String.isEmpty_iff] using hpassable
      split
      · rw [perform_inSelf]
        exact .inl ⟨_, _, rfl, rfl, hcall⟩
      · refine (h.perform_startFirst_cases _ _ s).imp_left ?_
        rintro ⟨code, s', hstart, hevents⟩
        exact ⟨code, s', hstart, hevents, hcall⟩

/-! ## The runner -/

/-- A call is announced, then started, and what it has come to is reported. -/
theorem perform_runner_cases (depth : Nat) (i : Invocation) (s : Session Schedule) :
    (∃ (code : Int) (s' : Session Schedule),
        (h.runner (depth + 1) i).perform s = (.ok code, s'.reported (i.ended code)) ∧
        s'.events = s.events ++ [i.announcement] ∧ isPassable i = true ∧ i.program ≠ "") ∨
      (h.runner (depth + 1) i).perform s =
        (.error ⟨[.starting i.program], .system⟩, s.reported i.announcement) := by
  have hannounced : (Run.report .info ("Running: " ++ i.display)).perform s =
      (.ok (), s.reported i.announcement) := rfl
  rw [runner, Run.perform_bind_of_ok hannounced]
  obtain ⟨code, s', hstart, hevents, hcall⟩ | hstart :=
    h.perform_start_cases (h.runner depth) i (s.reported i.announcement)
  · rw [Run.perform_bind_of_ok (Run.perform_within_of_ok _ hstart)]
    refine .inl ⟨code, s', ?_, hevents, hcall⟩
    by_cases hcode : code = 0
    · rw [if_pos hcode, Invocation.ended, if_pos hcode]
      rfl
    · rw [if_neg hcode, Invocation.ended, if_neg hcode]
      rfl
  · have hrefused : (Run.within (.starting i.program) (h.start (h.runner depth) i)).perform
        (s.reported i.announcement) =
          (.error ⟨[.starting i.program], .system⟩, s.reported i.announcement) := by
      rw [Run.perform_within, hstart]
      rfl
    rw [Run.perform_bind_of_error hrefused]
    exact .inr rfl

theorem runner_isSystem (depth : Nat) : (h.runner (depth + 1)).IsSystem where
  ended i s code s' hrun := by
    obtain ⟨code', s₁, hended, hevents, -⟩ | hrefused := h.perform_runner_cases depth i s
    · rw [hended] at hrun
      cases hrun
      rw [Session.reported, hevents, List.append_assoc]
      rfl
    · rw [hrefused] at hrun
      cases hrun
  refused i s e s' hrun := by
    obtain ⟨code', s₁, hended, -⟩ | hrefused := h.perform_runner_cases depth i s
    · rw [hended] at hrun
      cases hrun
    · rw [hrefused] at hrun
      cases hrun
      exact ⟨rfl, rfl⟩
  passable i s code s' hrun := by
    obtain ⟨code', s₁, hended, -, hpassable, hprogram⟩ | hrefused :=
      h.perform_runner_cases depth i s
    · refine ⟨hprogram, fun text htext hzero => ?_⟩
      have htext' := List.all_eq_true.1 hpassable text htext
      simp [hzero] at htext'
    · rw [hrefused] at hrun
      cases hrun

/-! ## Runs of the process -/

/-- The runner of the process. -/
theorem runner_plain : (h.runner maxDepth).Plain :=
  (h.runner_isSystem 63).plain

/-- A functional test of the process makes the calls of its plan. -/
theorem plan_run_followsPlan (p : Plan) :
    (p.run (h.runner maxDepth).recorded).FollowsPlan (p.steps.map Plan.plannedCall) :=
  p.run_followsPlan h.runner_plain

/-- A training of the process makes the calls of its plan. -/
theorem train_run_followsPlan (c : TrainConfig)
    (hcheck : c.family.check c.flags.problem c.flags.model = .ok ()) :
    (c.run (h.runner maxDepth).recorded).FollowsPlan c.plan :=
  c.run_followsPlan h.runner_plain hcheck

end Host

end ParseBench
