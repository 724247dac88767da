/-
  ParseBench.Proofs.Training.Recording

  Runs with a record of their calls. `Runner.recorded` hands every call on to a runner
  and notes the call, its answer and the files before and after it; nothing else of a
  run changes (`Mirrors`, one lemma for each step that a run can consist of). So what
  a run asks of a runner, whatever that runner does, is what stands in its record.
-/

import ParseBench.Proofs.Files.Location
import ParseBench.Proofs.Session
import ParseBench.Training.Runner

namespace ParseBench

variable {σ α β : Type}

/-! ## The record -/

/-- A call that was made, with the files that the program found and those that it left. -/
structure Call where
  invocation : Invocation
  found : FileTree
  answer : Except Error Int
  left : FileTree

namespace Call

/-- Did the program end with exit code zero? -/
def Succeeded (c : Call) : Prop :=
  c.answer = .ok 0

/-- The exit code of the program, and 1 where it could not be started. -/
def code (c : Call) : Int :=
  match c.answer with
  | .ok code => code
  | .error _ => 1

end Call

/-- The session with an empty record. -/
def Session.recording (s : Session σ) : Session (σ × List Call) :=
  { s with host := (s.host, []) }

/-- The session without its record. -/
def Session.unrecorded (s : Session (σ × List Call)) : Session σ :=
  { s with host := s.host.1 }

/-- The call of a runner in a session. -/
def Runner.call (runner : Runner σ) (i : Invocation) (s : Session (σ × List Call)) : Call where
  invocation := i
  found := s.files
  answer := ((runner i).perform s.unrecorded).1
  left := ((runner i).perform s.unrecorded).2.files

/-- Hands each call on and notes it. -/
def Runner.recorded (runner : Runner σ) : Runner (σ × List Call) := fun i =>
  ExceptT.mk fun s =>
    let s' := ((runner i).perform s.unrecorded).2
    ((runner.call i s).answer, { s' with host := (s'.host, s.host.2 ++ [runner.call i s]) })

/-- What a run answers and the calls that it makes. -/
def Run.record (r : Run (σ × List Call) α) (s : Session σ) : Except Error α × List Call :=
  ((r.perform s.recording).1, (r.perform s.recording).2.host.2)

/-- A runner whose own failures, such as a program that cannot be started, have exit code 1. -/
def Runner.Plain (runner : Runner σ) : Prop :=
  ∀ i s e s', (runner i).perform s = (.error e, s') → e.exitCode = 1

theorem Rehearsal.runner_plain : Rehearsal.runner.Plain := by
  intro i s e s' h
  rw [Rehearsal.runner, Run.perform_bind_of_ok Run.perform_get,
    Run.perform_bind_of_ok (Run.perform_set _)] at h
  cases hnext : s.host.next with
  | some code =>
      rw [hnext] at h
      cases h
  | none =>
      rw [hnext] at h
      cases h
      rfl

/-! ## Nothing else changes -/

/-- The first run does what the second one does, and keeps a record besides. -/
def Run.Mirrors (r : Run (σ × List Call) α) (r' : Run σ α) : Prop :=
  ∀ s, r'.perform s.unrecorded = ((r.perform s).1, (r.perform s).2.unrecorded)

namespace Run.Mirrors

variable {r : Run (σ × List Call) α} {r' : Run σ α}

theorem pure (a : α) : Mirrors (Pure.pure a : Run (σ × List Call) α) (Pure.pure a) :=
  fun _ => rfl

theorem bind {f : α → Run (σ × List Call) β} {f' : α → Run σ β} (h : Mirrors r r')
    (hf : ∀ a, Mirrors (f a) (f' a)) : Mirrors (r >>= f) (r' >>= f') := by
  intro s
  rw [perform_bind, perform_bind, h s]
  cases hr : perform r s with
  | mk result s' =>
      cases result with
      | ok a => exact hf a s'
      | error e => rfl

theorem report (level : Level) (message : String) :
    Mirrors (Run.report level message : Run (σ × List Call) Unit) (Run.report level message) :=
  fun _ => rfl

theorem fail (c : Cause) : Mirrors (Run.fail c : Run (σ × List Call) α) (Run.fail c) :=
  fun _ => rfl

theorem ofExcept (result : Except Error α) :
    Mirrors (Run.ofExcept result : Run (σ × List Call) α) (Run.ofExcept result) :=
  fun _ => rfl

theorem files : Mirrors (Run.files : Run (σ × List Call) FileTree) Run.files :=
  fun _ => rfl

theorem setFiles (t : FileTree) :
    Mirrors (Run.setFiles t : Run (σ × List Call) Unit) (Run.setFiles t) :=
  fun _ => rfl

theorem within (c : Context) (h : Mirrors r r') : Mirrors (Run.within c r) (Run.within c r') := by
  intro s
  rw [perform_within, perform_within, h s]

theorem makeDirs (path : String) :
    Mirrors (Run.makeDirs path : Run (σ × List Call) Unit) (Run.makeDirs path) := by
  intro s
  rw [perform_makeDirs, perform_makeDirs]
  rfl

theorem recorded (runner : Runner σ) (i : Invocation) : Mirrors (runner.recorded i) (runner i) :=
  fun _ => rfl

theorem runChecked (runner : Runner σ) (i : Invocation) :
    Mirrors (runner.recorded.runChecked i) (runner.runChecked i) := by
  refine (recorded runner i).bind fun code => ?_
  by_cases hcode : code = 0
  · rw [if_pos hcode, if_pos hcode]
    exact pure ()
  · rw [if_neg hcode, if_neg hcode]
    exact fail _

end Run.Mirrors

/-! ## Checked calls -/

/-- What a checked call answers: an error has the exit code of the program. -/
inductive Call.Settles (c : Call) : Except Error Unit → Prop
  | ok (h : c.Succeeded) : Settles c (.ok ())
  | failed {e : Error} (h : ¬ c.Succeeded) (he : e.exitCode = c.code) : Settles c (.error e)

theorem Call.Settles.mapError {c : Call} {result : Except Error Unit} (h : c.Settles result)
    (context : Context) : c.Settles (result.mapError (Error.within context)) := by
  cases h with
  | ok h => exact .ok h
  | failed h he => exact .failed h he

/-- A call was noted in the record, and the files are those that it left. -/
structure Session.Notes (s : Session (σ × List Call)) (call : Call)
    (s' : Session (σ × List Call)) : Prop where
  calls : s'.host.2 = s.host.2 ++ [call]
  files : s'.files = call.left

/-- What a checked call answers, by the answer of the program. -/
def Call.checked (c : Call) : Except Error Unit :=
  match c.answer with
  | .error e => .error e
  | .ok code => if code = 0 then .ok () else .error ⟨[], .externalFailure c.invocation.program code⟩

theorem Runner.perform_runChecked (runner : Runner σ) (i : Invocation)
    (s : Session (σ × List Call)) :
    ∃ s', (runner.recorded.runChecked i).perform s = ((runner.call i s).checked, s') ∧
      s.Notes (runner.call i s) s' := by
  have hcall : (runner.recorded i).perform s = ((runner.call i s).answer,
      { ((runner i).perform s.unrecorded).2 with
        host := (((runner i).perform s.unrecorded).2.host, s.host.2 ++ [runner.call i s]) }) := rfl
  unfold Runner.runChecked Call.checked
  cases hanswer : (runner.call i s).answer with
  | error e =>
      rw [hanswer] at hcall
      exact ⟨_, Run.perform_bind_of_error hcall, rfl, rfl⟩
  | ok code =>
      rw [hanswer] at hcall
      rw [Run.perform_bind_of_ok hcall]
      dsimp only
      split
      · exact ⟨_, rfl, rfl, rfl⟩
      · exact ⟨_, rfl, rfl, rfl⟩

theorem Runner.Plain.settles {runner : Runner σ} (hrunner : runner.Plain) (i : Invocation)
    (s : Session (σ × List Call)) : (runner.call i s).Settles (runner.call i s).checked := by
  unfold Call.checked
  cases hanswer : (runner.call i s).answer with
  | error e =>
      refine .failed ?_ ?_
      · rw [Call.Succeeded, hanswer]
        exact nofun
      · rw [Call.code, hanswer]
        exact hrunner i s.unrecorded e _ (Prod.ext hanswer rfl)
  | ok code =>
      dsimp only
      split
      · next hcode => exact .ok (by rw [Call.Succeeded, hanswer, hcode])
      · next hcode =>
          refine .failed ?_ ?_
          · rw [Call.Succeeded, hanswer]
            exact fun h => hcode (Except.ok.inj h)
          · rw [Call.code, hanswer]
            rfl

/-- The run makes one call, and answers as it is settled. -/
def Run.CallsOnce (r : Run (σ × List Call) Unit) (i : Invocation) : Prop :=
  ∀ s, ∃ call s', r.perform s = (call.checked, s') ∧ s'.host.2 = s.host.2 ++ [call] ∧
    call.invocation = i

namespace Run.CallsOnce

variable {r : Run (σ × List Call) Unit} {i : Invocation}

theorem runChecked (runner : Runner σ) (i : Invocation) :
    (runner.recorded.runChecked i).CallsOnce i := by
  intro s
  obtain ⟨s', hperform, hnotes⟩ := runner.perform_runChecked i s
  exact ⟨_, s', hperform, hnotes.calls, rfl⟩

theorem after_report (level : Level) (message : String) (h : r.CallsOnce i) :
    (Run.report level message >>= fun _ => r).CallsOnce i := by
  intro s
  rw [perform_bind_of_ok (perform_report level message)]
  exact h _

theorem bind_pure (h : r.CallsOnce i) : (r >>= fun _ => Pure.pure ()).CallsOnce i := by
  intro s
  obtain ⟨call, s', hperform, hcalls, hinvocation⟩ := h s
  refine ⟨call, s', ?_, hcalls, hinvocation⟩
  rw [perform_bind, hperform]
  cases call.checked <;> rfl

theorem record (h : r.CallsOnce i) (s : Session σ) :
    ∃ call, r.record s = (call.checked, [call]) ∧ call.invocation = i := by
  obtain ⟨call, s', hperform, hcalls, hinvocation⟩ := h s.recording
  refine ⟨call, ?_, hinvocation⟩
  rw [Run.record, hperform, hcalls]
  rfl

end Run.CallsOnce

/-! ## Plans -/

/-- A call to be made, and the directory that is made before it. -/
structure PlannedCall where
  directory : Option String
  invocation : Invocation

/-- The files with the directory of a planned call, and why it cannot be made. -/
def PlannedCall.ready (p : PlannedCall) (t : FileTree) : FileTree × Option Refusal :=
  match p.directory with
  | some path => t.makeDirs path
  | none => (t, none)

/-- What a run answers, and the calls it makes, when it makes the planned ones in order until one
    fails or its directory cannot be made. The files are those at the beginning and the end. -/
inductive Follows : List PlannedCall → FileTree → Except Error Unit → List Call → FileTree → Prop
  | done {t : FileTree} : Follows [] t (.ok ()) [] t
  | blocked {p : PlannedCall} {rest : List PlannedCall} {t : FileTree} {e : Error}
      (h : (p.ready t).2 ≠ none) (he : e.exitCode = 1) :
      Follows (p :: rest) t (.error e) [] (p.ready t).1
  | failed {p : PlannedCall} {rest : List PlannedCall} {t : FileTree} {e : Error} {call : Call}
      (h : (p.ready t).2 = none) (hinvocation : call.invocation = p.invocation)
      (hfound : call.found = (p.ready t).1) (hnot : ¬ call.Succeeded)
      (he : e.exitCode = call.code) : Follows (p :: rest) t (.error e) [call] call.left
  | next {p : PlannedCall} {rest : List PlannedCall} {t t' : FileTree}
      {result : Except Error Unit} {call : Call} {calls : List Call} (h : (p.ready t).2 = none)
      (hinvocation : call.invocation = p.invocation) (hfound : call.found = (p.ready t).1)
      (hok : call.Succeeded) (hrest : Follows rest call.left result calls t') :
      Follows (p :: rest) t result (call :: calls) t'

namespace Follows

variable {plan more : List PlannedCall} {t t' t'' : FileTree} {result : Except Error Unit}
  {calls calls' : List Call} {e : Error}

/-- After a plan that has been gone through comes what is planned after it. -/
theorem append (h : Follows plan t (.ok ()) calls t') (h' : Follows more t' result calls' t'') :
    Follows (plan ++ more) t result (calls ++ calls') t'' := by
  generalize hok : (Except.ok () : Except Error Unit) = first at h
  induction h with
  | done => exact h'
  | blocked => cases hok
  | failed => cases hok
  | next hready hinvocation hfound hsucceeded _ ih =>
      exact .next hready hinvocation hfound hsucceeded (ih h' hok)

/-- What is planned after a failure is not done. -/
theorem append_of_error (h : Follows plan t (.error e) calls t') (more : List PlannedCall) :
    Follows (plan ++ more) t (.error e) calls t' := by
  generalize herror : (Except.error e : Except Error Unit) = result at h
  induction h with
  | done => cases herror
  | blocked hready he =>
      cases herror
      exact .blocked hready he
  | failed hready hinvocation hfound hnot he =>
      cases herror
      exact .failed hready hinvocation hfound hnot he
  | next hready hinvocation hfound hsucceeded _ ih =>
      exact .next hready hinvocation hfound hsucceeded (ih herror)

theorem mapError (h : Follows plan t result calls t') (context : Context) :
    Follows plan t (result.mapError (Error.within context)) calls t' := by
  induction h with
  | done => exact .done
  | blocked hready he => exact .blocked hready he
  | failed hready hinvocation hfound hnot he => exact .failed hready hinvocation hfound hnot he
  | next hready hinvocation hfound hsucceeded _ ih =>
      exact .next hready hinvocation hfound hsucceeded ih

/-- A directory that can be made may as well be there already. -/
theorem of_ready {p : PlannedCall} (h : (p.ready t).2 = none)
    (hfollows : Follows (⟨none, p.invocation⟩ :: more) (p.ready t).1 result calls t') :
    Follows (p :: more) t result calls t' := by
  cases hfollows with
  | blocked hready _ => exact absurd rfl hready
  | failed _ hinvocation hfound hnot he => exact .failed h hinvocation hfound hnot he
  | next _ hinvocation hfound hok hrest => exact .next h hinvocation hfound hok hrest

/-- No call is made that is not planned. -/
theorem isPrefix (h : Follows plan t result calls t') :
    calls.map Call.invocation <+: plan.map PlannedCall.invocation := by
  induction h with
  | done => exact List.prefix_rfl
  | blocked => exact List.nil_prefix
  | failed _ hinvocation _ _ _ =>
      rw [List.map_singleton, List.map_cons, hinvocation]
      exact List.prefix_append [_] _
  | next _ hinvocation _ _ _ ih =>
      rw [List.map_cons, List.map_cons, hinvocation]
      exact List.cons_prefix_cons.2 ⟨rfl, ih⟩

/-- All is well just when all planned calls were made and ended with zero. -/
theorem ok_iff (h : Follows plan t result calls t') :
    result = .ok () ↔
      calls.map Call.invocation = plan.map PlannedCall.invocation ∧
        ∀ call ∈ calls, call.Succeeded := by
  induction h with
  | done => simp
  | blocked => simp
  | failed _ _ _ hnot _ => simp [hnot]
  | next _ hinvocation _ hsucceeded _ ih =>
      rw [ih, List.map_cons, List.map_cons, hinvocation, List.cons.injEq, List.forall_mem_cons]
      simp [hsucceeded]

/-- The files after some calls. -/
def filesAfter (t : FileTree) (calls : List Call) : FileTree :=
  (calls.getLast?.map Call.left).getD t

theorem filesAfter_cons (t : FileTree) (call : Call) (calls : List Call) :
    filesAfter t (call :: calls) = filesAfter call.left calls := by
  cases calls with
  | nil => rfl
  | cons other calls =>
      rw [filesAfter, filesAfter, List.getLast?_cons_cons, List.getLast?_cons]
      rfl

/-- A failure is that of the last call, or of the directory of the one after it. -/
theorem error_cases (h : Follows plan t (.error e) calls t') :
    (∃ before last, calls = before ++ [last] ∧ (∀ call ∈ before, call.Succeeded) ∧
        ¬ last.Succeeded ∧ e.exitCode = last.code) ∨
      ∃ p, plan[calls.length]? = some p ∧ (∀ call ∈ calls, call.Succeeded) ∧
        (p.ready (filesAfter t calls)).2 ≠ none ∧ e.exitCode = 1 := by
  generalize herror : (Except.error e : Except Error Unit) = result at h
  induction h with
  | done => cases herror
  | @blocked p rest t _ hready he =>
      cases herror
      exact .inr ⟨p, rfl, by simp, hready, he⟩
  | @failed p rest t _ call _ _ _ hnot he =>
      cases herror
      exact .inl ⟨[], call, rfl, by simp, hnot, he⟩
  | @next p rest t t' _ call calls _ _ _ hsucceeded _ ih =>
      rcases ih herror with ⟨before, last, rfl, hbefore, hnot, he⟩ | ⟨q, hq, hall, hready, he⟩
      · exact .inl ⟨call :: before, last, rfl,
          List.forall_mem_cons.2 ⟨hsucceeded, hbefore⟩, hnot, he⟩
      · -- the files before the failure are counted from the first call on
        rw [← filesAfter_cons t] at hready
        exact .inr ⟨q, hq, List.forall_mem_cons.2 ⟨hsucceeded, hall⟩, hready, he⟩

end Follows

/-- The run follows the plan in every session. -/
def Run.FollowsPlan (r : Run (σ × List Call) Unit) (plan : List PlannedCall) : Prop :=
  ∀ s, ∃ calls, (r.perform s).2.host.2 = s.host.2 ++ calls ∧
    Follows plan s.files (r.perform s).1 calls (r.perform s).2.files

namespace Run.FollowsPlan

variable {r r' : Run (σ × List Call) Unit} {plan more : List PlannedCall}

/-- The record of a run that follows a plan. -/
theorem record (h : r.FollowsPlan plan) {s : Session σ} {result : Except Error Unit}
    {calls : List Call} (hrecord : r.record s = (result, calls)) :
    ∃ t, Follows plan s.files result calls t := by
  obtain ⟨more, hmore, hfollows⟩ := h s.recording
  obtain ⟨hresult, hcalls⟩ := Prod.mk.inj hrecord
  obtain rfl : more = calls := hmore.symm.trans hcalls
  exact ⟨_, hresult ▸ hfollows⟩

theorem pure : (Pure.pure () : Run (σ × List Call) Unit).FollowsPlan [] :=
  fun _ => ⟨[], (List.append_nil _).symm, .done⟩

theorem report (level : Level) (message : String) :
    (Run.report level message : Run (σ × List Call) Unit).FollowsPlan [] :=
  fun _ => ⟨[], (List.append_nil _).symm, .done⟩

theorem ofExcept : (Run.ofExcept (.ok ()) : Run (σ × List Call) Unit).FollowsPlan [] :=
  fun _ => ⟨[], (List.append_nil _).symm, .done⟩

theorem bind (h : r.FollowsPlan plan) (h' : r'.FollowsPlan more) :
    (r >>= fun _ => r').FollowsPlan (plan ++ more) := by
  intro s
  obtain ⟨calls, hcalls, hfollows⟩ := h s
  rw [perform_bind]
  cases hr : r.perform s with
  | mk result s' =>
      rw [hr] at hcalls hfollows
      cases result with
      | error e => exact ⟨calls, hcalls, hfollows.append_of_error more⟩
      | ok _ =>
          obtain ⟨calls', hcalls', hfollows'⟩ := h' s'
          refine ⟨calls ++ calls', ?_, hfollows.append hfollows'⟩
          rw [hcalls', hcalls, List.append_assoc]

/-- A report comes before the calls. -/
theorem after_report (level : Level) (message : String) (h : r.FollowsPlan plan) :
    (Run.report level message >>= fun _ => r).FollowsPlan plan :=
  (report level message).bind h

/-- What makes one call comes before the other calls. -/
theorem cons {p : PlannedCall} (h : r.FollowsPlan [p]) (h' : r'.FollowsPlan more) :
    (r >>= fun _ => r').FollowsPlan (p :: more) :=
  h.bind h'

theorem within (c : Context) (h : r.FollowsPlan plan) : (Run.within c r).FollowsPlan plan := by
  intro s
  obtain ⟨calls, hcalls, hfollows⟩ := h s
  rw [perform_within]
  exact ⟨calls, hcalls, hfollows.mapError c⟩

/-- Making the directory of the first planned call and going on without. -/
theorem directory {p : PlannedCall} {path : String} (hp : p.directory = some path) (c : Context)
    (h : r.FollowsPlan (⟨none, p.invocation⟩ :: more)) :
    (Run.within c (Run.makeDirs path) >>= fun _ => r).FollowsPlan (p :: more) := by
  intro s
  have hready : p.ready s.files = s.files.makeDirs path := by
    rw [PlannedCall.ready, hp]
  rw [perform_bind, perform_within, perform_makeDirs]
  cases hmade : (s.files.makeDirs path).2 with
  | some refusal =>
      refine ⟨[], (List.append_nil _).symm, ?_⟩
      rw [← hready] at hmade ⊢
      exact .blocked (by rw [hmade]; exact Option.some_ne_none _) rfl
  | none =>
      obtain ⟨calls, hcalls, hfollows⟩ := h { s with files := (s.files.makeDirs path).1 }
      refine ⟨calls, hcalls, .of_ready (by rw [hready]; exact hmade) ?_⟩
      rw [hready]
      exact hfollows

theorem runChecked {runner : Runner σ} (hrunner : runner.Plain) (i : Invocation) :
    (runner.recorded.runChecked i).FollowsPlan [⟨none, i⟩] := by
  intro s
  obtain ⟨s', hperform, hnotes⟩ := runner.perform_runChecked i s
  rw [hperform]
  refine ⟨[runner.call i s], hnotes.calls, ?_⟩
  rw [hnotes.files]
  have hsettles := hrunner.settles i s
  generalize (runner.call i s).checked = result at hsettles
  cases hsettles with
  | ok hsucceeded => exact .next rfl rfl rfl hsucceeded .done
  | failed hnot he => exact .failed rfl rfl rfl hnot he

end Run.FollowsPlan

end ParseBench
