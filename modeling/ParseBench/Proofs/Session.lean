/-
  ParseBench.Proofs.Session

  What each kind of run does to a session. A run is performed step by step
  (`perform_bind`): the first error ends it, and what was done until then stays. The
  other equations say what one step answers and what it leaves behind.
-/

import ParseBench.Session

namespace ParseBench.Run

variable {σ α β : Type} {s : Session σ}

@[simp] theorem perform_pure (a : α) : perform (pure a : Run σ α) s = (.ok a, s) := rfl

/-- The second part is performed in the session that the first one leaves behind, if the first
    one yields a value. -/
theorem perform_bind (r : Run σ α) (f : α → Run σ β) :
    perform (r >>= f) s =
      match perform r s with
      | (.ok a, s') => perform (f a) s'
      | (.error e, s') => (.error e, s') := by
  unfold perform
  rw [ExceptT.run_bind, StateT.run_bind]
  rcases StateT.run (ExceptT.run r) s with ⟨_ | _, s'⟩ <;> rfl

theorem perform_bind_of_ok {r : Run σ α} {f : α → Run σ β} {a : α} {s' : Session σ}
    (h : perform r s = (.ok a, s')) : perform (r >>= f) s = perform (f a) s' := by
  rw [perform_bind, h]

theorem perform_bind_of_error {r : Run σ α} {f : α → Run σ β} {e : Error} {s' : Session σ}
    (h : perform r s = (.error e, s')) : perform (r >>= f) s = (.error e, s') := by
  rw [perform_bind, h]

@[simp] theorem perform_get : perform (get : Run σ (Session σ)) s = (.ok s, s) := rfl

@[simp] theorem perform_set (s' : Session σ) :
    perform (set s' : Run σ PUnit) s = (.ok ⟨⟩, s') := rfl

@[simp] theorem perform_report (level : Level) (message : String) :
    perform (report level message) s =
      (.ok (), { s with events := s.events ++ [⟨level, message⟩] }) := rfl

@[simp] theorem perform_fail (c : Cause) :
    perform (fail c : Run σ α) s = (.error ⟨[], c⟩, s) := rfl

@[simp] theorem perform_ofExcept (r : Except Error α) :
    perform (ofExcept r : Run σ α) s = (r, s) := rfl

@[simp] theorem perform_files : perform (files : Run σ FileTree) s = (.ok s.files, s) := rfl

@[simp] theorem perform_setFiles (t : FileTree) :
    perform (setFiles t) s = (.ok (), { s with files := t }) := rfl

/-- A context changes nothing but the error. -/
theorem perform_within (c : Context) (r : Run σ α) :
    perform (within c r) s = ((perform r s).1.mapError (Error.within c), (perform r s).2) := by
  rfl

theorem perform_within_of_ok (c : Context) {r : Run σ α} {a : α} {s' : Session σ}
    (h : perform r s = (.ok a, s')) : perform (within c r) s = (.ok a, s') := by
  rw [perform_within, h]
  rfl

/-- The tree is as far as it got, also when a directory could not be made. -/
theorem perform_makeDirs (path : String) :
    perform (makeDirs path) s =
      ((s.files.makeDirs path).2.elim (.ok ()) fun _ => .error ⟨[], .system⟩,
        { s with files := (s.files.makeDirs path).1 }) := by
  rw [makeDirs, perform_bind_of_ok perform_files]
  dsimp only
  rw [perform_bind_of_ok (perform_setFiles _)]
  cases (s.files.makeDirs path).2 with
  | none => rfl
  | some refusal => rfl

/-- A file is read without any other effect. -/
theorem perform_readBytes {path : String} {bytes : ByteArray} (h : s.files.read path = .ok bytes) :
    (readBytes path).perform s = (.ok bytes, s) := by
  unfold readBytes
  rw [perform_bind_of_ok perform_files]
  split
  · -- the standard input and pipes are read, but not as files
    next hfind => simp [FileTree.read, hfind, bind, Except.bind] at h
  · next hfind => simp [FileTree.read, hfind, bind, Except.bind] at h
  · rw [perform_bind_of_ok perform_files, ofAccess, h]
    rfl

theorem perform_readText {path : String} {bytes : ByteArray} {text : String}
    (h : s.files.read path = .ok bytes) (htext : String.fromUTF8? bytes = some text) :
    (readText path).perform s = (.ok text, s) := by
  unfold readText
  rw [perform_bind_of_ok (perform_readBytes h), htext]
  rfl

end ParseBench.Run
