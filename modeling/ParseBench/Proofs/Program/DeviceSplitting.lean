/-
  ParseBench.Proofs.Program.DeviceSplitting

  Programs with the devices split off. A device token that was put into a program looks like
  one that was there before, so from the front a split program cannot be read; from the back it
  can, since each function with a device has just the token before it to give up
  (`joinDevices_splitDevices`). A filter that keeps no device tokens does not see the tokens put
  in (`filter_splitDevices`), and in a program without device tokens of its own the devices are
  those of its functions (`devices_splitDevices`). So programs with the same functions are
  judged the same at the device level.
-/

import ParseBench.Proofs.Text.Split
import ParseBench.Program.Grammar
import ParseBench.Score.Outcome

namespace ParseBench

namespace Program

variable {token device : String} {p q : Program} {keep : String → Bool}

/-! ## Devices of functions -/

theorem isDevice_of_deviceOf? (h : deviceOf? token = some device) : isDevice device = true := by
  unfold deviceOf? at h
  split at h
  · cases h
  · obtain ⟨name, -, rfl⟩ := Option.map_eq_some_iff.1 h
    rw [isDevice, Text.startsWith_iff]
    exact ⟨name, by simp⟩
  · cases h

/-- Only function tokens have a device, so no device token has one. -/
theorem isFunction_of_deviceOf? (h : deviceOf? token = some device) :
    isFunction token = true := by
  unfold deviceOf? at h
  split at h
  · cases h
  · next name hnot htoken =>
      have hat : Text.startsWith token "@" = true :=
        Text.startsWith_iff.2 ⟨name, htoken.symm⟩
      have hone : isDevice token = false := by
        rw [isDevice, Bool.eq_false_iff, ne_eq, Text.startsWith_iff]
        rintro ⟨rest, hrest⟩
        -- a second `@` in front of the name
        have hchars : '@' :: '@' :: rest = '@' :: name := hrest.trans htoken
        exact hnot rest (List.cons.inj hchars).2.symm
      rw [isFunction, hat, hone]
      rfl
  · cases h

theorem deviceOf?_eq_none (h : isFunction token = false) : deviceOf? token = none := by
  cases hdevice : deviceOf? token with
  | none => rfl
  | some device =>
      rw [isFunction_of_deviceOf? hdevice] at h
      cases h

theorem splitDevices_cons (token : String) (p : Program) :
    splitDevices (token :: p) = (deviceOf? token).toList ++ token :: p.splitDevices := by
  rw [splitDevices, List.flatMap_cons, List.append_assoc, List.singleton_append, splitDevices]

/-! ## Reading a split program from the back -/

/-- One more token of a split program, before those that have been read: the flag says whether
    it is the device of the function behind it. -/
def readBack (token : String) (read : Bool × Program) : Bool × Program :=
  if read.1 then (false, read.2) else ((deviceOf? token).isSome, token :: read.2)

/-- The program that was split. -/
def joinDevices (p : Program) : Program :=
  (p.foldr readBack (false, [])).2

/-- A token is read together with its device: nothing is left to skip before it. -/
theorem foldr_readBack_block (token : String) (read : Program) :
    ((deviceOf? token).toList ++ [token]).foldr readBack (false, read) =
      (false, token :: read) := by
  cases hdevice : deviceOf? token with
  | none => simp [readBack, hdevice]
  | some device => simp [readBack, hdevice]

theorem foldr_readBack_splitDevices (p read : Program) :
    p.splitDevices.foldr readBack (false, read) = (false, p ++ read) := by
  induction p with
  | nil => rfl
  | cons token p ih =>
      -- all of `p` has been read when the block of the first token is reached
      rw [splitDevices_cons, List.append_cons, List.foldr_append, ih, foldr_readBack_block]
      rfl

theorem joinDevices_splitDevices (p : Program) : p.splitDevices.joinDevices = p := by
  rw [joinDevices, foldr_readBack_splitDevices, List.append_nil]

theorem splitDevices_injective : Function.Injective splitDevices :=
  Function.LeftInverse.injective joinDevices_splitDevices

/-! ## What filters see of a split program -/

/-- What keeps no device tokens keeps none of those that were put in. -/
theorem filter_splitDevices (h : ∀ token, isDevice token = true → keep token = false)
    (p : Program) : p.splitDevices.filter keep = p.filter keep := by
  induction p with
  | nil => rfl
  | cons token p ih =>
      have hblock : (deviceOf? token).toList.filter keep = [] := by
        rw [List.filter_eq_nil_iff]
        intro device hdevice
        rw [h device (isDevice_of_deviceOf? (Option.mem_toList.1 hdevice))]
        exact Bool.false_ne_true
      rw [splitDevices_cons, List.filter_append, hblock, List.nil_append, List.filter_cons,
        List.filter_cons, ih]

theorem functions_splitDevices (p : Program) : p.splitDevices.functions = p.functions := by
  refine filter_splitDevices (fun token htoken => ?_) p
  rw [isFunction, htoken, Bool.not_true, Bool.and_false]

theorem signature_splitDevices (p : Program) : p.splitDevices.signature = p.signature := by
  refine filter_splitDevices (fun token htoken => ?_) p
  have hshape : ∀ word ∈ shapeKeywords, isDevice word = false := by decide
  have hother : token ∉ shapeKeywords := by
    intro hmem
    rw [hshape token hmem] at htoken
    cases htoken
  simp [isFunction, htoken, hother]

/-- Without its device tokens a split program is as before, if there were none. -/
theorem filter_not_isDevice_splitDevices (h : ∀ token ∈ p, isDevice token = false) :
    p.splitDevices.filter (fun token => !isDevice token) = p := by
  have hkeep : ∀ token, isDevice token = true → (!isDevice token) = false := by
    intro token htoken
    rw [htoken, Bool.not_true]
  rw [filter_splitDevices hkeep, List.filter_eq_self]
  intro token htoken
  rw [h token htoken, Bool.not_false]

/-- The devices of a split program are those that were put in, if there were none before. -/
theorem devices_splitDevices (h : ∀ token ∈ p, isDevice token = false) :
    p.splitDevices.devices = p.filterMap deviceOf? := by
  induction p with
  | nil => rfl
  | cons token p ih =>
      obtain ⟨htoken, hp⟩ := List.forall_mem_cons.1 h
      have hblock : (deviceOf? token).toList.filter isDevice = (deviceOf? token).toList := by
        rw [List.filter_eq_self]
        intro device hdevice
        exact isDevice_of_deviceOf? (Option.mem_toList.1 hdevice)
      rw [splitDevices_cons, devices, List.filter_append, hblock,
        List.filter_cons_of_neg (by rw [htoken]; exact Bool.false_ne_true), ← devices, ih hp]
      cases hdevice : deviceOf? token with
      | none => rw [List.filterMap_cons_none hdevice]; rfl
      | some device => rw [List.filterMap_cons_some hdevice]; rfl

/-- What is put in depends on the functions of a program alone. -/
theorem filterMap_deviceOf?_functions (p : Program) :
    p.functions.filterMap deviceOf? = p.filterMap deviceOf? := by
  rw [functions, List.filterMap_filter]
  refine List.filterMap_congr fun token _ => ?_
  split
  · rfl
  · next hfunction => exact (deviceOf?_eq_none (Bool.eq_false_iff.2 hfunction)).symm

end Program

namespace ProgramGrammar

open Program

variable {g : ProgramGrammar}

theorem prepare_of_splitDevice (hg : g.kind.splitDevice = true) (p : Program) :
    g.prepare p = p.splitDevices := by
  rw [prepare, if_pos hg]

/-- A grammar that splits devices off loses nothing of a program: no other program is prepared in
    the same way, and functions and signature stay as they are. Programs without device tokens
    come back when the device tokens are taken out, and where two of them have the same functions
    the devices that were split off are the same, too. -/
theorem prepare_loses_nothing (hg : g.kind.splitDevice = true) (p q : Program) :
    (g.prepare p = g.prepare q → p = q) ∧
    (g.prepare p).functions = p.functions ∧ (g.prepare p).signature = p.signature ∧
    ((∀ token ∈ p, isDevice token = false) → (∀ token ∈ q, isDevice token = false) →
      (g.prepare p).filter (fun token => !isDevice token) = p ∧
      (p.functions = q.functions → q ≠ [] → ∀ same,
        (Outcome.judge (g.prepare p) (g.prepare q) same).device = true ∧
        (Outcome.judge (g.prepare p) (g.prepare q) same).function = true ∧
        (Outcome.judge (g.prepare p) (g.prepare q) same).functionCount = true)) := by
  rw [prepare_of_splitDevice hg, prepare_of_splitDevice hg]
  refine ⟨fun h => splitDevices_injective h, functions_splitDevices p, signature_splitDevices p,
    fun hp hq => ⟨filter_not_isDevice_splitDevices hp, fun hsame hne same => ?_⟩⟩
  have hfunctions : p.splitDevices.functions = q.splitDevices.functions := by
    rw [functions_splitDevices, functions_splitDevices, hsame]
  have hdevices : p.splitDevices.devices = q.splitDevices.devices := by
    rw [devices_splitDevices hp, devices_splitDevices hq, ← filterMap_deviceOf?_functions p,
      ← filterMap_deviceOf?_functions q, hsame]
  have hempty : q.splitDevices.isEmpty = false := by
    rw [List.isEmpty_eq_false_iff]
    -- the empty program is split into the empty program, and into that no other one is
    exact fun hnil => hne (splitDevices_injective hnil)
  simp [Outcome.judge, hempty, hfunctions, hdevices]

/-! ## A comic in two programs -/

/-- A grammar that splits devices off. -/
def splitting : ProgramGrammar :=
  { (default : ProgramGrammar) with kind := ⟨.bottomUp, true⟩ }

/-- A program that shows a comic and sends it on. -/
def sendComic : Program := ["now", "@com.xkcd.get_comic", "=>", "@com.twitter.post"]

/-- The same functions with another keyword. -/
def monitorComic : Program := ["monitor", "@com.xkcd.get_comic", "=>", "@com.twitter.post"]

theorem prepare_loses_nothing_comic :
    splitting.kind.splitDevice = true ∧
      splitting.prepare sendComic ≠ splitting.prepare monitorComic ∧
      splitting.prepare sendComic =
        ["now", "@@com.xkcd", "@com.xkcd.get_comic", "=>", "@@com.twitter", "@com.twitter.post"] ∧
      (splitting.prepare sendComic).filter (fun token => !isDevice token) = sendComic ∧
      (splitting.prepare sendComic).signature = sendComic.signature ∧
      (Outcome.judge (splitting.prepare sendComic) (splitting.prepare monitorComic) false).device =
        true := by
  have hsend : ∀ token ∈ sendComic, isDevice token = false := by decide
  have hmonitor : ∀ token ∈ monitorComic, isDevice token = false := by decide
  obtain ⟨hinjective, -, hsignature, hplain⟩ :=
    prepare_loses_nothing (g := splitting) rfl sendComic monitorComic
  obtain ⟨hback, hjudge⟩ := hplain hsend hmonitor
  refine ⟨rfl, fun hsame => ?_, by decide, hback, hsignature,
    (hjudge (by decide) (List.cons_ne_nil _ _) false).1⟩
  exact absurd (hinjective hsame) (by decide)

end ProgramGrammar

end ParseBench
