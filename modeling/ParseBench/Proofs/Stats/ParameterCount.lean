/-
  ParseBench.Proofs.Stats.ParameterCount

  The place of a parameter, read off the tokens before it: whether it is in a filter, and
  which function or device it belongs to, is said by the last token that says anything about
  it (`placeAfter`). A token takes the place after some tokens to the place after one more
  (`after_placeAfter`), so by induction on the program every parameter stands in the place
  after the tokens before it (`placed_placeAfter`), and the counts are counts of parameters by
  what precedes them (`counts_ofProgram`). With a device selected these are the parameters
  whose nearest function or device begins like the device's functions; they are the device's
  own unless there is one of another device whose name goes on (`counts_selected_device`).
-/

import Mathlib.Data.List.Infix
import ParseBench.Proofs.Text.Split
import ParseBench.Stats.Tabulate

namespace ParseBench

/-! ## The device of a function -/

theorem Program.startsWith_at_iff {token : String} :
    Text.startsWith token "@" = true ↔ ∃ name, token.toList = '@' :: name := by
  rw [Text.startsWith_iff]
  constructor
  · rintro ⟨name, h⟩
    exact ⟨name, h.symm⟩
  · rintro ⟨name, h⟩
    exact ⟨name, h.symm⟩

/-- The functions of a device have its name before the last dot of theirs. -/
theorem Program.deviceOf?_eq_some_iff {token device : String}
    (hdevice : Text.startsWith device "@" = false) :
    deviceOf? token = some ("@@" ++ device) ↔
      ∃ name, token = "@" ++ device ++ "." ++ name ∧ '.' ∉ name.toList := by
  unfold deviceOf?
  constructor
  · intro h
    split at h
    · cases h
    · next full _ hfull =>
        obtain ⟨front, hfront, hsame⟩ := Option.map_eq_some_iff.1 h
        obtain ⟨back, rfl, hback⟩ := Text.beforeLast?_eq_some_iff.1 hfront
        have hchars : front = device.toList := by
          have hlist := congrArg String.toList hsame
          rw [String.toList_ofList, String.toList_append] at hlist
          exact (List.cons.inj (List.cons.inj hlist).2).2
        refine ⟨String.ofList back, String.toList_injective ?_, by rwa [String.toList_ofList]⟩
        simp [hfull, hchars]
    · cases h
  · rintro ⟨name, rfl, hname⟩
    have hlist : ("@" ++ device ++ "." ++ name).toList =
        '@' :: (device.toList ++ '.' :: name.toList) := by
      simp
    split
    · next more hmore =>
        -- the device's name would have to begin with `@`
        rw [hlist, List.cons.injEq] at hmore
        cases hchars : device.toList with
        | nil => simp [hchars] at hmore
        | cons c chars =>
            have hat : Text.startsWith device "@" = true :=
              startsWith_at_iff.2 ⟨chars, by simp_all⟩
            rw [hdevice] at hat
            cases hat
    · next full _ hfull =>
        rw [hlist, List.cons.injEq] at hfull
        rw [← hfull.2, Text.beforeLast?_eq_some_iff.2 ⟨_, rfl, hname⟩, Option.map_some]
        exact congrArg some (String.toList_injective (by simp))
    · next hnone => exact absurd hlist (hnone _)

namespace ParameterCount

open Program

variable {device : Option String} {token : String} {front p : Program}

/-! ## What precedes a parameter -/

/-- The parameters of a program in order, each with the tokens before it. -/
def parameters (p : Program) : List (Program × String) :=
  (p.inits.zip p).filter fun t => isParameter t.2

/-- The nearest function or device before. -/
def owner? (front : Program) : Option String :=
  front.reverse.find? fun token => Text.startsWith token "@"

/-- Was a filter begun before that has not ended yet? -/
def inFilter (front : Program) : Bool :=
  front.reverse.find? (fun token =>
    Text.startsWith token "@" || token == ")" || token == "filter") == some "filter"

/-- Does the nearest function or device before begin like the functions of the selected device?
    Where none is selected, everything counts. -/
def selects (device : Option String) (front : Program) : Bool :=
  match device with
  | none => true
  | some lead => (owner? front).any fun name => Text.startsWith name lead

/-- The numbers are those of the parameters for which `counted` holds of the tokens before. -/
structure Counts (c : ParameterCount) (p : Program) (counted : Program → Bool) : Prop where
  totalParams : c.totalParams = (parameters p).countP fun t => !inFilter t.1
  totalFilters : c.totalFilters = (parameters p).countP fun t => inFilter t.1
  params : c.params = (parameters p).countP fun t => counted t.1 && !inFilter t.1
  filters : c.filters = (parameters p).countP fun t => counted t.1 && inFilter t.1
  combination : c.combination = ((parameters p).filter fun t => counted t.1).map (·.2)

theorem parameters_cons (token : String) (p : Program) :
    parameters (token :: p) =
      (if isParameter token then [([], token)] else []) ++
        (parameters p).map (Prod.map (token :: ·) id) := by
  rw [parameters, List.inits_cons, List.zip_cons_cons, List.filter_cons, List.zip_map_left,
    List.filter_map]
  split <;> rfl

/-- The nearest function or device is the last token, or stands before it. -/
theorem owner?_concat (front : Program) (token : String) :
    owner? (front ++ [token]) = if Text.startsWith token "@" then some token else owner? front := by
  rw [owner?, List.reverse_concat, List.find?_cons]
  split
  · next hat => rw [if_pos hat]
  · next hat =>
      rw [hat]
      rfl

/-- A filter ends at a function, a device or a closing parenthesis. -/
theorem inFilter_concat (front : Program) (token : String) :
    inFilter (front ++ [token]) =
      if Text.startsWith token "@" || token == ")" then false
      else if token == "filter" then true else inFilter front := by
  rw [inFilter, List.reverse_concat, List.find?_cons]
  by_cases hend : (Text.startsWith token "@" || token == ")") = true
  · have hne : token ≠ "filter" := by
      rintro rfl
      revert hend
      decide
    rw [hend, if_pos rfl]
    simpa using hne
  · rw [Bool.not_eq_true] at hend
    rw [hend, if_neg Bool.false_ne_true, Bool.false_or]
    split
    · next hfilter => simp_all
    · next hfilter =>
        rw [hfilter]
        rfl

/-- A parameter says nothing about filters and devices. -/
theorem quiet_of_isParameter (h : isParameter token = true) :
    Text.startsWith token "@" = false ∧ token ≠ ")" ∧ token ≠ "filter" := by
  obtain ⟨name, hname⟩ := Text.startsWith_iff.1 h
  refine ⟨?_, ?_, ?_⟩
  · rw [Bool.eq_false_iff]
    intro hat
    obtain ⟨rest, hrest⟩ := startsWith_at_iff.1 hat
    rw [hrest] at hname
    cases hname
  · rintro rfl
    cases hname
  · rintro rfl
    cases hname

/-! ## Places -/

/-- The place after some tokens: it is decided by them alone. -/
def placeAfter (device : Option String) (front : Program) : Place :=
  ⟨selects device front, inFilter front⟩

theorem placeAfter_nil (device : Option String) : placeAfter device [] = .start device := by
  cases device <;> rfl

/-- Of a device's functions, which begin with `@`, only a function or a device tells. -/
theorem device_concat (hlead : ∀ lead ∈ device, Text.startsWith lead "@" = true) (front : Program)
    (token : String) (inside : Bool) :
    (Place.mk (selects device front) inside).device device token =
      ⟨selects device (front ++ [token]), inside⟩ := by
  cases device with
  | none => rfl
  | some lead =>
      rw [Place.device, selects, selects, owner?_concat]
      split
      · next henters =>
          rw [if_pos (Text.startsWith_trans henters (hlead lead rfl)), Option.any_some, henters]
      · next henters =>
          split
          · next hat => rw [Option.any_some, Bool.eq_false_iff.2 henters]
          · rfl

theorem filter_concat (front : Program) (token : String) (inside : Bool) :
    (Place.mk inside (inFilter front)).filter token = ⟨inside, inFilter (front ++ [token])⟩ := by
  rw [Place.filter, inFilter_concat]
  split
  · rfl
  · split <;> rfl

/-- A token takes the place after some tokens to the place after these and itself. -/
theorem after_placeAfter (hlead : ∀ lead ∈ device, Text.startsWith lead "@" = true)
    (front : Program) (token : String) :
    (placeAfter device front).after device token = placeAfter device (front ++ [token]) := by
  rw [Place.after, placeAfter, device_concat hlead, filter_concat, placeAfter]

theorem placeAfter_parameter (device : Option String) (front : Program)
    (h : isParameter token = true) :
    placeAfter device (front ++ [token]) = placeAfter device front := by
  obtain ⟨hat, hclose, hfilter⟩ := quiet_of_isParameter h
  have hselects : selects device (front ++ [token]) = selects device front := by
    cases device with
    | none => rfl
    | some lead => rw [selects, selects, owner?_concat, hat, if_neg Bool.false_ne_true]
  rw [placeAfter, placeAfter, hselects, inFilter_concat, hat]
  simp [hclose, hfilter]

/-- Every parameter stands in the place after the tokens before it. By induction on the program,
    where `front` is what was read already. -/
theorem placed_placeAfter (hlead : ∀ lead ∈ device, Text.startsWith lead "@" = true)
    (front p : Program) :
    placed device (placeAfter device front) p =
      (parameters p).map fun t => (t.2, placeAfter device (front ++ t.1)) := by
  induction p generalizing front with
  | nil => rfl
  | cons token p ih =>
      have hrest : ((parameters p).map (Prod.map (token :: ·) id)).map
          (fun t => (t.2, placeAfter device (front ++ t.1))) =
          placed device (placeAfter device (front ++ [token])) p := by
        rw [ih, List.map_map]
        exact List.map_congr_left fun t _ => by simp
      rw [placed, after_placeAfter hlead, parameters_cons, List.map_append, hrest]
      split
      · next hparameter =>
          -- the place is read after the parameter itself, which does not change it
          rw [placeAfter_parameter device front hparameter, List.map_singleton, List.append_nil]
          rfl
      · rfl

/-! ## Counts -/

/-- The counts are those of the parameters that the selection takes. -/
theorem counts_ofProgram (hlead : ∀ lead ∈ device, Text.startsWith lead "@" = true) (p : Program) :
    (ofProgram p device).Counts p (selects device) := by
  have hplaced := placed_placeAfter hlead [] p
  rw [placeAfter_nil] at hplaced
  constructor <;> rw [ofProgram, hplaced, ofPlaced]
  case combination =>
    rw [List.filter_map, List.map_map]
    rfl
  all_goals exact List.countP_map

/-- Where fewer parameters may count, the numbers are the same only if no other one counted: the
    list of those that count would be shorter. -/
theorem Counts.iff_of_imp {c : ParameterCount} {narrow wide : Program → Bool}
    (himp : ∀ front, narrow front = true → wide front = true) (h : c.Counts p wide) :
    c.Counts p narrow ↔ ∀ t ∈ parameters p, wide t.1 = true → narrow t.1 = true := by
  constructor
  · intro hnarrow
    have hsub : ((parameters p).filter fun t => narrow t.1).Sublist
        ((parameters p).filter fun t => wide t.1) :=
      List.monotone_filter_right _ fun t => himp t.1
    have hlength := congrArg List.length (hnarrow.combination.symm.trans h.combination)
    rw [List.length_map, List.length_map] at hlength
    have hsame := hsub.eq_of_length hlength
    intro t ht hwide
    have hmem : t ∈ (parameters p).filter fun t => wide t.1 := List.mem_filter.2 ⟨ht, hwide⟩
    rw [← hsame] at hmem
    exact (List.mem_filter.1 hmem).2
  · intro hall
    have heq : ∀ t ∈ parameters p, wide t.1 = narrow t.1 :=
      fun t ht => Bool.eq_iff_iff.2 ⟨hall t ht, himp t.1⟩
    refine ⟨h.totalParams, h.totalFilters, h.params.trans ?_, h.filters.trans ?_,
      h.combination.trans ?_⟩
    · exact List.countP_congr fun t ht => by rw [heq t ht]
    · exact List.countP_congr fun t ht => by rw [heq t ht]
    · exact congrArg _ (List.filter_congr heq)

/-- Is the nearest function or device before a function of `device`? -/
def ofDevice (device : String) (front : Program) : Bool :=
  (owner? front).bind deviceOf? == some ("@@" ++ device)

theorem ofDevice_eq_true_iff {device : String} {front : Program} :
    ofDevice device front = true ↔
      ∃ function, owner? front = some function ∧ deviceOf? function = some ("@@" ++ device) := by
  rw [ofDevice, beq_iff_eq, Option.bind_eq_some_iff]

theorem selects_of_ofDevice {device : String} (hdevice : Text.startsWith device "@" = false)
    {front : Program} (h : ofDevice device front = true) :
    selects (some ("@" ++ device)) front = true := by
  obtain ⟨function, howner, hfunction⟩ := ofDevice_eq_true_iff.1 h
  obtain ⟨name, rfl, -⟩ := (deviceOf?_eq_some_iff hdevice).1 hfunction
  rw [selects, howner, Option.any_some, String.append_assoc]
  exact Text.startsWith_append _ _

/-- With a device selected, the parameters count whose nearest function or device begins like
    the device's functions. These are the parameters of the device's functions exactly if no
    parameter stands after a function of another device that begins in the same way. -/
theorem counts_selected_device {s : Stats.Setting} {device : String} (hs : s.device = some device)
    (hdevice : Text.startsWith device "@" = false) (p : Program) :
    (ofProgram p s.lead).Counts p (selects (some ("@" ++ device))) ∧
    ((ofProgram p s.lead).Counts p (ofDevice device) ↔
      ∀ t ∈ parameters p, ∀ function ∈ owner? t.1,
        Text.startsWith function ("@" ++ device) = true →
          deviceOf? function = some ("@@" ++ device)) ∧
    ∀ function, deviceOf? function = some ("@@" ++ device) ↔
      ∃ name, function = "@" ++ device ++ "." ++ name ∧ '.' ∉ name.toList := by
  have hlead : s.lead = some ("@" ++ device) := by rw [Stats.Setting.lead, hs, Option.map_some]
  have hcounts : (ofProgram p s.lead).Counts p (selects (some ("@" ++ device))) := by
    rw [hlead]
    refine counts_ofProgram (fun lead h => ?_) p
    cases h
    exact Text.startsWith_append "@" device
  refine ⟨hcounts, ?_, fun function => deviceOf?_eq_some_iff hdevice⟩
  rw [hcounts.iff_of_imp fun front => selects_of_ofDevice hdevice]
  constructor
  · intro h t ht function howner hbegins
    obtain ⟨other, hother, hdeviceOf⟩ := ofDevice_eq_true_iff.1
      (h t ht (by rw [selects, howner, Option.any_some, hbegins]))
    rw [howner] at hother
    cases hother
    exact hdeviceOf
  · intro h t ht hselects
    obtain ⟨function, howner, hbegins⟩ := (Option.any_eq_true _ _).1 hselects
    exact ofDevice_eq_true_iff.2 ⟨function, howner, h t ht function howner hbegins⟩

/-- Parameters of two devices, inside and outside of filters. -/
def comicTweet : Program :=
  ["@xkcd.get_comic", "param:number", "filter", "param:title", "@twitter.post", "param:text",
    "filter", "param:count"]

theorem counts_selected_device_comicTweet :
    (ofProgram comicTweet (Stats.Setting.mk default (some "twitter")).lead).Counts comicTweet
        (ofDevice "twitter") ∧
      (ofProgram comicTweet (Stats.Setting.mk default (some "twitter")).lead).combination =
        ["param:text", "param:count"] := by
  have hcounts := (counts_selected_device (s := ⟨default, some "twitter"⟩) rfl (by decide)
    comicTweet).2.1.2 (by decide +kernel)
  refine ⟨hcounts, hcounts.combination.trans ?_⟩
  decide +kernel

/-- The functions of a device whose name goes on count as well. -/
theorem counts_longer_name :
    deviceOf? "@twitter2.post" = some "@@twitter2" ∧
    (ofProgram ["@twitter2.post", "param:text"]
        (Stats.Setting.mk default (some "twitter")).lead).params = 1 ∧
    ¬ (ofProgram ["@twitter2.post", "param:text"]
        (Stats.Setting.mk default (some "twitter")).lead).Counts ["@twitter2.post", "param:text"]
      (ofDevice "twitter") := by
  refine ⟨by decide +kernel, by decide +kernel, fun h => ?_⟩
  have hparams := h.params
  revert hparams
  decide +kernel

end ParameterCount

end ParseBench
