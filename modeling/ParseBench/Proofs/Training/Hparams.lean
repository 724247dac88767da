/-
  ParseBench.Proofs.Training.Hparams

  The items of the hyperparameters that a plan hands on. They are the direction and the
  option of a run with a comma between them, without the strays at the two ends
  (`trimWhere_spliced`). The strays at the end of the option are trimmed away; those at its
  beginning stay behind the comma, so a comma among them makes a blank item
  (`blankItemIn_append`). There is no other way to a blank item if direction and option
  have none (`hasBlankItem_hparams_iff`).
-/

import ParseBench.Proofs.Text.Split
import ParseBench.Proofs.Training.FunctionalTest

namespace ParseBench

open CommandLine

/-! ## Items -/

/-- Is the item empty, or is there nothing but blanks in it? -/
def AllBlank (item : List Char) : Prop :=
  ∀ c ∈ item, Text.isBlank c = true

instance (item : List Char) : Decidable (AllBlank item) :=
  List.decidableBAll _ item

/-- Is there such an item between commas? -/
def HasBlankItem (hparams : String) : Prop :=
  ∃ item ∈ Text.splitOn ',' hparams, AllBlank item.toList

instance (hparams : String) : Decidable (HasBlankItem hparams) :=
  List.decidableBEx (fun item : String => AllBlank item.toList) (Text.splitOn ',' hparams)

/-- The same for the characters. -/
def BlankItemIn (s : List Char) : Prop :=
  ∃ item ∈ Text.splitWhere (· == ',') s, AllBlank item

theorem hasBlankItem_iff {hparams : String} :
    HasBlankItem hparams ↔ BlankItemIn hparams.toList := by
  unfold HasBlankItem BlankItemIn Text.splitOn
  simp only [List.mem_map, exists_exists_and_eq_and, String.toList_ofList]

/-- What is trimmed from the ends of hyperparameters. -/
def isStray (c : Char) : Bool :=
  c == ',' || Text.isBlank c

theorem toList_normalizeHparams (hparams : String) :
    (normalizeHparams hparams).toList = Text.trimWhere isStray hparams.toList := by
  rw [normalizeHparams, String.toList_ofList]
  rfl

/-- Do hyperparameters begin with a comma, whatever blanks are around it? -/
def BeginsStray (hparams : String) : Prop :=
  ',' ∈ hparams.toList.takeWhile isStray

instance (hparams : String) : Decidable (BeginsStray hparams) :=
  inferInstanceAs (Decidable (_ ∈ _))

variable {head lead core : List Char}

theorem blankItemIn_cons (hhead : ',' ∉ head) (hblank : ∃ c ∈ head, Text.isBlank c = false)
    (s : List Char) : BlankItemIn (head ++ ',' :: s) ↔ BlankItemIn s := by
  have hcut : ∀ c ∈ head, (c == ',') = false := Text.beq_eq_false_of_not_mem hhead
  have hfirst : ¬ AllBlank head := by
    intro hall
    obtain ⟨c, hc, hnot⟩ := hblank
    rw [hall c hc] at hnot
    cases hnot
  unfold BlankItemIn
  rw [Text.splitWhere_append_cons hcut (by rfl)]
  simp only [List.exists_mem_cons_iff, hfirst, false_or]

theorem not_blankItemIn_single (hhead : ',' ∉ head)
    (hblank : ∃ c ∈ head, Text.isBlank c = false) : ¬ BlankItemIn head := by
  have hcut : ∀ c ∈ head, (c == ',') = false := Text.beq_eq_false_of_not_mem hhead
  obtain ⟨c, hc, hnot⟩ := hblank
  rintro ⟨item, hitem, hall⟩
  rw [Text.splitWhere_eq_singleton hcut, List.mem_singleton] at hitem
  rw [hall c (hitem ▸ hc)] at hnot
  cases hnot

/-- Strays in front of items make a blank item if there is a comma among them. -/
theorem blankItemIn_append (hlead : ∀ c ∈ lead, isStray c = true) (hcore : ¬ BlankItemIn core) :
    BlankItemIn (lead ++ core) ↔ ',' ∈ lead := by
  constructor
  · intro hblank
    by_contra hcomma
    have hcut : ∀ c ∈ lead, (c == ',') = false := Text.beq_eq_false_of_not_mem hcomma
    obtain ⟨first, rest, hsplit, hjoined⟩ := Text.splitWhere_append hcut core
    obtain ⟨item, hitem, hall⟩ := hblank
    rw [hjoined] at hitem
    -- the same item is blank without the strays
    rcases List.mem_cons.1 hitem with rfl | hrest
    · refine hcore ⟨first, by rw [hsplit]; exact List.mem_cons_self, fun c hc => ?_⟩
      exact hall c (List.mem_append_right _ hc)
    · exact hcore ⟨item, by rw [hsplit]; exact List.mem_cons_of_mem _ hrest, hall⟩
  · intro hcomma
    obtain ⟨front, back, rfl, hfirst⟩ := List.eq_append_cons_of_mem hcomma
    have hcut : ∀ c ∈ front, (c == ',') = false := Text.beq_eq_false_of_not_mem hfirst
    refine ⟨front, ?_, fun c hc => ?_⟩
    · rw [List.append_assoc, List.cons_append, Text.splitWhere_append_cons hcut (by rfl)]
      exact List.mem_cons_self
    · -- a stray that is no comma is blank
      have hstray := hlead c (List.mem_append_left _ hc)
      rw [isStray, hcut c hc, Bool.false_or] at hstray
      exact hstray

/-! ## A direction and an option -/

/-- What stands before the comma keeps its place, and so does all of the option but the strays at
    its end; without anything but strays there the comma goes, too. -/
theorem trimWhere_spliced {c d : Char} {option : List Char} (hc : isStray c = false)
    (hd : isStray d = false) (middle : List Char) :
    Text.trimWhere isStray ((c :: middle ++ [d]) ++ ',' :: option) =
      if Text.trimWhere isStray option = [] then c :: middle ++ [d]
      else (c :: middle ++ [d]) ++ ',' :: (option.takeWhile isStray ++
        Text.trimWhere isStray option) := by
  have hfront : ((c :: middle ++ [d]) ++ ',' :: option).dropWhile isStray =
      (c :: middle ++ [d]) ++ ',' :: option := by
    simp only [List.cons_append]
    exact List.dropWhile_cons_of_neg (by rw [hc]; exact Bool.false_ne_true)
  have hstrays : ∀ x ∈ ',' :: option.takeWhile isStray, isStray x = true :=
    List.forall_mem_cons.2 ⟨rfl, fun x hx => List.mem_takeWhile_imp hx⟩
  have hsplit : (c :: middle ++ [d]) ++ ',' :: option =
      ((c :: middle ++ [d]) ++ ',' :: option.takeWhile isStray) ++ option.dropWhile isStray := by
    simp only [List.append_assoc, List.cons_append, List.takeWhile_append_dropWhile]
  have htrim : ∀ s : List Char, Text.trimWhere isStray s =
      (s.dropWhile isStray).rdropWhile isStray := fun _ => rfl
  rw [htrim, hfront, hsplit, Text.rdropWhile_append, ← htrim]
  split
  · -- only strays follow the direction
    rw [Text.rdropWhile_append, List.rdropWhile_eq_nil_iff.2 hstrays, if_pos rfl,
      List.rdropWhile_concat_neg _ _ _ (by rw [hd]; exact Bool.false_ne_true)]
  · simp only [List.append_assoc, List.cons_append]

/-! ## The hyperparameters of the steps -/

namespace Plan

/-- Is this one item: neither empty nor with a comma or a blank in it? -/
def IsItem (direction : String) : Prop :=
  direction ≠ "" ∧ ∀ c ∈ direction.toList, c ≠ ',' ∧ Text.isBlank c = false

instance (direction : String) : Decidable (IsItem direction) :=
  have := List.decidableBAll (fun c => c ≠ ',' ∧ Text.isBlank c = false) direction.toList
  inferInstanceAs (Decidable (_ ∧ _))

/-- The item in front of an option. -/
def directionItem (direction : String) : String :=
  "grammar_direction=" ++ direction

theorem toList_directionItem (direction : String) :
    (directionItem direction).toList = 'g' :: ("rammar_direction=".toList ++ direction.toList) := by
  have hlead : "grammar_direction=".toList = 'g' :: "rammar_direction=".toList := by
    decide +kernel
  unfold directionItem
  rw [String.toList_append, hlead, List.cons_append]

theorem exists_last_directionItem {direction : String} (h : IsItem direction) :
    ∃ middle d, (directionItem direction).toList = 'g' :: middle ++ [d] ∧ isStray d = false := by
  obtain ⟨hne, hclean⟩ := h
  have hchars : direction.toList ≠ [] := fun hnil => hne (String.toList_eq_nil_iff.1 hnil)
  obtain ⟨front, d, hd⟩ := (List.eq_nil_or_concat' direction.toList).resolve_left hchars
  have hmem : d ∈ direction.toList := hd ▸ List.mem_append_right _ (List.mem_singleton_self d)
  obtain ⟨hcomma, hblank⟩ := hclean d hmem
  refine ⟨"rammar_direction=".toList ++ front, d, ?_, ?_⟩
  · rw [toList_directionItem, hd, List.cons_append, List.append_assoc]
  · rw [isStray, hblank, Bool.or_false]
    exact beq_eq_false_iff_ne.2 hcomma

theorem comma_not_mem_directionItem {direction : String} (h : IsItem direction) :
    ',' ∉ (directionItem direction).toList := by
  have hlead : ',' ∉ 'g' :: "rammar_direction=".toList := by decide +kernel
  rw [toList_directionItem, ← List.cons_append, List.mem_append, not_or]
  exact ⟨hlead, fun hmem => (h.2 ',' hmem).1 rfl⟩

theorem directionItem_not_blank (direction : String) :
    ∃ c ∈ (directionItem direction).toList, Text.isBlank c = false := by
  rw [toList_directionItem]
  exact ⟨'g', List.mem_cons_self, rfl⟩

theorem not_hasBlankItem_directionItem {direction : String} (h : IsItem direction) :
    ¬ HasBlankItem (directionItem direction) := by
  rw [hasBlankItem_iff]
  exact not_blankItemIn_single (comma_not_mem_directionItem h) (directionItem_not_blank direction)

/-- A run's hyperparameters have a blank item exactly if its option begins with a comma and there
    is something left of it. -/
theorem hasBlankItem_hparams_iff {run : GridRun} (hdirection : IsItem run.direction)
    (hoption : normalizeHparams run.option = "" ∨ ¬ HasBlankItem (normalizeHparams run.option)) :
    HasBlankItem (hparams run) ↔ normalizeHparams run.option ≠ "" ∧ BeginsStray run.option := by
  obtain ⟨middle, d, hitem, hd⟩ := exists_last_directionItem hdirection
  have hspliced : (hparams run).toList =
      Text.trimWhere isStray (('g' :: middle ++ [d]) ++ ',' :: run.option.toList) := by
    rw [hparams, toList_normalizeHparams, String.toList_append, String.toList_append, ← hitem,
      List.append_assoc]
    rfl
  have hempty : normalizeHparams run.option = "" ↔
      Text.trimWhere isStray run.option.toList = [] := by
    rw [← toList_normalizeHparams, String.toList_eq_nil_iff]
  rw [hasBlankItem_iff, hspliced, trimWhere_spliced (by rfl) hd, ← hitem]
  split
  · next hnone =>
      -- the comma goes with the option
      have hsingle := not_blankItemIn_single (comma_not_mem_directionItem hdirection)
        (directionItem_not_blank run.direction)
      exact iff_of_false hsingle fun h => h.1 (hempty.2 hnone)
  · next hsome =>
      have hne : normalizeHparams run.option ≠ "" := fun h => hsome (hempty.1 h)
      have hcore : ¬ BlankItemIn (Text.trimWhere isStray run.option.toList) := by
        rw [← toList_normalizeHparams, ← hasBlankItem_iff]
        exact hoption.resolve_left hne
      have hstrays : ∀ c ∈ run.option.toList.takeWhile isStray, isStray c = true :=
        fun c hc => List.mem_takeWhile_imp hc
      rw [blankItemIn_cons (comma_not_mem_directionItem hdirection)
        (directionItem_not_blank run.direction), blankItemIn_append hstrays hcore]
      exact (and_iff_right hne).symm

variable (p : Plan)

theorem exists_direction_of_mem_perturbSteps {s : PlanStep} (hs : s ∈ p.perturbSteps) :
    ∃ problem model, ∃ direction ∈ p.config.directions,
      s = p.perturbStep problem model direction := by
  unfold perturbSteps at hs
  split at hs
  · next hdirections =>
      exact ⟨_, _, _, hdirections ▸ List.mem_cons_self, List.mem_singleton.1 hs⟩
  · cases hs

theorem given_hparams_perturbStep (problem model direction : String) :
    given "hparams" (p.perturbStep problem model direction).invocation.arguments =
      [directionItem direction] := by
  have hoption : ("hparams", directionItem direction) ∈
      p.coreOptions problem model (directionItem direction)
        (Path.join (p.modelDir problem model) "perturb") ++ p.userDirOptions :=
    List.mem_append_left _ (by simp [coreOptions])
  exact p.given_perturbStep problem model direction hoption

/-- Training and decoding in a grid run are given its hyperparameters. -/
theorem given_hparams_of_mem {run : GridRun} {step : PlanStep}
    (hstep : step ∈ [p.trainStep run, p.decodeStep run]) :
    given "hparams" step.invocation.arguments = [hparams run] := by
  have hname : "hparams" ∈ sharedNames := by decide
  have hgiven : given "hparams" ((p.runOptions run).map written) = [hparams run] :=
    p.given_runOptions (o := ("hparams", hparams run))
      (List.mem_append_left _ (by simp [coreOptions]))
  rcases List.mem_pair.1 hstep with rfl | rfl
  · rw [p.given_trainStep_eq run hname, hgiven]
  · rw [p.given_decodeStep_eq run hname, hgiven]

/-- Every training and every decoding in a grid is given the hyperparameters of its run, and these
    have a blank item exactly if the run's option begins with a comma and is more than strays. The
    training with perturbation never has one. -/
theorem given_hparams_hasBlankItem_iff
    (hdirections : ∀ direction ∈ p.config.directions, IsItem direction)
    (hoptions : ∀ option ∈ p.config.hparamsOptions,
      normalizeHparams option = "" ∨ ¬ HasBlankItem (normalizeHparams option)) :
    (∀ problem ∈ p.config.problems, ∀ run ∈ p.gridRuns problem,
      ∀ step ∈ [p.trainStep run, p.decodeStep run], step ∈ p.steps ∧
        ∃ value, given "hparams" step.invocation.arguments = [value] ∧
          (HasBlankItem value ↔ normalizeHparams run.option ≠ "" ∧ BeginsStray run.option)) ∧
      ∀ step ∈ p.perturbSteps, step ∈ p.steps ∧
        ∃ value, given "hparams" step.invocation.arguments = [value] ∧ ¬ HasBlankItem value := by
  refine ⟨fun problem hproblem run hrun step hstep => ?_, fun step hstep => ?_⟩
  case refine_1 =>
    obtain ⟨hdirection, hoption⟩ := p.mem_of_mem_gridRuns hrun
    have hiff := hasBlankItem_hparams_iff (hdirections _ hdirection) (hoptions _ hoption)
    exact ⟨(p.infix_steps hproblem hrun).subset hstep, hparams run,
      p.given_hparams_of_mem hstep, hiff⟩
  case refine_2 =>
    have hmem : step ∈ p.steps :=
      List.mem_append_left _ (List.mem_append_right _ hstep)
    obtain ⟨problem, model, direction, hdirection, rfl⟩ :=
      p.exists_direction_of_mem_perturbSteps hstep
    exact ⟨hmem, directionItem direction, p.given_hparams_perturbStep problem model direction,
      not_hasBlankItem_directionItem (hdirections direction hdirection)⟩

/-- A plan with strays at both ends of its first option and in front of its second. -/
def strayPlan : Plan :=
  ⟨{ hparamsOptions := [",a=1,", " b=2"] }, ⟨"luinet", "t2t-datagen", "t2t-decoder"⟩⟩

/-- The run of that plan with the first direction and model and an option. -/
def strayRun (option : String) (index : Nat) : GridRun where
  problem := "semantic_parsing_for_thingtalk"
  direction := "bottomup"
  model := "luinet_copy_seq2seq"
  option := option
  index := index

/-- An option that is in order but for the comma at its beginning leaves an empty item in the
    hyperparameters of the decoder. -/
theorem strayPlan_empty_item :
    (∀ direction ∈ strayPlan.config.directions, IsItem direction) ∧
      (∀ option ∈ strayPlan.config.hparamsOptions,
        normalizeHparams option ≠ "" ∧ ¬ HasBlankItem (normalizeHparams option)) ∧
      strayPlan.decodeStep (strayRun ",a=1," 0) ∈ strayPlan.steps ∧
      given "hparams" (strayPlan.decodeStep (strayRun ",a=1," 0)).invocation.arguments =
        ["grammar_direction=bottomup,,a=1"] ∧
      HasBlankItem "grammar_direction=bottomup,,a=1" := by
  have hproblem : "semantic_parsing_for_thingtalk" ∈ strayPlan.config.problems := by decide
  have hrun : strayRun ",a=1," 0 ∈ strayPlan.gridRuns "semantic_parsing_for_thingtalk" := by
    decide +kernel
  have hstep : strayPlan.decodeStep (strayRun ",a=1," 0) ∈
      [strayPlan.trainStep (strayRun ",a=1," 0), strayPlan.decodeStep (strayRun ",a=1," 0)] :=
    List.mem_pair.2 (.inr rfl)
  refine ⟨by decide +kernel, by decide +kernel, (strayPlan.infix_steps hproblem hrun).subset hstep,
    ?_, by decide +kernel⟩
  rw [strayPlan.given_hparams_of_mem hstep]
  decide +kernel

theorem given_hparams_hasBlankItem_iff_strayPlan :
    (∀ direction ∈ strayPlan.config.directions, IsItem direction) ∧
      (∀ option ∈ strayPlan.config.hparamsOptions,
        normalizeHparams option = "" ∨ ¬ HasBlankItem (normalizeHparams option)) ∧
      (∃ value, given "hparams"
          (strayPlan.trainStep (strayRun ",a=1," 0)).invocation.arguments = [value] ∧
        HasBlankItem value) ∧
      (∃ value, given "hparams"
          (strayPlan.decodeStep (strayRun " b=2" 1)).invocation.arguments = [value] ∧
        ¬ HasBlankItem value) ∧
      strayPlan.perturbSteps ≠ [] ∧ ∀ step ∈ strayPlan.perturbSteps, ∃ value,
        given "hparams" step.invocation.arguments = [value] ∧ ¬ HasBlankItem value := by
  have hdirections : ∀ direction ∈ strayPlan.config.directions, IsItem direction := by
    decide +kernel
  have hoptions : ∀ option ∈ strayPlan.config.hparamsOptions,
      normalizeHparams option = "" ∨ ¬ HasBlankItem (normalizeHparams option) := by
    decide +kernel
  have hproblem : "semantic_parsing_for_thingtalk" ∈ strayPlan.config.problems := by decide
  have hfirst : strayRun ",a=1," 0 ∈ strayPlan.gridRuns "semantic_parsing_for_thingtalk" := by
    decide +kernel
  have hsecond : strayRun " b=2" 1 ∈ strayPlan.gridRuns "semantic_parsing_for_thingtalk" := by
    decide +kernel
  obtain ⟨hgrid, hperturb⟩ := strayPlan.given_hparams_hasBlankItem_iff hdirections hoptions
  obtain ⟨-, first, hgiven, hblank⟩ :=
    hgrid _ hproblem _ hfirst _ (List.mem_pair.2 (.inl rfl))
  obtain ⟨-, second, hgiven', hblank'⟩ :=
    hgrid _ hproblem _ hsecond _ (List.mem_pair.2 (.inr rfl))
  refine ⟨hdirections, hoptions, ⟨first, hgiven, hblank.2 (by decide +kernel)⟩,
    ⟨second, hgiven', fun h => ?_⟩, by decide, fun step hstep => (hperturb step hstep).2⟩
  -- only a blank is in front of the second option
  have hclean : ¬ BeginsStray " b=2" := by decide +kernel
  exact hclean (hblank'.1 h).2

end Plan

end ParseBench
