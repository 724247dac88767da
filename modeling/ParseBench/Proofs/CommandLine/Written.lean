/-
  ParseBench.Proofs.CommandLine.Written

  Options with their values in one word, `--name=value`. The name ends at the first
  equals sign, so a name without one is read back whatever the value is (`form_written`).
  `given` collects the values that the words of a call give to an option, without
  regard to the program that is called.
-/

import ParseBench.CommandLine.Reading

namespace ParseBench.CommandLine

/-! ## One word -/

/-- An option with its value, in one word. -/
def written (o : String × String) : String := "--" ++ o.1 ++ "=" ++ o.2

/-- A name without the sign that ends it. -/
def IsOptionName (name : String) : Prop := '=' ∉ name.toList

instance (name : String) : Decidable (IsOptionName name) :=
  inferInstanceAs (Decidable ('=' ∉ name.toList))

theorem form_written {o : String × String} (ho : IsOptionName o.1) :
    Form.of (written o) = .long o.1 (some o.2) := by
  have hword : (written o).toList = '-' :: '-' :: (o.1.toList ++ '=' :: o.2.toList) := by
    simp [written, String.toList_append]
  have hname : ∀ c ∈ o.1.toList, decide (c ≠ '=') = true := by
    intro c hc
    rw [decide_eq_true_eq]
    rintro rfl
    exact ho hc
  unfold Form.of
  rw [hword]
  simp only [List.takeWhile_append_of_pos hname, List.dropWhile_append_of_pos hname]
  simp

/-- Such a word has an equals sign in it. -/
theorem written_ne {word : String} (h : '=' ∉ word.toList) (o : String × String) :
    written o ≠ word := by
  rintro rfl
  simp [written, String.toList_append] at h

/-! ## Values -/

/-- The value that a word gives to an option. -/
def valueIn? (name word : String) : Option String :=
  match Form.of word with
  | .long n value => if n = name then value else none
  | _ => none

/-- The values that words give to an option. -/
def given (name : String) (words : List String) : List String :=
  words.filterMap (valueIn? name)

theorem given_append (name : String) (words more : List String) :
    given name (words ++ more) = given name words ++ given name more :=
  List.filterMap_append

/-- A word that gives the option no value does not count. -/
theorem given_cons_of_none {name word : String} (h : valueIn? name word = none)
    (words : List String) : given name (word :: words) = given name words :=
  List.filterMap_cons_none h

/-- Two dashes end the options and give none a value. -/
theorem given_cons_dashes (name : String) (words : List String) :
    given name ("--" :: words) = given name words := by
  refine given_cons_of_none ?_ words
  have hform : Form.of "--" = .long "" none := by rfl
  rw [valueIn?, hform]
  exact ite_self _

theorem given_written (name : String) {options : List (String × String)}
    (hnames : ∀ o ∈ options, IsOptionName o.1) :
    given name (options.map written) = (options.filter (·.1 = name)).map Prod.snd := by
  induction options with
  | nil => rfl
  | cons o options ih =>
      obtain ⟨ho, hnames⟩ := List.forall_mem_cons.1 hnames
      have hword : valueIn? name (written o) = if o.1 = name then some o.2 else none := by
        rw [valueIn?, form_written ho]
      rw [List.map_cons, given, List.filterMap_cons, hword, List.filter_cons]
      by_cases hname : o.1 = name
      · simp only [hname, if_true, decide_true, List.map_cons]
        rw [← ih hnames, given]
      · simp only [hname, if_false, decide_false, Bool.false_eq_true]
        rw [← ih hnames, given]

theorem given_eq_nil {name : String} {options : List (String × String)} {names : List String}
    (hoptions : options.map Prod.fst = names) (hnames : ∀ n ∈ names, IsOptionName n)
    (h : name ∉ names) : given name (options.map written) = [] := by
  subst hoptions
  rw [given_written name fun o ho => hnames _ (List.mem_map.2 ⟨o, ho, rfl⟩),
    List.filter_eq_nil_iff.2]
  · rfl
  · rintro o ho hname
    exact h (List.mem_map.2 ⟨o, ho, of_decide_eq_true hname⟩)

theorem filter_name_eq_singleton {options : List (String × String)}
    (hnodup : (options.map Prod.fst).Nodup) {o : String × String} (ho : o ∈ options) :
    options.filter (·.1 = o.1) = [o] := by
  induction options with
  | nil => cases ho
  | cons a options ih =>
      rw [List.map_cons, List.nodup_cons] at hnodup
      rcases List.mem_cons.1 ho with rfl | ho
      · rw [List.filter_cons_of_pos (by simp), List.filter_eq_nil_iff.2]
        intro b hb hname
        rw [← of_decide_eq_true hname] at hnodup
        exact hnodup.1 (List.mem_map.2 ⟨b, hb, rfl⟩)
      · have hne : a.1 ≠ o.1 := fun h => hnodup.1 (h ▸ List.mem_map.2 ⟨o, ho, rfl⟩)
        rw [List.filter_cons_of_neg (by simpa using hne)]
        exact ih hnodup.2 ho

/-- Where the options are some of a table without repetitions, each is given its value. -/
theorem given_of_sublist {options : List (String × String)} {names : List String}
    (hsub : (options.map Prod.fst).Sublist names) (hnames : ∀ name ∈ names, IsOptionName name)
    (hnodup : names.Nodup) {o : String × String} (ho : o ∈ options) :
    given o.1 (options.map written) = [o.2] := by
  have hwritten : ∀ o ∈ options, IsOptionName o.1 :=
    fun o ho => hnames _ (hsub.subset (List.mem_map.2 ⟨o, ho, rfl⟩))
  rw [given_written o.1 hwritten, filter_name_eq_singleton (hnodup.sublist hsub) ho]
  rfl

end ParseBench.CommandLine
