/-
  ParseBench.Proofs.Data.DevSplit

  The moved test file as one of the dev split. The search looks for names that begin with the
  problem's name and the marker of the test split; the dev name comes from the first marker in
  the file's name. These go together as long as there is no marker in the problem's name
  (`devName_testName`); otherwise the marker in the problem's name is the one that is replaced
  (`exists_devName_of_mentionsTest`). Either way a search after the move finds nothing
  (`not_isPrefix_devName`), unless the file had its dev name before.
-/

import ParseBench.Proofs.Data.Relocate
import ParseBench.Proofs.Files.Glob

namespace ParseBench.Shard

open FileName (ofText)

variable {σ : Type} {glob : PatternReader} {t t' : FileTree}
  {dataDir problem suffix name : String} {l : Location} {f : File}

/-! ## Names of the two splits -/

/-- What stands between the problem's name and the rest of the name of a test file. -/
def testMark : List Char := "-test".toList

/-- The same for a file of the dev split. -/
def devMark : List Char := "-dev".toList

/-- Is the marker of the test split in the problem's own name? -/
def MentionsTest (problem : String) : Prop :=
  testMark <:+: problem.toList

instance (problem : String) : Decidable (MentionsTest problem) :=
  inferInstanceAs (Decidable (_ <:+: _))

/-- The name of a test file. -/
def testName (problem suffix : String) : String :=
  problem ++ "-test" ++ suffix

theorem toList_testName (problem suffix : String) :
    (testName problem suffix).toList = problem.toList ++ (testMark ++ suffix.toList) := by
  rw [testName, String.toList_append, String.toList_append, List.append_assoc]
  rfl

theorem toList_devName (name : String) :
    (devName name).toList = Text.replaceFirst testMark devMark name.toList := by
  rw [devName, String.toList_ofList]
  rfl

/-- What comes after a part without the marker has its first marker replaced. -/
theorem toList_devName_of_first {front rest : List Char} (h : ¬ testMark <:+: front)
    (hname : name.toList = front ++ (testMark ++ rest)) :
    (devName name).toList = front ++ (devMark ++ rest) := by
  have hmark : testMark = '-' :: ['t', 'e', 's', 't'] := by decide +kernel
  rw [toList_devName, hname]
  rw [hmark] at h ⊢
  exact Text.replaceFirst_append (by decide) h

theorem toList_devName_testName (h : ¬ MentionsTest problem) :
    (devName (testName problem suffix)).toList = problem.toList ++ (devMark ++ suffix.toList) :=
  toList_devName_of_first h (toList_testName problem suffix)

theorem devName_testName (h : ¬ MentionsTest problem) :
    devName (testName problem suffix) = problem ++ "-dev" ++ suffix := by
  apply String.toList_injective
  rw [toList_devName_testName h, String.toList_append, String.toList_append, List.append_assoc]
  rfl

/-- A marker in the problem's name comes first. -/
theorem exists_devName_of_mentionsTest (h : MentionsTest problem) (suffix : String) :
    ∃ front back, problem.toList = front ++ (testMark ++ back) ∧
      (devName (testName problem suffix)).toList =
        front ++ (devMark ++ (back ++ (testMark ++ suffix.toList))) := by
  obtain ⟨front, back, hproblem, hfirst⟩ := Text.exists_first_infix (by decide +kernel) h
  refine ⟨front, back, hproblem, toList_devName_of_first hfirst ?_⟩
  rw [toList_testName, hproblem]
  simp only [List.append_assoc]

theorem not_isPrefix_mark (back rest : List Char) : ¬ testMark ++ back <+: devMark ++ rest := by
  have htest : testMark = ['-', 't', 'e', 's', 't'] := by decide +kernel
  have hdev : devMark = ['-', 'd', 'e', 'v'] := by decide +kernel
  rw [htest, hdev]
  simp

/-- The dev name of a test file does not begin like that of a test file. -/
theorem not_isPrefix_devName (problem suffix : String) :
    ¬ (problem ++ "-test").toList <+: (devName (testName problem suffix)).toList := by
  have hlead : (problem ++ "-test").toList = problem.toList ++ (testMark ++ []) := by
    rw [String.toList_append, List.append_nil]
    rfl
  rw [hlead]
  by_cases h : MentionsTest problem
  · obtain ⟨front, back, hproblem, hdev⟩ := exists_devName_of_mentionsTest h suffix
    rw [hproblem, hdev, List.append_assoc, List.prefix_append_right_inj, List.append_assoc]
    exact not_isPrefix_mark _ _
  · rw [toList_devName_testName h, List.prefix_append_right_inj]
    exact not_isPrefix_mark _ _

/-- It begins with the problem's name and the marker of the dev split if the problem's name is
    without the other marker. -/
theorem isPrefix_devName_iff (problem suffix : String) :
    (problem ++ "-dev").toList <+: (devName (testName problem suffix)).toList ↔
      ¬ MentionsTest problem := by
  have hlead : (problem ++ "-dev").toList = problem.toList ++ devMark := by
    rw [String.toList_append]
    rfl
  rw [hlead]
  constructor
  · intro hbegins h
    obtain ⟨front, back, hproblem, hdev⟩ := exists_devName_of_mentionsTest h suffix
    rw [hproblem, hdev, List.append_assoc, List.prefix_append_right_inj, List.append_assoc]
      at hbegins
    exact not_isPrefix_mark _ _ hbegins
  · intro h
    rw [toList_devName_testName h, ← List.append_assoc]
    exact List.prefix_append _ _

theorem devName_testName_iff :
    devName (testName problem suffix) = problem ++ "-dev" ++ suffix ↔ ¬ MentionsTest problem := by
  refine ⟨fun h => (isPrefix_devName_iff problem suffix).1 ?_, devName_testName⟩
  have hcut : (problem ++ "-dev" ++ suffix).toList = (problem ++ "-dev").toList ++ suffix.toList :=
    String.toList_append
  rw [h, hcut]
  exact List.prefix_append _ _

/-! ## The only test file -/

/-- Is there just one file in the data directory whose name begins like that of a test file, with
    this at the end of its name? -/
structure HoldsTestFile (t : FileTree) (dataDir problem suffix : String) (l : Location)
    (f : File) : Prop where
  located : t.locate dataDir = .ok l
  directory : t.get? l = some .directory
  file : t.get? (l ++ [ofText (testName problem suffix)]) = some (.file f)
  only : ∀ (name : FileName) g, t.get? (l ++ [name]) = some (.file g) →
    name.BeginsWith (problem ++ "-test") → name = testName problem suffix

theorem isPlain_mark : Glob.IsPlain "-test" ∧ Glob.IsPlain "-dev" := by
  decide +kernel

/-- The pattern of a problem's test files matches the names that begin like that of one. -/
theorem exists_testPattern (hglob : Glob.ReadsStar glob) (hplain : Glob.IsPlain problem) :
    ∃ isMatch, glob (testPattern problem) = some isMatch ∧
      ∀ name, isMatch name = true ↔ name.BeginsWith (problem ++ "-test") := by
  have hpattern : testPattern problem = problem ++ "-test" ++ "*" := by
    rw [testPattern, String.append_assoc]
    rfl
  rw [hpattern]
  exact hglob _ (hplain.append isPlain_mark.1)

theorem HoldsTestFile.isOnlyTestFile (hglob : Glob.ReadsStar glob)
    (hplain : Glob.IsPlain problem) (h : HoldsTestFile t dataDir problem suffix l f) :
    IsOnlyTestFile glob t dataDir problem l (ofText (testName problem suffix)) f := by
  obtain ⟨isMatch, hpattern, hmatch⟩ := exists_testPattern hglob hplain
  refine ⟨h.located, h.directory, h.file, isMatch, hpattern, ⟨⟨f, h.file⟩, ?_⟩, ?_⟩
  · rw [hmatch, FileName.beginsWith_ofText_iff, toList_testName, String.toList_append]
    exact ⟨suffix.toList, List.append_assoc _ _ _⟩
  · rintro other ⟨⟨g, hg⟩, hother⟩
    exact h.only other g hg ((hmatch other).1 hother)

/-! ## After the move -/

/-- Is the file there already under its dev name, so that moving it changes nothing? -/
def IsLinked (t : FileTree) (destination : Location) (f : File) : Prop :=
  ∃ g, t.get? destination = some (.file g) ∧ g.number = f.number

/-- Is no other file known by the number of this one? -/
def IsNumbered (t : FileTree) (f : File) : Prop :=
  ∀ k g, t.get? k = some (.file g) → g.number = f.number → g = f

variable {s s' : Session σ}

/-- A move that succeeds is one of the file to its dev name, after the directory was made. -/
theorem moves_of_relocate (hnames : s.files.NamesAreNames)
    (h : IsOnlyTestFile glob s.files dataDir problem l (ofText name) f) {dir : String}
    (hrun : (relocate glob dataDir problem).perform s = (.ok dir, s'))
    (hrenamed : (withTarget s.files dataDir).move (Path.join dataDir name)
      (Path.join dir (devName name)) = .ok t') :
    (s.files.makeDirs (targetDir dataDir)).2 = none ∧ dir = targetDir dataDir ∧ s'.files = t' ∧
      ∃ target, (withTarget s.files dataDir).locate dir = .ok target ∧
        (withTarget s.files dataDir).get? target = some .directory ∧
        (withTarget s.files dataDir).Moves (l ++ [ofText name])
          (target ++ [ofText (devName name)]) (.file f) t' := by
  have hmade : (s.files.makeDirs (targetDir dataDir)).2 = none := by
    by_contra hblocked
    obtain ⟨e, -, hperform⟩ := perform_relocate_of_blocked h hblocked
    rw [hperform] at hrun
    cases hrun
  obtain ⟨s'', hperform, -, hmoved⟩ := perform_relocate_of_made h hmade
  obtain ⟨hdir, rfl⟩ := Prod.mk.inj (hperform.symm.trans hrun)
  obtain rfl := Except.ok.inj hdir
  obtain ⟨target, htarget, hdirectory⟩ := FileTree.isDirectory_iff.1 (withTarget_cases h hmade).1
  refine ⟨hmade, rfl, ?_, target, htarget, hdirectory,
    moves_withTarget hnames h hmade htarget hdirectory hrenamed⟩
  rcases hmoved with ⟨r, hrefused, -⟩ | hmove
  · rw [hrenamed] at hrefused
    cases hrefused
  · exact Except.ok.inj (hmove.symm.trans hrenamed)

/-- Only a directory is new in the tree to which the file is moved. -/
theorem get?_of_withTarget (h : IsOnlyTestFile glob t dataDir problem l (ofText name) f)
    (hmade : (t.makeDirs (targetDir dataDir)).2 = none) {k : Location} {e : Entry}
    (hne : e ≠ .directory) (hk : (withTarget t dataDir).get? k = some e) : t.get? k = some e := by
  rcases (withTarget_makesOnly h hmade).2 k with hsame | ⟨-, -, hdir⟩
  · rw [← hsame, hk]
  · exact absurd (Option.some.inj (hk.symm.trans hdir)) hne

/-- A file that had its dev name before is still the test file. -/
theorem HoldsTestFile.withTarget (hglob : Glob.ReadsStar glob)
    (hplain : Glob.IsPlain problem) (h : HoldsTestFile t dataDir problem suffix l f)
    (hmade : (t.makeDirs (targetDir dataDir)).2 = none) :
    HoldsTestFile (withTarget t dataDir) dataDir problem suffix l f where
  located := locate_withTarget (h.isOnlyTestFile hglob hplain) hmade
  directory := get?_withTarget_of_some (h.isOnlyTestFile hglob hplain) hmade h.directory
  file := get?_withTarget_of_some (h.isOnlyTestFile hglob hplain) hmade h.file
  only := fun name g hg => h.only name g
    (get?_of_withTarget (h.isOnlyTestFile hglob hplain) hmade Entry.noConfusion hg)

/-- Once the file has been moved no file's name begins like that of a test file. -/
theorem testNames_eq_nil (h : HoldsTestFile t dataDir problem suffix l f)
    {isMatch : FileName → Bool}
    (hmatch : ∀ name, isMatch name = true ↔ name.BeginsWith (problem ++ "-test"))
    {target : Location}
    (hget : ∀ k, t'.get? k =
      if k = target ++ [ofText (devName (testName problem suffix))] then some (.file f)
      else if k = l ++ [ofText (testName problem suffix)] then none else t.get? k) :
    testNames t' l isMatch = [] := by
  refine List.eq_nil_iff_forall_not_mem.2 fun name hname => ?_
  obtain ⟨⟨g, hg⟩, hlike⟩ := mem_testNames.1 hname
  have hbegins := (hmatch name).1 hlike
  rw [hget] at hg
  split at hg
  · -- the file that was moved has its dev name now
    next heq =>
      obtain ⟨-, hnames⟩ := List.append_inj' heq rfl
      obtain rfl := List.singleton_inj.1 hnames
      exact not_isPrefix_devName problem suffix (FileName.beginsWith_ofText_iff.1 hbegins)
  · split at hg
    · cases hg
    · next hne =>
        exact hne (by rw [h.only name g hg hbegins])

/-- What is found after the only test file has been renamed: the file under its dev name, in the
    directory that is evaluated on. -/
structure IsDevFile (glob : PatternReader) (t : FileTree) (s' : Session σ)
    (dataDir problem suffix : String) (f : File) (target : Location) : Prop where
  leads : (withTarget t dataDir).locate (targetDir dataDir) = .ok target
  directory : s'.files.get? target = some .directory
  file : s'.files.get? (target ++ [ofText (devName (testName problem suffix))]) = some (.file f)
  /-- If the new name did not take the place of a link, on which paths might depend, the path of
      the directory still leads there, and a search for test files finds none, or the same one if
      it had that name before. -/
  ways : (∀ path, t.get? (target ++ [ofText (devName (testName problem suffix))]) ≠
      some (.link path)) →
    s'.files.locate (targetDir dataDir) = .ok target ∧
      (¬ IsLinked t (target ++ [ofText (devName (testName problem suffix))]) f →
        (testFiles glob dataDir problem).perform s' = (.ok [], s')) ∧
      (IsLinked t (target ++ [ofText (devName (testName problem suffix))]) f →
        (testFiles glob dataDir problem).perform s' = (.ok [ofText (testName problem suffix)], s'))

theorem isDevFile_of_moves (hglob : Glob.ReadsStar glob) (hplain : Glob.IsPlain problem)
    (hnumbered : IsNumbered s.files f)
    (h : HoldsTestFile s.files dataDir problem suffix l f)
    (hmade : (s.files.makeDirs (targetDir dataDir)).2 = none) {target : Location}
    (htarget : (withTarget s.files dataDir).locate (targetDir dataDir) = .ok target)
    (hdir : (withTarget s.files dataDir).get? target = some .directory)
    (hmoves : (withTarget s.files dataDir).Moves (l ++ [ofText (testName problem suffix)])
      (target ++ [ofText (devName (testName problem suffix))]) (.file f) t')
    (hfiles : s'.files = t') :
    IsDevFile glob s.files s' dataDir problem suffix f target := by
  have honly := h.isOnlyTestFile hglob hplain
  have hholds := h.withTarget hglob hplain hmade
  have hdirectory : s'.files.get? target = some .directory := by
    rw [hfiles]
    exact (relocated_of_moves honly hmade htarget hdir hmoves).directory
  cases hmoves with
  | @kept old hold hsame =>
      cases old with
      | file g =>
          -- the names stay, and both are names of the file
          have hnumber : g.number = f.number := (eq_of_beq hsame).symm
          have hthere := get?_of_withTarget honly hmade Entry.noConfusion hold
          obtain rfl := hnumbered _ g hthere hnumber
          rw [← hfiles] at hold hholds
          refine ⟨htarget, hdirectory, hold, fun _ => ⟨?_, fun hnot => ?_, fun _ => ?_⟩⟩
          · rw [hfiles]
            exact htarget
          · exact absurd ⟨g, hthere, rfl⟩ hnot
          · exact perform_testFiles_of_only (hholds.isOnlyTestFile hglob hplain)
      | _ => cases hsame
  | moved hfree =>
      have hsource : l ++ [ofText (testName problem suffix)] ≠ [] := by simp
      have hdestination : target ++ [ofText (devName (testName problem suffix))] ≠ [] := by simp
      have hget := FileTree.get?_put_erase (t := withTarget s.files dataDir) hsource hdestination
        (.file f)
      rw [← hfiles] at hget
      refine ⟨htarget, hdirectory, by rw [hget, if_pos rfl], fun hlink => ?_⟩
      -- only the file itself and what its new name replaced are gone
      have hways : (withTarget s.files dataDir).KeepsWays s'.files := by
        rw [hfiles]
        exact FileTree.keepsWays_put_erase hsource hdestination hholds.file
          (fun hblocked => (hfree _ hblocked).1 rfl)
          (fun path hpath => hlink path (get?_of_withTarget honly hmade Entry.noConfusion hpath))
      refine ⟨FileTree.locate_of_keepsWays hways htarget hdir, fun _ => ?_, fun hlinked => ?_⟩
      · obtain ⟨isMatch, hpattern, hmatch⟩ := exists_testPattern hglob hplain
        have hl := FileTree.locate_of_keepsWays hways hholds.located hholds.directory
        rw [perform_testFiles hpattern hl (hways.directory hholds.directory),
          testNames_eq_nil hholds hmatch hget]
      · -- a file that has the name already is not moved
        obtain ⟨g, hg, hnumber⟩ := hlinked
        have hnot := (hfree _ (get?_withTarget_of_some honly hmade hg)).2
        rw [FileTree.Entry.isSame, hnumber, beq_self_eq_true] at hnot
        cases hnot

/-- Where the only file whose name begins like that of a test file is renamed, it is then in the
    directory to evaluate on, under its dev name, and the search for test files finds none any
    more. Its dev name is one of the problem's dev split, and is found as such, unless the
    problem's own name has the marker of the test split in it. -/
theorem relocate_dev_split (hglob : Glob.ReadsStar glob) (hnames : s.files.NamesAreNames)
    (hplain : Glob.IsPlain problem) (h : HoldsTestFile s.files dataDir problem suffix l f)
    (hnumbered : IsNumbered s.files f)
    {dir : String} (hrun : (relocate glob dataDir problem).perform s = (.ok dir, s'))
    (hrenamed : (withTarget s.files dataDir).move (Path.join dataDir (testName problem suffix))
      (Path.join dir (devName (testName problem suffix))) = .ok t') :
    dir = targetDir dataDir ∧
      (∃ target, IsDevFile glob s.files s' dataDir problem suffix f target) ∧
      (devName (testName problem suffix) = problem ++ "-dev" ++ suffix ↔ ¬ MentionsTest problem) ∧
      ∃ isMatch, glob (problem ++ "-dev*") = some isMatch ∧
        (isMatch (devName (testName problem suffix)) = true ↔ ¬ MentionsTest problem) := by
  obtain ⟨hmade, rfl, hfiles, target, htarget, hdir, hmoves⟩ :=
    moves_of_relocate hnames (h.isOnlyTestFile hglob hplain) hrun hrenamed
  obtain ⟨isMatch, hpattern, hmatch⟩ := hglob _ (hplain.append isPlain_mark.2)
  have hstar : problem ++ "-dev*" = problem ++ "-dev" ++ "*" := by
    rw [String.append_assoc]
    rfl
  refine ⟨rfl, ⟨target, ?_⟩, devName_testName_iff, isMatch, by rw [hstar, hpattern], ?_⟩
  · exact isDevFile_of_moves hglob hplain hnumbered h hmade htarget hdir hmoves hfiles
  · rw [hmatch, FileName.beginsWith_ofText_iff]
    exact isPrefix_devName_iff problem suffix

/-! ## A data directory with one file -/

/-- The file in it. -/
def record : File := ⟨"records".toUTF8, false, 0⟩

/-- A tree with a data directory that has one file. -/
def oneFile (name : String) : FileTree :=
  (({} : FileTree).put ["data"] .directory).addFile ["data", name] record.content false

theorem get?_oneFile (name : String) (k : Location) : (oneFile name).get? k =
    if k = ["data", name] then some (.file record)
    else if k = ["data"] then some .directory
    else if k = [] then some .directory else none := by
  have hput := FileTree.get?_put (({} : FileTree).put ["data"] .directory)
    (show (["data", name] : Location) ≠ [] by simp) (.file record) k
  rw [FileTree.get?_put {} (show (["data"] : Location) ≠ [] by simp)] at hput
  exact hput

theorem file_of_get?_oneFile {k : Location} {g : File}
    (h : (oneFile name).get? k = some (.file g)) : k = ["data", name] ∧ g = record := by
  rw [get?_oneFile] at h
  split at h
  · next hk =>
      cases h
      exact ⟨hk, rfl⟩
  · split at h
    · cases h
    · split at h <;> cases h

theorem holdsTestFile_oneFile (problem suffix : String)
    (hl : (oneFile (testName problem suffix)).locate "data" = .ok ["data"]) :
    HoldsTestFile (oneFile (testName problem suffix)) "data" problem suffix ["data"] record where
  located := hl
  directory := by rw [get?_oneFile]; rfl
  file := by rw [get?_oneFile]; exact if_pos rfl
  only := by
    intro name g hg _
    have hk := (file_of_get?_oneFile hg).1
    exact (List.cons.inj (List.cons.inj hk).2).1

theorem isNumbered_oneFile : IsNumbered (oneFile name) record :=
  fun _ _ hg _ => (file_of_get?_oneFile hg).2

theorem namesAreNames_oneFile (hname : FileName.IsName name) : (oneFile name).NamesAreNames := by
  intro k e hk n hn
  rw [get?_oneFile] at hk
  split at hk
  · next heq =>
      rw [heq] at hn
      rcases List.mem_pair.1 hn with rfl | rfl
      · decide
      · exact hname
  · split at hk
    · next heq =>
        rw [heq] at hn
        obtain rfl := List.mem_singleton.1 hn
        decide
    · split at hk
      · next heq =>
          rw [heq] at hn
          cases hn
      · cases hk

/-- A session in such a tree. -/
def oneFileSession (name : String) : Session Unit :=
  .start (oneFile name) .empty ()

/-- With the marker of the test split in the problem's name the file is moved to a name that is
    none of the problem's. -/
theorem relocate_marked_problem :
    Glob.IsPlain "a-test-b" ∧
      HoldsTestFile (oneFile "a-test-b-test-0") "data" "a-test-b" "-0" ["data"] record ∧
      ((relocate Glob.reader "data" "a-test-b").perform (oneFileSession "a-test-b-test-0")).1 =
        .ok "data/test_data" ∧
      ((withTarget (oneFile "a-test-b-test-0") "data").move "data/a-test-b-test-0"
        "data/test_data/a-dev-b-test-0").isOk = true ∧
      ((relocate Glob.reader "data" "a-test-b").perform
        (oneFileSession "a-test-b-test-0")).2.files.listFiles "data/test_data" =
          .ok ["a-dev-b-test-0"] := by
  refine ⟨?_, holdsTestFile_oneFile "a-test-b" "-0" ?_, ?_, ?_, ?_⟩
  all_goals decide +kernel

theorem relocate_dev_split_oneFile :
    (oneFile "parse-test-0").NamesAreNames ∧ Glob.IsPlain "parse" ∧ ¬ MentionsTest "parse" ∧
      HoldsTestFile (oneFile "parse-test-0") "data" "parse" "-0" ["data"] record ∧
      IsNumbered (oneFile "parse-test-0") record ∧ ∃ s' t',
        (relocate Glob.reader "data" "parse").perform (oneFileSession "parse-test-0") =
          (.ok "data/test_data", s') ∧
        (withTarget (oneFile "parse-test-0") "data").move "data/parse-test-0"
          "data/test_data/parse-dev-0" = .ok t' ∧
        s'.files.locate "data/test_data" = .ok ["data", "test_data"] ∧
        s'.files.get? ["data", "test_data", "parse-dev-0"] = some (.file record) ∧
        (testFiles Glob.reader "data" "parse").perform s' = (.ok [], s') := by
  have hnames : (oneFile "parse-test-0").NamesAreNames := namesAreNames_oneFile (by decide)
  have hplain : Glob.IsPlain "parse" := by decide +kernel
  have hmark : ¬ MentionsTest "parse" := by decide +kernel
  have hholds : HoldsTestFile (oneFile "parse-test-0") "data" "parse" "-0" ["data"] record :=
    holdsTestFile_oneFile "parse" "-0" (by decide +kernel)
  have hok : ((relocate Glob.reader "data" "parse").perform (oneFileSession "parse-test-0")).1 =
      .ok "data/test_data" := by decide +kernel
  obtain ⟨s', hrun⟩ : ∃ s', (relocate Glob.reader "data" "parse").perform
      (oneFileSession "parse-test-0") = (.ok "data/test_data", s') := ⟨_, Prod.ext hok rfl⟩
  have hmoves : ((withTarget (oneFile "parse-test-0") "data").move "data/parse-test-0"
      "data/test_data/parse-dev-0").isOk = true := by decide +kernel
  cases hmove : (withTarget (oneFile "parse-test-0") "data").move "data/parse-test-0"
      "data/test_data/parse-dev-0" with
  | error r =>
      rw [hmove] at hmoves
      cases hmoves
  | ok t' =>
      have hname : devName (testName "parse" "-0") = "parse-dev-0" := devName_testName hmark
      have hpath : Path.join "data" (testName "parse" "-0") = "data/parse-test-0" := by
        decide +kernel
      have hdestination : Path.join "data/test_data" (devName (testName "parse" "-0")) =
          "data/test_data/parse-dev-0" := by
        decide +kernel
      obtain ⟨-, ⟨target, hdev⟩, -, -⟩ := relocate_dev_split Glob.reader_readsStar hnames hplain
        hholds isNumbered_oneFile hrun (by rw [hpath, hdestination]; exact hmove)
      have htarget : (withTarget (oneFile "parse-test-0") "data").locate (targetDir "data") =
          .ok ["data", "test_data"] := by
        decide +kernel
      obtain rfl := Except.ok.inj (hdev.leads.symm.trans htarget)
      -- nothing had the dev name before
      have hnone : (oneFile "parse-test-0").get?
          (["data", "test_data"] ++ [devName (testName "parse" "-0")]) = none := by
        rw [hname]
        decide +kernel
      obtain ⟨hlocate, hsearch, -⟩ := hdev.ways (fun path hlink => by
        cases hnone.symm.trans hlink)
      have hfile := hdev.file
      rw [hname] at hfile
      refine ⟨hnames, hplain, hmark, hholds, isNumbered_oneFile, s', t', hrun, rfl, hlocate, hfile,
        hsearch fun hlinked => ?_⟩
      obtain ⟨g, hg, -⟩ := hlinked
      cases hnone.symm.trans hg

end ParseBench.Shard
