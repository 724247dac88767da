/-
  ParseBench.Proofs.Data.Relocate

  Moving a problem's test file, seen on the tree of files, with any reader of file name
  patterns. Nothing is touched unless the data directory has just one test file
  (`NoSingleTestFile`, `IsOnlyTestFile`; one of the two holds). Then the directory for it is
  made, which makes nothing else (`MakesOnly`). A file whose name is text is moved there under
  its dev name or left where it is (`Relocated`); at any other name the run ends
  (`perform_relocate_of_foreign`).
-/

import Mathlib.Logic.ExistsUnique
import ParseBench.Data.Relocate
import ParseBench.Proofs.Files.Location
import ParseBench.Proofs.Session

namespace ParseBench

namespace Shard

open FileName (ofText)

variable {σ : Type} {glob : PatternReader} {t : FileTree} {dataDir problem : String}
  {l : Location} {f : File}

/-! ## Names -/

/-- A dev name can stand in a directory if the name of the test file can. -/
theorem isName_devName {name : String} (h : Path.IsName name) : Path.IsName (devName name) := by
  unfold devName
  rcases Text.replaceFirst_cases "-test".toList "-dev".toList name.toList with
    hsame | ⟨front, back, hname, hdev⟩
  · rw [hsame, String.ofList_toList]
    exact h
  · have hslash := h.slash_not_mem
    rw [hname, List.mem_append, List.mem_append] at hslash
    rw [hdev]
    refine Path.isName_of_mem (c := 'v') ?_ (by decide) ?_
    · rw [String.toList_ofList, List.mem_append, List.mem_append]
      exact .inl (.inr (by decide))
    · rw [String.toList_ofList, List.mem_append, List.mem_append]
      rintro ((hmem | hmem) | hmem)
      · exact hslash (.inl (.inl hmem))
      · exact absurd hmem (by decide)
      · exact hslash (.inr hmem)

theorem isName_relocatedDir : Path.IsName relocatedDir := by
  decide

/-! ## The test file -/

section Looking

variable {name : FileName} {isMatch : FileName → Bool}

/-- Is there a file in the directory under this name, which matches the pattern? -/
def IsTestFile (t : FileTree) (l : Location) (isMatch : FileName → Bool) (name : FileName) : Prop :=
  (∃ f, t.get? (l ++ [name]) = some (.file f)) ∧ isMatch name = true

/-- The file that is moved: the only test file of the data directory. -/
structure IsOnlyTestFile (glob : PatternReader) (t : FileTree) (dataDir problem : String)
    (l : Location) (name : FileName) (f : File) : Prop where
  located : t.locate dataDir = .ok l
  directory : t.get? l = some .directory
  file : t.get? (l ++ [name]) = some (.file f)
  only : ∃ isMatch, glob (testPattern problem) = some isMatch ∧
    IsTestFile t l isMatch name ∧ ∀ other, IsTestFile t l isMatch other → other = name

/-- The names of the test files in a directory. -/
def testNames (t : FileTree) (l : Location) (isMatch : FileName → Bool) : List FileName :=
  ((t.children l).filter fun name => t.isFile (l ++ [name])).filter isMatch

theorem mem_testNames : name ∈ testNames t l isMatch ↔ IsTestFile t l isMatch name := by
  have hthere : (∃ f, t.get? (l ++ [name]) = some (.file f)) → (t.get? (l ++ [name])).isSome := by
    rintro ⟨f, hf⟩
    rw [hf]
    rfl
  rw [testNames, List.mem_filter, List.mem_filter, FileTree.mem_children, FileTree.isFile_iff,
    and_iff_right_of_imp hthere, IsTestFile]

theorem nodup_testNames : (testNames t l isMatch).Nodup :=
  (FileTree.nodup_children.filter _).filter _

theorem testNames_eq_singleton_iff :
    testNames t l isMatch = [name] ↔
      IsTestFile t l isMatch name ∧ ∀ other, IsTestFile t l isMatch other → other = name := by
  simp only [← mem_testNames]
  constructor
  · intro h
    simp [h]
  · rintro ⟨hmem, honly⟩
    exact List.perm_singleton.1 ((List.perm_ext_iff_of_nodup nodup_testNames
      (List.nodup_singleton name)).2 fun other =>
        ⟨fun h => List.mem_singleton.2 (honly other h), fun h => List.mem_singleton.1 h ▸ hmem⟩)

variable {s : Session σ}

theorem perform_testFiles (hpattern : glob (testPattern problem) = some isMatch)
    (hl : s.files.locate dataDir = .ok l) (hdir : s.files.get? l = some .directory) :
    (testFiles glob dataDir problem).perform s = (.ok (testNames s.files l isMatch), s) := by
  have hlist : (Run.within (.listingData dataDir) do
      Run.ofAccess ((← Run.files).listFiles dataDir) : Run σ (List FileName)).perform s =
        (.ok ((s.files.children l).filter fun name => s.files.isFile (l ++ [name])), s) := by
    rw [Run.perform_within, Run.perform_bind_of_ok Run.perform_files, Run.ofAccess,
      FileTree.listFiles_of_directory hl hdir]
    rfl
  unfold testFiles
  rw [hpattern]
  dsimp only
  rw [Run.perform_bind_of_ok hlist]
  rfl

theorem perform_testFiles_of_only (h : IsOnlyTestFile glob s.files dataDir problem l name f) :
    (testFiles glob dataDir problem).perform s = (.ok [name], s) := by
  obtain ⟨isMatch, hpattern, honly⟩ := h.only
  rw [perform_testFiles hpattern h.located h.directory, testNames_eq_singleton_iff.2 honly]

/-! ## The directory for it -/

/-- The path of the directory that the test file is moved to. -/
def targetDir (dataDir : String) : String :=
  Path.join dataDir relocatedDir

/-- The tree with the directory for the test file. -/
def withTarget (t : FileTree) (dataDir : String) : FileTree :=
  (t.makeDirs (targetDir dataDir)).1

/-- The directory is made, and nothing else. -/
def MakesOnly (t : FileTree) (dataDir : String) (l : Location) (t' : FileTree) : Prop :=
  t'.isDirectory (targetDir dataDir) = true ∧
    ∀ k, t'.get? k = t.get? k ∨
      k = l ++ [ofText relocatedDir] ∧ t.get? k = none ∧ t'.get? k = some .directory

/-- The directory is there already, or it is made in the data directory where nothing was. -/
theorem withTarget_cases (h : IsOnlyTestFile glob t dataDir problem l name f)
    (hmade : (t.makeDirs (targetDir dataDir)).2 = none) :
    (withTarget t dataDir).isDirectory (targetDir dataDir) = true ∧
      (withTarget t dataDir = t ∨ t.get? (l ++ [ofText relocatedDir]) = none ∧
        withTarget t dataDir = t.put (l ++ [ofText relocatedDir]) .directory) := by
  have hmakes := FileTree.makesDirectory_join h.located h.directory isName_relocatedDir
  unfold withTarget
  unfold targetDir at hmade ⊢
  generalize t.makeDirs (Path.join dataDir relocatedDir) = made at hmakes hmade
  cases hmakes with
  | refused => cases hmade
  | there hthere => exact ⟨hthere, .inl rfl⟩
  | made hnone hthere => exact ⟨hthere, .inr ⟨hnone, rfl⟩⟩

theorem withTarget_makesOnly (h : IsOnlyTestFile glob t dataDir problem l name f)
    (hmade : (t.makeDirs (targetDir dataDir)).2 = none) :
    MakesOnly t dataDir l (withTarget t dataDir) := by
  obtain ⟨hthere, hcases⟩ := withTarget_cases h hmade
  refine ⟨hthere, fun k => ?_⟩
  rcases hcases with hsame | ⟨hnone, hput⟩
  · exact .inl (by rw [hsame])
  · rw [hput, FileTree.get?_put t (by simp)]
    by_cases hk : k = l ++ [ofText relocatedDir]
    · exact .inr ⟨hk, by rw [hk]; exact hnone, if_pos hk⟩
    · exact .inl (if_neg hk)

/-- The data directory is where it was. -/
theorem locate_withTarget (h : IsOnlyTestFile glob t dataDir problem l name f)
    (hmade : (t.makeDirs (targetDir dataDir)).2 = none) :
    (withTarget t dataDir).locate dataDir = .ok l := by
  rcases (withTarget_cases h hmade).2 with hsame | ⟨hnone, hput⟩
  · rw [hsame]
    exact h.located
  · rw [hput]
    exact FileTree.locate_put_directory (by simp) hnone h.located

/-- What was in the tree is still in it. -/
theorem get?_withTarget_of_some (h : IsOnlyTestFile glob t dataDir problem l name f)
    (hmade : (t.makeDirs (targetDir dataDir)).2 = none) {k : Location} {e : Entry}
    (hk : t.get? k = some e) : (withTarget t dataDir).get? k = some e := by
  rcases (withTarget_makesOnly h hmade).2 k with hsame | ⟨-, hnone, -⟩
  · rw [hsame, hk]
  · rw [hk] at hnone
    cases hnone

theorem perform_makeDirs_of_made (hmade : (s.files.makeDirs (targetDir dataDir)).2 = none) :
    (Run.within (.creating (targetDir dataDir)) (Run.makeDirs (targetDir dataDir)) :
      Run σ Unit).perform s = (.ok (), { s with files := withTarget s.files dataDir }) := by
  rw [Run.perform_within, Run.perform_makeDirs, hmade]
  rfl

/-- Where the directory cannot be made, nothing is touched either. -/
theorem perform_relocate_of_blocked (h : IsOnlyTestFile glob s.files dataDir problem l name f)
    (hblocked : (s.files.makeDirs (targetDir dataDir)).2 ≠ none) :
    ∃ e, e.exitCode = 1 ∧ (relocate glob dataDir problem).perform s = (.error e, s) := by
  have hmakes := FileTree.makesDirectory_join h.located h.directory isName_relocatedDir
  unfold targetDir at hblocked
  have hrefused : ∃ r, s.files.makeDirs (Path.join dataDir relocatedDir) = (s.files, some r) := by
    generalize s.files.makeDirs (Path.join dataDir relocatedDir) = made at hmakes hblocked
    cases hmakes with
    | @refused r => exact ⟨r, rfl⟩
    | there => exact absurd rfl hblocked
    | made => exact absurd rfl hblocked
  obtain ⟨r, hr⟩ := hrefused
  have hmake : (Run.within (.creating (Path.join dataDir relocatedDir))
      (Run.makeDirs (Path.join dataDir relocatedDir)) : Run σ Unit).perform s =
        (.error ⟨[.creating (Path.join dataDir relocatedDir)], .system⟩, s) := by
    rw [Run.perform_within, Run.perform_makeDirs, hr]
    rfl
  unfold relocate
  rw [Run.perform_bind_of_ok (perform_testFiles_of_only h)]
  exact ⟨_, rfl, Run.perform_bind_of_error hmake⟩

end Looking

/-! ## Moving it -/

section Moving

variable {name : String} {s : Session σ}

/-- What becomes of a tree when a test file is moved. -/
structure Relocated (t : FileTree) (dataDir : String) (l : Location) (name : String) (f : File)
    (target : Location) (t' : FileTree) : Prop where
  /-- The directory is made, and nothing else. -/
  made : ∀ k, (withTarget t dataDir).get? k = t.get? k ∨
    k = l ++ [ofText relocatedDir] ∧ t.get? k = none ∧
      (withTarget t dataDir).get? k = some .directory
  leads : (withTarget t dataDir).locate (targetDir dataDir) = .ok target
  directory : t'.get? target = some .directory
  /-- The file is moved and nothing else is changed; or nothing at all is changed, since the file
      cannot be moved or has the new name already. -/
  moved :
    (target ++ [ofText (devName name)] ≠ l ++ [ofText name] ∧ ∀ k, t'.get? k =
      if k = target ++ [ofText (devName name)] then some (.file f)
      else if k = l ++ [ofText name] then none
      else (withTarget t dataDir).get? k) ∨
    (t' = withTarget t dataDir ∧
      ((∃ r, (withTarget t dataDir).move (Path.join dataDir name)
          (Path.join (targetDir dataDir) (devName name)) = .error r) ∨
        ∃ g, (withTarget t dataDir).get? (target ++ [ofText (devName name)]) = some (.file g) ∧
          g.number = f.number))

/-- Where a test file goes that can be moved. -/
theorem moves_withTarget (hnames : t.NamesAreNames)
    (h : IsOnlyTestFile glob t dataDir problem l (ofText name) f)
    (hmade : (t.makeDirs (targetDir dataDir)).2 = none) {target : Location} {t' : FileTree}
    (htarget : (withTarget t dataDir).locate (targetDir dataDir) = .ok target)
    (hdir : (withTarget t dataDir).get? target = some .directory)
    (hmove : (withTarget t dataDir).move (Path.join dataDir name)
      (Path.join (targetDir dataDir) (devName name)) = .ok t') :
    (withTarget t dataDir).Moves (l ++ [ofText name]) (target ++ [ofText (devName name)])
      (.file f) t' := by
  have hname : Path.IsName name := FileName.isName_ofText_iff.1
    (hnames _ _ h.file _ (List.mem_append_right _ (List.mem_singleton_self _)))
  obtain ⟨source, destination, e, hsource, hdestination, he, hmoves⟩ :=
    FileTree.moves_of_move hmove
  rw [FileTree.locateName, hname.endsInSlash_join] at hsource
  rw [FileTree.locateName, (isName_devName hname).endsInSlash_join] at hdestination
  obtain rfl := FileTree.eq_of_reach_join (locate_withTarget h hmade)
    (get?_withTarget_of_some h hmade h.directory) hname hsource
  obtain rfl := FileTree.eq_of_reach_join htarget hdir (isName_devName hname) hdestination
  rw [get?_withTarget_of_some h hmade h.file, Option.some.injEq] at he
  rw [he]
  exact hmoves

theorem relocated_of_moves (h : IsOnlyTestFile glob t dataDir problem l (ofText name) f)
    (hmade : (t.makeDirs (targetDir dataDir)).2 = none) {target : Location} {t' : FileTree}
    (htarget : (withTarget t dataDir).locate (targetDir dataDir) = .ok target)
    (hdir : (withTarget t dataDir).get? target = some .directory)
    (hmoves : (withTarget t dataDir).Moves (l ++ [ofText name])
      (target ++ [ofText (devName name)]) (.file f) t') :
    Relocated t dataDir l name f target t' := by
  have hfile := get?_withTarget_of_some h hmade h.file
  cases hmoves with
  | @kept old hold hsame =>
      refine ⟨(withTarget_makesOnly h hmade).2, htarget, hdir, .inr ⟨rfl, .inr ?_⟩⟩
      cases old with
      | file g => exact ⟨g, hold, (eq_of_beq hsame).symm⟩
      | _ => cases hsame
  | moved hfree =>
      have hget := FileTree.get?_put_erase (t := withTarget t dataDir)
        (show l ++ [ofText name] ≠ [] by simp)
        (show target ++ [ofText (devName name)] ≠ [] by simp) (.file f)
      refine ⟨(withTarget_makesOnly h hmade).2, htarget, ?_, .inl ⟨?_, hget⟩⟩
      · -- the directory is neither the file nor below itself
        rw [hget, if_neg (by simp), if_neg, hdir]
        rintro rfl
        rw [hfile] at hdir
        cases hdir
      · -- a file is one with itself, so it does not move to where it is
        intro heq
        rw [heq] at hfree
        have hnot := (hfree _ hfile).2
        rw [FileTree.Entry.isSame, beq_self_eq_true] at hnot
        cases hnot

/-- A test file that cannot be moved is no failure. -/
theorem perform_moveTo (dataDir target name : String) :
    ∃ s', (moveTo dataDir target name).perform s = (.ok (), s') ∧ s'.host = s.host ∧
      ((∃ r, s.files.move (Path.join dataDir name) (Path.join target (devName name)) = .error r ∧
          s'.files = s.files) ∨
        s.files.move (Path.join dataDir name) (Path.join target (devName name)) =
          .ok s'.files) := by
  unfold moveTo
  rw [Run.perform_bind_of_ok Run.perform_files]
  cases hmove : s.files.move (Path.join dataDir name) (Path.join target (devName name)) with
  | error r => exact ⟨_, rfl, rfl, .inl ⟨r, rfl, rfl⟩⟩
  | ok t => exact ⟨_, rfl, rfl, .inr rfl⟩

/-- Where the directory can be made, the file is moved if it can be. -/
theorem perform_relocate_of_made (h : IsOnlyTestFile glob s.files dataDir problem l (ofText name) f)
    (hmade : (s.files.makeDirs (targetDir dataDir)).2 = none) :
    ∃ s', (relocate glob dataDir problem).perform s = (.ok (targetDir dataDir), s') ∧
      s'.host = s.host ∧
      ((∃ r, (withTarget s.files dataDir).move (Path.join dataDir name)
            (Path.join (targetDir dataDir) (devName name)) = .error r ∧
          s'.files = withTarget s.files dataDir) ∨
        (withTarget s.files dataDir).move (Path.join dataDir name)
          (Path.join (targetDir dataDir) (devName name)) = .ok s'.files) := by
  obtain ⟨s', hperform, hhost, hmoved⟩ := perform_moveTo
    (s := { s with files := withTarget s.files dataDir }) dataDir (targetDir dataDir) name
  refine ⟨s', ?_, hhost, hmoved⟩
  unfold relocate
  rw [Run.perform_bind_of_ok (perform_testFiles_of_only h)]
  refine (Run.perform_bind_of_ok (perform_makeDirs_of_made hmade)).trans ?_
  rw [FileName.toText?_ofText]
  exact Run.perform_bind_of_ok hperform

end Moving

end Shard

end ParseBench
