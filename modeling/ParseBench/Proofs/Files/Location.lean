/-
  ParseBench.Proofs.Files.Location

  Where paths lead, and what becomes of the entries there. A path that is joined to that of a
  directory leads to the entry of its name there (`reach_join`), so making a directory in
  one that is there makes nothing else (`makesDirectory_join`). Every path that led
  somewhere still leads there when a directory is made where nothing was
  (`locate_put_directory`). A move takes one entry away and puts it elsewhere
  (`moves_of_move`, `get?_put_erase`). Every path to a directory goes on leading there as
  long as directories and links stay (`locate_of_keepsWays`).
-/

import ParseBench.Files.Access
import ParseBench.Proofs.Files.Path
import ParseBench.Proofs.Ordered

namespace ParseBench.FileTree

open FileName (ofText)

variable {t t' : FileTree} {l k dir : Location} {e : Entry} {path target : String}
  {name : FileName} {names more : List FileName} {follows : Bool} {links : Nat}

/-! ## The entries of a directory -/

/-- All names in the tree can stand in a directory, as in every tree of files: none is empty, a dot
    or two dots, or has a slash in it. -/
def NamesAreNames (t : FileTree) : Prop :=
  ∀ l e, t.get? l = some e → ∀ name ∈ l, name.IsName

theorem nameIn?_eq_some_iff : nameIn? dir l = some name ↔ l = dir ++ [name] := by
  unfold nameIn?
  constructor
  · intro h
    split at h
    · next hafter =>
        cases h
        exact Text.eq_append_of_after? hafter
    · cases h
  · rintro rfl
    rw [Text.after?_append]

theorem isSome_get?_iff (hl : l ≠ []) : (t.get? l).isSome ↔ ∃ e, (l, e) ∈ t.entries := by
  rw [get?, if_neg hl, List.lookup_isSome_iff]
  constructor
  · rintro ⟨⟨k, e⟩, hmem, hkey⟩
    exact ⟨e, eq_of_beq hkey ▸ hmem⟩
  · rintro ⟨e, hmem⟩
    exact ⟨_, hmem, beq_self_eq_true l⟩

theorem mem_children : name ∈ t.children dir ↔ (t.get? (dir ++ [name])).isSome := by
  rw [isSome_get?_iff (List.append_ne_nil_of_right_ne_nil _ (List.cons_ne_nil _ _)), children,
    Ordered.mem_ofList, List.mem_filterMap]
  constructor
  · rintro ⟨⟨k, e⟩, hmem, hname⟩
    obtain rfl := nameIn?_eq_some_iff.1 hname
    exact ⟨e, hmem⟩
  · rintro ⟨e, hmem⟩
    exact ⟨_, hmem, nameIn?_eq_some_iff.2 rfl⟩

theorem nodup_children : (t.children dir).Nodup :=
  Ordered.nodup_ofList _

theorem walk_cons_of_ok {here : Location} {rest : List FileName} (h : t.step here name = .ok l) :
    t.walk follows here (name :: rest) =
      match t.get? l with
      | some (.link target) =>
        if rest.isEmpty && !follows then .ok (.arrives l)
        else
          .ok (.linked (if Path.isAbsolute target then [] else here)
            ((Path.names target).map .ofRaw ++ rest))
      | _ => t.walk follows l rest := by
  cases hentry : t.get? l with
  | none => simp only [walk, h, hentry, bind, Except.bind]
  | some e => cases e <;> simp only [walk, h, hentry, bind, Except.bind, pure, Except.pure]

theorem walk_cons_of_error {here : Location} {rest : List FileName} {r : Refusal}
    (h : t.step here name = .error r) : t.walk follows here (name :: rest) = .error r := by
  rw [walk, h]
  rfl

theorem exists_step_of_walk {here : Location} {rest : List FileName} {w : Walk}
    (h : t.walk follows here (name :: rest) = .ok w) : ∃ l, t.step here name = .ok l := by
  cases hstep : t.step here name with
  | error r =>
      rw [walk_cons_of_error hstep] at h
      cases h
  | ok l => exact ⟨l, rfl⟩

/-- Where one arrives along some names, one goes on along the names after them. -/
theorem walk_append_of_arrives {here : Location} (h : t.walk true here names = .ok (.arrives l)) :
    t.walk follows here (names ++ more) = t.walk follows l more := by
  induction names generalizing here with
  | nil =>
      cases h
      rfl
  | cons name rest ih =>
      obtain ⟨next, hstep⟩ := exists_step_of_walk h
      rw [walk_cons_of_ok hstep] at h
      rw [List.cons_append, walk_cons_of_ok hstep]
      split at h
      · -- a link would have been followed, even at the end
        rw [Bool.not_true, Bool.and_false, if_neg Bool.false_ne_true] at h
        cases h
      · exact ih h

/-- A link that comes first along some names also comes first when there are names after them. -/
theorem walk_append_of_linked {here start : Location} {left : List FileName} (hmore : more ≠ [])
    (h : t.walk true here names = .ok (.linked start left)) :
    t.walk follows here (names ++ more) = .ok (.linked start (left ++ more)) := by
  induction names generalizing here with
  | nil => cases h
  | cons name rest ih =>
      obtain ⟨next, hstep⟩ := exists_step_of_walk h
      rw [walk_cons_of_ok hstep] at h
      rw [List.cons_append, walk_cons_of_ok hstep]
      split at h
      · rw [Bool.not_true, Bool.and_false, if_neg Bool.false_ne_true] at h
        cases h
        -- with more names after it the link is not the last entry, so `follows` is not asked
        have hnonempty : (rest ++ more).isEmpty = false := by simp [hmore]
        rw [hnonempty, Bool.false_and, if_neg Bool.false_ne_true, List.append_assoc]
      · exact ih h

theorem follow_eq {here : Location} :
    t.follow follows links here names =
      match t.walk follows here names, links with
      | .error r, _ => .error r
      | .ok (.arrives l), _ => .ok l
      | .ok (.linked _ _), 0 => .error .looping
      | .ok (.linked start left), links + 1 => t.follow follows links start left := by
  rw [follow]
  rcases t.walk follows here names with r | l | ⟨start, left⟩
  · rfl
  · rfl
  · cases links <;> rfl

/-- One gets to the end without a link, or through a first link with one link fewer. -/
theorem follow_eq_ok_iff {here : Location} :
    t.follow follows links here names = .ok l ↔
      t.walk follows here names = .ok (.arrives l) ∨
        ∃ fewer start left, links = fewer + 1 ∧
          t.walk follows here names = .ok (.linked start left) ∧
          t.follow follows fewer start left = .ok l := by
  rw [follow_eq]
  rcases t.walk follows here names with r | next | ⟨start, left⟩
  · simp
  · simp
  · cases links with
    | zero => simp
    | succ links => simp

/-- Where one gets along some names, one goes on along the names after them. -/
theorem follow_append {here : Location} (hmore : more ≠ [])
    (h : t.follow true links here names = .ok l) :
    ∃ left, t.follow follows links here (names ++ more) = t.follow follows left l more := by
  -- one link fewer is left after each stretch, and the last stretch arrives at `l`
  induction links generalizing here names with
  | zero =>
      rcases follow_eq_ok_iff.1 h with hwalk | ⟨_, _, _, hlinks, -, -⟩
      · refine ⟨0, ?_⟩
        rw [follow_eq, walk_append_of_arrives hwalk, ← follow_eq]
      · cases hlinks
  | succ links ih =>
      rcases follow_eq_ok_iff.1 h with hwalk | ⟨_, start, names', ⟨⟩, hwalk, hrest⟩
      · refine ⟨links + 1, ?_⟩
        rw [follow_eq, walk_append_of_arrives hwalk, ← follow_eq]
      · obtain ⟨left, hleft⟩ := ih hrest
        refine ⟨left, ?_⟩
        rw [follow_eq, walk_append_of_linked hmore hwalk]
        exact hleft

theorem step_eq (hdir : t.get? l = some .directory) (hname : name.IsName) :
    t.step l name =
      if name.bytes.length ≤ maxName then .ok (l ++ [name]) else .error .tooLong := by
  rw [step, hdir]
  simp only [if_neg hname.ne_here, if_neg hname.ne_above]

/-- One name leads to the entry of that name, if no link there is to be followed. -/
theorem follow_single
    (hlink : follows = true → ∀ target, t.get? (l ++ [name]) ≠ some (.link target))
    (hstep : t.step l name = .ok (l ++ [name])) :
    t.follow follows links l [name] = .ok (l ++ [name]) := by
  rw [follow_eq, walk_cons_of_ok hstep]
  cases hentry : t.get? (l ++ [name]) with
  | none => rfl
  | some e =>
      cases e with
      | link target =>
          cases follows with
          | false => rfl
          | true => exact absurd hentry (hlink rfl target)
      | _ => rfl

/-! ## Paths into a directory -/

/-- Where names along a path start. -/
def startOf (t : FileTree) (path : String) : Location :=
  if Path.isAbsolute path then [] else t.here

/-- The names along a path, as they stand in a tree. -/
def namesOf (path : String) : List FileName :=
  (Path.names path).map .ofText

theorem reach_eq_ok_iff : t.reach follows path = .ok l ↔
    path ≠ "" ∧ path.toList.any (· == '\x00') = false ∧
      (ofText path).bytes.length ≤ maxPath ∧
      t.follow follows maxLinks (t.startOf path) (namesOf path) = .ok l := by
  rw [← Bool.not_eq_true, ← not_lt, ne_eq, ← String.isEmpty_iff, reach, reachAs]
  unfold startOf namesOf
  split
  · simp_all
  · split
    · simp_all
    · split
      · simp_all
      · simp_all

/-- Can the path of a name in a directory be used? -/
structure Fits (path name : String) : Prop where
  nul : (Path.join path name).toList.any (· == '\x00') = false
  path : (ofText (Path.join path name)).bytes.length ≤ maxPath
  name : (ofText name).bytes.length ≤ maxName

section Joined

variable {name : String}

/-- A path joined to that of a directory goes on from there. -/
theorem follow_join (follows : Bool) (hl : t.locate path = .ok l) (hname : Path.IsName name) :
    ∃ left, t.follow follows maxLinks (t.startOf (Path.join path name))
      (namesOf (Path.join path name)) = t.follow follows left l [ofText name] := by
  obtain ⟨hpath, -, -, hfollow⟩ := reach_eq_ok_iff.1 hl
  rw [startOf, namesOf, Path.isAbsolute_join hpath hname.isAbsolute, hname.names_join,
    List.map_append]
  exact follow_append (List.cons_ne_nil _ _) hfollow

theorem reach_join
    (hlink : follows = true → ∀ target, t.get? (l ++ [ofText name]) ≠ some (.link target))
    (hl : t.locate path = .ok l) (hdir : t.get? l = some .directory) (hname : Path.IsName name)
    (hfits : Fits path name) :
    t.reach follows (Path.join path name) = .ok (l ++ [ofText name]) := by
  obtain ⟨left, hleft⟩ := follow_join follows hl hname
  have hstep := (step_eq hdir (FileName.isName_ofText_iff.2 hname)).trans (if_pos hfits.name)
  exact reach_eq_ok_iff.2 ⟨hname.join_ne_empty, hfits.nul, hfits.path,
    hleft.trans (follow_single hlink hstep)⟩

theorem reach_join_of_not_fits (follows : Bool) (hl : t.locate path = .ok l)
    (hdir : t.get? l = some .directory) (hname : Path.IsName name) (hfits : ¬ Fits path name) :
    ∃ r, r ≠ .missing ∧ t.reach follows (Path.join path name) = .error r := by
  obtain ⟨left, hleft⟩ := follow_join follows hl hname
  unfold reach reachAs
  split
  · exact ⟨_, Refusal.noConfusion, rfl⟩
  · next hnul =>
      split
      · exact ⟨_, Refusal.noConfusion, rfl⟩
      · next hpath =>
          have hlong : ¬ (ofText name).bytes.length ≤ maxName :=
            fun h => hfits ⟨Bool.eq_false_iff.2 hnul, Nat.le_of_not_lt hpath, h⟩
          have hstep := (step_eq hdir (FileName.isName_ofText_iff.2 hname)).trans (if_neg hlong)
          have hreach := hleft.trans (follow_eq.trans (by rw [walk_cons_of_error hstep]))
          rw [if_neg (by rw [String.isEmpty_iff]; exact hname.join_ne_empty)]
          exact ⟨_, Refusal.noConfusion, hreach⟩

/-- If a joined path leads anywhere, it leads to the entry of its name. -/
theorem eq_of_reach_join (hl : t.locate path = .ok l) (hdir : t.get? l = some .directory)
    (hname : Path.IsName name) (h : t.reach false (Path.join path name) = .ok k) :
    k = l ++ [ofText name] := by
  by_cases hfits : Fits path name
  · have hreach : t.reach false (Path.join path name) = .ok (l ++ [ofText name]) :=
      reach_join nofun hl hdir hname hfits
    exact Except.ok.inj (h.symm.trans hreach)
  · obtain ⟨r, -, hr⟩ := reach_join_of_not_fits false hl hdir hname hfits
    rw [hr] at h
    cases h

end Joined

/-! ## Directories -/

theorem entryAt_eq_directory_iff :
    t.entryAt path l = .ok .directory ↔ t.get? l = some .directory := by
  unfold entryAt
  split
  · next h => simp [h]
  · next h => simp [h]
  · next e hne h =>
      rw [h, Option.some.injEq]
      split
      · exact ⟨nofun, fun h => absurd h hne⟩
      · rw [Except.ok.injEq]

theorem find_eq_directory_iff : t.find path = .ok .directory ↔
    ∃ l, t.locate path = .ok l ∧ t.get? l = some .directory := by
  rw [find]
  cases t.locate path with
  | error r => simp [bind, Except.bind]
  | ok l => simp [bind, Except.bind, entryAt_eq_directory_iff]

theorem isDirectory_iff :
    t.isDirectory path = true ↔ ∃ l, t.locate path = .ok l ∧ t.get? l = some .directory := by
  rw [← find_eq_directory_iff, isDirectory]
  split
  · next h => simp [h]
  · next h => simpa using h

/-- Is a file at a location, and no link to one? -/
def isFile (t : FileTree) (l : Location) : Bool :=
  match t.get? l with
  | some (.file _) => true
  | _ => false

theorem isFile_iff : t.isFile l = true ↔ ∃ f, t.get? l = some (.file f) := by
  unfold isFile
  split
  · next f h => simp [h]
  · next h => simpa using h

theorem listFiles_of_directory (hl : t.locate path = .ok l) (hdir : t.get? l = some .directory) :
    t.listFiles path = .ok ((t.children l).filter fun name => t.isFile (l ++ [name])) := by
  simp only [listFiles, list, find_eq_directory_iff.2 ⟨l, hl, hdir⟩, hl, bind, Except.bind, pure,
    Except.pure]
  rfl

theorem makeDir_of_error {r : Refusal} (h : t.reach false path = .error r) :
    t.makeDir path = .error r := by
  rw [makeDir, h]
  rfl

theorem makeDir_of_ok (h : t.reach false path = .ok l) :
    t.makeDir path = if (t.get? l).isSome then .error .present else .ok (t.put l .directory) := by
  simp only [makeDir, makeDirAt, h, bind, Except.bind]
  cases t.get? l <;> rfl

/-! ## A new directory blocks no path -/

theorem step_put (hk : k ≠ []) (habsent : t.get? k = none) (h : t.step dir name = .ok l) :
    (t.put k e).step dir name = .ok l := by
  have hget : (t.put k e).get? dir = t.get? dir := by
    rw [get?_put t hk, if_neg]
    rintro rfl
    -- from where nothing is one does not step on
    rw [step, habsent] at h
    cases h
  rw [step, hget]
  exact h

theorem walk_put_directory {here : Location} {w : Walk} (hk : k ≠ []) (habsent : t.get? k = none)
    (h : t.walk follows here names = .ok w) :
    (t.put k .directory).walk follows here names = .ok w := by
  induction names generalizing here with
  | nil => exact h
  | cons name rest ih =>
      obtain ⟨l, hstep⟩ := exists_step_of_walk h
      rw [walk_cons_of_ok hstep] at h
      rw [walk_cons_of_ok (step_put hk habsent hstep), get?_put t hk]
      by_cases hlk : l = k
      · -- nothing was at `l`, so it was the end; now it is a directory, and no link
        rw [hlk, habsent] at h
        rw [if_pos hlk, hlk]
        exact ih h
      · rw [if_neg hlk]
        split at h
        · exact h
        · exact ih h

theorem follow_put_directory {here : Location} (hk : k ≠ []) (habsent : t.get? k = none)
    (h : t.follow follows links here names = .ok l) :
    (t.put k .directory).follow follows links here names = .ok l := by
  induction links generalizing here names with
  | zero =>
      rcases follow_eq_ok_iff.1 h with hwalk | ⟨_, _, _, hlinks, -, -⟩
      · exact follow_eq_ok_iff.2 (.inl (walk_put_directory hk habsent hwalk))
      · cases hlinks
  | succ links ih =>
      refine follow_eq_ok_iff.2 ((follow_eq_ok_iff.1 h).imp (walk_put_directory hk habsent) ?_)
      rintro ⟨_, start, left, ⟨⟩, hwalk, hrest⟩
      exact ⟨links, start, left, rfl, walk_put_directory hk habsent hwalk, ih hrest⟩

/-- Every path that led somewhere leads there when a directory is made where nothing was. -/
theorem locate_put_directory (hk : k ≠ []) (habsent : t.get? k = none)
    (h : t.locate path = .ok l) : (t.put k .directory).locate path = .ok l := by
  obtain ⟨hpath, hnul, hsize, hfollow⟩ := reach_eq_ok_iff.1 h
  exact reach_eq_ok_iff.2 ⟨hpath, hnul, hsize, follow_put_directory hk habsent hfollow⟩

/-! ## Making a directory and what is missing above it -/

/-- What may come of making a directory at a location without anything above it. -/
inductive MakesDirectory (t : FileTree) (path : String) (l : Location) :
    FileTree × Option Refusal → Prop
  | refused {r : Refusal} : MakesDirectory t path l (t, some r)
  | there (h : t.isDirectory path = true) : MakesDirectory t path l (t, none)
  | made (habsent : t.get? l = none) (h : (t.put l .directory).isDirectory path = true) :
      MakesDirectory t path l (t.put l .directory, none)

theorem makesDirectory_of_error {r : Refusal} (hpath : path ≠ "") (h : t.makeDir path = .error r)
    (hr : r ≠ .missing) : MakesDirectory t path l (t.makeDirs path) := by
  have hmake : t.makeDirs path = (t, if t.isDirectory path then none else some r) := by
    rw [makeDirs, if_neg (by rw [String.isEmpty_iff]; exact hpath), makeBelow, h]
    cases r with
    | missing => exact absurd rfl hr
    | _ => rfl
  rw [hmake]
  cases hthere : t.isDirectory path with
  | true => exact .there hthere
  | false => exact .refused

theorem makesDirectory_of_ok (hpath : path ≠ "") (h : t.makeDir path = .ok (t.put l .directory))
    (habsent : t.get? l = none) (hthere : (t.put l .directory).isDirectory path = true) :
    MakesDirectory t path l (t.makeDirs path) := by
  have hmake : t.makeDirs path = (t.put l .directory, none) := by
    rw [makeDirs, if_neg (by rw [String.isEmpty_iff]; exact hpath), makeBelow, h]
  rw [hmake]
  exact .made habsent hthere

theorem makesDirectory_join {name : String} (hl : t.locate path = .ok l)
    (hdir : t.get? l = some .directory) (hname : Path.IsName name) :
    MakesDirectory t (Path.join path name) (l ++ [ofText name])
      (t.makeDirs (Path.join path name)) := by
  -- what is above is made only where something is missing on the path, and nothing is
  by_cases hfits : Fits path name
  · have hmake := makeDir_of_ok (reach_join nofun hl hdir hname hfits)
    cases hentry : t.get? (l ++ [ofText name]) with
    | some e =>
        rw [hentry] at hmake
        exact makesDirectory_of_error hname.join_ne_empty hmake Refusal.noConfusion
    | none =>
        rw [hentry] at hmake
        have hne : l ++ [ofText name] ≠ [] := by simp
        have hput := get?_put t hne .directory
        refine makesDirectory_of_ok hname.join_ne_empty hmake hentry ?_
        refine isDirectory_iff.2 ⟨l ++ [ofText name], ?_, by rw [hput, if_pos rfl]⟩
        refine reach_join ?_ (locate_put_directory hne hentry hl) ?_ hname hfits
        · intro _ target
          rw [hput, if_pos rfl]
          exact nofun
        · rw [hput, if_neg (by simp), hdir]
  · obtain ⟨r, hr, hreach⟩ := reach_join_of_not_fits false hl hdir hname hfits
    exact makesDirectory_of_error hname.join_ne_empty (makeDir_of_error hreach) hr

/-! ## Moving -/

/-- What becomes of a tree when an entry is moved to a location. -/
inductive Moves (t : FileTree) (source destination : Location) (e : Entry) : FileTree → Prop
  /-- Two names of one file stay as they are. -/
  | kept {old : Entry} (hold : t.get? destination = some old)
      (hsame : Entry.isSame e old = true) : Moves t source destination e t
  | moved (hfree : ∀ old, t.get? destination = some old →
      old ≠ .directory ∧ Entry.isSame e old = false) :
      Moves t source destination e ((t.erase source).put destination e)

theorem moves_of_move (h : t.move path target = .ok t') :
    ∃ source destination e, t.locateName path = .ok source ∧
      t.locateName target = .ok destination ∧ t.get? source = some e ∧
      Moves t source destination e t' := by
  unfold move at h
  cases hsource : t.locateName path with
  | error r => simp [hsource, bind, Except.bind] at h
  | ok source =>
      cases hdestination : t.locateName target with
      | error r => simp [hsource, hdestination, bind, Except.bind] at h
      | ok destination =>
          simp only [hsource, hdestination, bind, Except.bind, pure, Except.pure] at h
          refine ⟨source, destination, ?_⟩
          split at h
          · cases h
          · cases h
          · cases h
          · -- something is there, and no directory
            next e old _ hdirectory hentry hold =>
              refine ⟨e, rfl, rfl, hentry, ?_⟩
              split at h
              · next hsame =>
                  cases h
                  exact .kept hold hsame
              · next hsame =>
                  cases h
                  refine .moved fun other hother => ?_
                  obtain rfl : old = other := Option.some.inj (hold.symm.trans hother)
                  exact ⟨hdirectory, Bool.eq_false_iff.2 hsame⟩
          · -- nothing is there
            next e _ hentry hnone =>
              cases h
              refine ⟨e, rfl, rfl, hentry, .moved fun other hother => ?_⟩
              rw [hnone] at hother
              cases hother

theorem get?_put_erase {source destination : Location} (hsource : source ≠ [])
    (hdestination : destination ≠ []) (e : Entry) (k : Location) :
    ((t.erase source).put destination e).get? k =
      if k = destination then some e else if k = source then none else t.get? k := by
  rw [get?_put _ hdestination, get?_erase t hsource]

/-! ## Trees with the same ways -/

/-- Does all that paths lead through in one tree, directories and links, stand in another, too? -/
structure KeepsWays (t t' : FileTree) : Prop where
  here : t'.here = t.here
  directory : ∀ {l}, t.get? l = some .directory → t'.get? l = some .directory
  link : ∀ {l target}, t.get? l = some (.link target) → t'.get? l = some (.link target)

/-- Does one come to a directory, or to a link first? -/
def Walk.Continues (t : FileTree) : Walk → Prop
  | .arrives l => t.get? l = some .directory
  | .linked _ _ => True

theorem directory_of_step {here : Location} (h : t.step here name = .ok l) :
    t.get? here = some .directory := by
  unfold step at h
  split at h
  · cases h
  · next hdir => exact hdir
  · cases h

theorem directory_of_walk {here : Location} {w : Walk} (h : t.walk follows here names = .ok w)
    (hw : w.Continues t) : t.get? here = some .directory := by
  cases names with
  | nil =>
      cases h
      exact hw
  | cons name rest =>
      obtain ⟨l, hstep⟩ := exists_step_of_walk h
      exact directory_of_step hstep

theorem step_of_keepsWays (hways : t.KeepsWays t') (h : t.step dir name = .ok l) :
    t'.step dir name = .ok l := by
  have hdir := directory_of_step h
  rw [step, hdir] at h
  rw [step, hways.directory hdir]
  exact h

theorem walk_of_keepsWays (hways : t.KeepsWays t') {here : Location} {w : Walk}
    (h : t.walk follows here names = .ok w) (hw : w.Continues t) :
    t'.walk follows here names = .ok w := by
  -- on the names: each but the last has to be that of a directory or a link, which both stay
  induction names generalizing here with
  | nil => exact h
  | cons name rest ih =>
      obtain ⟨l, hstep⟩ := exists_step_of_walk h
      rw [walk_cons_of_ok hstep] at h
      rw [walk_cons_of_ok (step_of_keepsWays hways hstep)]
      split at h
      · next target hlink =>
          rw [hways.link hlink]
          exact h
      · -- one goes on from `l`, or ends there
        rw [hways.directory (directory_of_walk h hw)]
        exact ih h

theorem follow_of_keepsWays (hways : t.KeepsWays t') {here : Location}
    (h : t.follow follows links here names = .ok l) (hl : t.get? l = some .directory) :
    t'.follow follows links here names = .ok l := by
  induction links generalizing here names with
  | zero =>
      rcases follow_eq_ok_iff.1 h with hwalk | ⟨_, _, _, hlinks, -, -⟩
      · exact follow_eq_ok_iff.2 (.inl (walk_of_keepsWays hways hwalk hl))
      · cases hlinks
  | succ links ih =>
      rcases follow_eq_ok_iff.1 h with hwalk | ⟨_, start, left, ⟨⟩, hwalk, hrest⟩
      · exact follow_eq_ok_iff.2 (.inl (walk_of_keepsWays hways hwalk hl))
      · have hfirst := walk_of_keepsWays hways hwalk trivial
        exact follow_eq_ok_iff.2 (.inr ⟨links, start, left, rfl, hfirst, ih hrest⟩)

/-- Every path to a directory leads there in a tree with the same ways. -/
theorem locate_of_keepsWays (hways : t.KeepsWays t') (h : t.locate path = .ok l)
    (hl : t.get? l = some .directory) : t'.locate path = .ok l := by
  obtain ⟨hpath, hnul, hsize, hfollow⟩ := reach_eq_ok_iff.1 h
  refine reach_eq_ok_iff.2 ⟨hpath, hnul, hsize, ?_⟩
  rw [startOf, hways.here]
  exact follow_of_keepsWays hways hfollow hl

/-- A file that is put in the place of another entry is in no one's way, unless the entry was. -/
theorem keepsWays_put_erase {source destination : Location} {f g : File} (hsource : source ≠ [])
    (hdestination : destination ≠ []) (hfile : t.get? source = some (.file g))
    (hdirectory : t.get? destination ≠ some .directory)
    (hlink : ∀ target, t.get? destination ≠ some (.link target)) :
    t.KeepsWays ((t.erase source).put destination (.file f)) := by
  have hget := get?_put_erase (t := t) hsource hdestination (.file f)
  have hother : ∀ {l e}, t.get? l = some e → e ≠ .file g → t.get? destination ≠ some e →
      ((t.erase source).put destination (.file f)).get? l = some e := by
    intro l e hl he hfree
    rw [hget, if_neg, if_neg]
    · exact hl
    · rintro rfl
      exact he (Option.some.inj (hl.symm.trans hfile))
    · rintro rfl
      exact hfree hl
  exact ⟨rfl, fun hl => hother hl Entry.noConfusion hdirectory,
    fun hl => hother hl Entry.noConfusion (hlink _)⟩

end ParseBench.FileTree
