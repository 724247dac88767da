/-
  ParseBench.Proofs.Files.Path

  The names along a joined path are those of its two parts (`names_join`). A text without
  slashes is its own only name (`IsPart.names`), and joined to a path it is the last one. The
  names that can stand in a directory are such texts (`IsName.isPart`), as far as they are text
  (`FileName.isName_ofText_iff`).
-/

import Mathlib.Data.List.Basic
import ParseBench.Files.Name
import ParseBench.Files.Path
import ParseBench.Proofs.Text.Lines

namespace ParseBench.Path

/-! ## Names along a path -/

@[simp] theorem names_empty : names "" = [] := by decide

/-- A slash between two texts parts the names along them. -/
theorem names_append_slash (left right : String) :
    names (left ++ "/" ++ right) = names left ++ names right := by
  have hlist : (left ++ "/" ++ right).toList = left.toList ++ '/' :: right.toList := by
    simp
  have hcut : (left.toList ++ '/' :: right.toList).splitOnP (· == '/') =
      left.toList.splitOnP (· == '/') ++ right.toList.splitOnP (· == '/') :=
    List.splitOnP_append_cons _ _ (beq_self_eq_true '/')
  simp only [names, Text.splitOn, hlist, Text.splitWhere_eq_splitOnP, hcut, List.map_append,
    List.filter_append]

theorem exists_append_slash {path : String} (h : path.toList.getLast? = some '/') :
    ∃ front, path = front ++ "/" := by
  obtain ⟨front, hfront⟩ := List.getLast?_eq_some_iff.1 h
  refine ⟨String.ofList front, ?_⟩
  rw [← String.toList_inj, String.toList_append, String.toList_ofList]
  exact hfront

/-- The names along a joined path are those of its two parts. -/
theorem names_join {left right : String} (h : isAbsolute right = false) :
    names (join left right) = names left ++ names right := by
  unfold join
  rw [isAbsolute] at h
  rw [h, if_neg Bool.false_ne_true]
  split
  · next hend =>
      rcases Bool.or_eq_true_iff.1 hend with hempty | hslash
      · rw [String.isEmpty_iff.1 hempty, String.empty_append, names_empty, List.nil_append]
      · obtain ⟨front, rfl⟩ := exists_append_slash (by simpa using hslash)
        have hfront := names_append_slash front ""
        rw [String.append_empty, names_empty, List.append_nil] at hfront
        rw [names_append_slash, hfront]
  · exact names_append_slash left right

/-- What is joined to a path is there. -/
theorem join_ne_empty {left right : String} (h : right ≠ "") : join left right ≠ "" := by
  unfold join
  split
  · exact h
  · split
    · exact fun hempty => h (String.append_eq_empty_iff.1 hempty).2
    · exact fun hempty => h (String.append_eq_empty_iff.1 hempty).2

/-! ## Parts of a path -/

/-- A text that is one step along a path. It may be one of those that stand for the directory
    itself or for the one above it. -/
structure IsPart (name : String) : Prop where
  ne_empty : name ≠ ""
  slash_not_mem : '/' ∉ name.toList

instance (name : String) : Decidable (IsPart name) :=
  decidable_of_iff (name ≠ "" ∧ '/' ∉ name.toList)
    ⟨fun h => ⟨h.1, h.2⟩, fun h => ⟨h.ne_empty, h.slash_not_mem⟩⟩

theorem IsPart.isAbsolute {name : String} (h : IsPart name) : isAbsolute name = false := by
  rw [Path.isAbsolute, Bool.eq_false_iff]
  intro habs
  obtain ⟨rest, hrest⟩ := Text.startsWith_iff.1 habs
  refine h.slash_not_mem ?_
  rw [← hrest]
  exact List.mem_append_left _ (by decide)

theorem IsPart.names {name : String} (h : IsPart name) : names name = [name] := by
  have hcut : ∀ c ∈ name.toList, (c == '/') = false := Text.beq_eq_false_of_not_mem h.slash_not_mem
  have hempty : name.isEmpty = false := by
    rw [Bool.eq_false_iff, ne_eq, String.isEmpty_iff]
    exact h.ne_empty
  rw [Path.names, Text.splitOn, Text.splitWhere_eq_splitOnP, List.splitOnP_eq_singleton hcut,
    List.map_singleton, String.ofList_toList]
  simp [hempty]

theorem IsPart.names_join {left name : String} (h : IsPart name) :
    Path.names (join left name) = Path.names left ++ [name] := by
  rw [Path.names_join h.isAbsolute, h.names]

/-! ## Names in a directory -/

/-- A text that can be the name of an entry. -/
structure IsName (name : String) : Prop where
  ne_empty : name ≠ ""
  ne_here : name ≠ "."
  ne_above : name ≠ ".."
  slash_not_mem : '/' ∉ name.toList

instance (name : String) : Decidable (IsName name) :=
  decidable_of_iff (name ≠ "" ∧ name ≠ "." ∧ name ≠ ".." ∧ '/' ∉ name.toList)
    ⟨fun h => ⟨h.1, h.2.1, h.2.2.1, h.2.2.2⟩,
      fun h => ⟨h.ne_empty, h.ne_here, h.ne_above, h.slash_not_mem⟩⟩

/-- A text without slashes that does not consist of dots can be a name. -/
theorem isName_of_mem {name : String} {c : Char} (hc : c ∈ name.toList) (hdot : c ≠ '.')
    (hslash : '/' ∉ name.toList) : IsName name := by
  refine ⟨?_, ?_, ?_, hslash⟩
  · rintro rfl
    exact absurd hc List.not_mem_nil
  · rintro rfl
    exact hdot (List.mem_singleton.1 hc)
  · rintro rfl
    have hdots : c ∈ ['.', '.'] := hc
    simp [hdot] at hdots

theorem IsName.isPart {name : String} (h : IsName name) : IsPart name :=
  ⟨h.ne_empty, h.slash_not_mem⟩

theorem IsName.isAbsolute {name : String} (h : IsName name) : isAbsolute name = false :=
  h.isPart.isAbsolute

theorem IsName.names {name : String} (h : IsName name) : names name = [name] :=
  h.isPart.names

theorem IsName.names_join {left name : String} (h : IsName name) :
    Path.names (join left name) = Path.names left ++ [name] :=
  h.isPart.names_join

end ParseBench.Path

namespace ParseBench.FileName

/-! ## Names as bytes -/

instance : IsTrans FileName (· < ·) :=
  ⟨fun a b c => IsTrans.trans (r := (· < ·)) a.bytes b.bytes c.bytes⟩

instance : Std.Irrefl (α := FileName) (· < ·) :=
  ⟨fun a => Std.Irrefl.irrefl (r := (· < ·)) a.bytes⟩

instance : Std.Trichotomous (α := FileName) (· < ·) :=
  ⟨fun _ _ hab hba => FileName.ext (Std.Trichotomous.trichotomous (r := (· < ·)) _ _ hab hba)⟩

/-- Bytes that can be the name of an entry. -/
structure IsName (name : FileName) : Prop where
  ne_empty : name ≠ ""
  ne_here : name ≠ "."
  ne_above : name ≠ ".."
  /-- The byte of a slash is not among them. -/
  slash_not_mem : 47 ∉ name.bytes

instance (name : FileName) : Decidable (IsName name) :=
  decidable_of_iff (name ≠ "" ∧ name ≠ "." ∧ name ≠ ".." ∧ 47 ∉ name.bytes)
    ⟨fun h => ⟨h.1, h.2.1, h.2.2.1, h.2.2.2⟩,
      fun h => ⟨h.ne_empty, h.ne_here, h.ne_above, h.slash_not_mem⟩⟩

theorem bytes_ofText (s : String) :
    (ofText s).bytes = s.toList.flatMap String.utf8EncodeChar := by
  rw [← Text.toList_toUTF8, Text.toList_byteArray]
  rfl

/-- A slash is one byte, which no other character has. -/
theorem slash_mem_bytes_ofText_iff {s : String} : 47 ∈ (ofText s).bytes ↔ '/' ∈ s.toList := by
  rw [bytes_ofText, List.mem_flatMap]
  constructor
  · rintro ⟨c, hc, hbyte⟩
    rwa [Text.eq_of_mem_utf8EncodeChar hbyte '/' (by decide) (by decide)] at hc
  · exact fun h => ⟨'/', h, by decide⟩

theorem isName_ofText_iff {s : String} : IsName s ↔ Path.IsName s := by
  constructor
  · intro h
    exact ⟨fun hs => h.ne_empty (by rw [hs]), fun hs => h.ne_here (by rw [hs]),
      fun hs => h.ne_above (by rw [hs]),
      fun hs => h.slash_not_mem (slash_mem_bytes_ofText_iff.2 hs)⟩
  · intro h
    exact ⟨fun hs => h.ne_empty (ofText_inj.1 hs), fun hs => h.ne_here (ofText_inj.1 hs),
      fun hs => h.ne_above (ofText_inj.1 hs),
      fun hs => h.slash_not_mem (slash_mem_bytes_ofText_iff.1 hs)⟩

/-- Does the name begin with the bytes of a text? -/
def BeginsWith (name : FileName) (lead : String) : Prop :=
  (ofText lead).bytes <+: name.bytes

instance (name : FileName) (lead : String) : Decidable (BeginsWith name lead) :=
  inferInstanceAs (Decidable (_ <+: _))

theorem beginsWith_ofText_iff {s lead : String} :
    BeginsWith s lead ↔ lead.toList <+: s.toList := by
  rw [BeginsWith, bytes_ofText, bytes_ofText]
  exact Text.flatMap_utf8EncodeChar_isPrefix_iff

end ParseBench.FileName

namespace ParseBench.Path

/-! ## The path of a name in a directory -/

theorem toList_join (left : String) {right : String} (h : isAbsolute right = false) :
    (join left right).toList = left.toList ++ right.toList ∨
      (join left right).toList = left.toList ++ '/' :: right.toList := by
  unfold join
  rw [isAbsolute] at h
  rw [h, if_neg Bool.false_ne_true]
  split
  · exact .inl String.toList_append
  · exact .inr (by simp)

theorem isAbsolute_join {left right : String} (hleft : left ≠ "") (h : isAbsolute right = false) :
    isAbsolute (join left right) = isAbsolute left := by
  have hne : left.toList ≠ [] := fun hnil => hleft (String.toList_eq_nil_iff.1 hnil)
  obtain ⟨first, rest, hlist⟩ := List.exists_cons_of_ne_nil hne
  have hiff : ∀ path more, path.toList = first :: more →
      (isAbsolute path = true ↔ '/' = first) := by
    intro path more hpath
    rw [isAbsolute, Text.startsWith_iff, hpath]
    exact List.cons_prefix_cons.trans (and_iff_left List.nil_prefix)
  rw [Bool.eq_iff_iff, hiff left rest hlist]
  rcases toList_join left h with hjoin | hjoin
  · exact hiff _ _ (by rw [hjoin, hlist, List.cons_append])
  · exact hiff _ _ (by rw [hjoin, hlist, List.cons_append])

theorem IsName.toList_ne_nil {name : String} (h : IsName name) : name.toList ≠ [] :=
  fun hnil => h.ne_empty (String.toList_eq_nil_iff.1 hnil)

theorem IsName.join_ne_empty {left name : String} (h : IsName name) : join left name ≠ "" := by
  intro hempty
  rcases toList_join left h.isAbsolute with hjoin | hjoin
  · exact h.toList_ne_nil (List.append_eq_nil_iff.1 (hjoin.symm.trans (hempty ▸ rfl))).2
  · exact List.cons_ne_nil _ _ (List.append_eq_nil_iff.1 (hjoin.symm.trans (hempty ▸ rfl))).2

theorem IsName.endsInSlash_join {left name : String} (h : IsName name) :
    endsInSlash (join left name) = false := by
  have hlast : (join left name).toList.getLast? = name.toList.getLast? := by
    rcases toList_join left h.isAbsolute with hjoin | hjoin
    · rw [hjoin, List.getLast?_append_of_ne_nil _ h.toList_ne_nil]
    · rw [hjoin, List.append_cons, List.getLast?_append_of_ne_nil _ h.toList_ne_nil]
  rw [endsInSlash, hlast, beq_eq_false_iff_ne]
  exact fun hslash => h.slash_not_mem (List.mem_of_getLast? hslash)

/-- A name stands directly in a directory, behind the one slash that is put between them. -/
theorem join_eq_append_slash {left right : String} (h : isAbsolute right = false)
    (hleft : left ≠ "") (hend : endsInSlash left = false) :
    join left right = left ++ "/" ++ right := by
  have hempty : left.isEmpty = false := by
    rw [Bool.eq_false_iff, ne_eq, String.isEmpty_iff]
    exact hleft
  rw [isAbsolute] at h
  rw [endsInSlash] at hend
  rw [join, h, if_neg Bool.false_ne_true, hempty, hend, Bool.false_or,
    if_neg Bool.false_ne_true]

end ParseBench.Path
