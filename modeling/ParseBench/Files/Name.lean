/-
  ParseBench.Files.Name

  The names of files. A name is any bytes; most are text, and where the program asks
  for a text and there is none, it has to say so.
-/

import ParseBench.Text.Utf8

namespace ParseBench

/-- What an entry is called in its directory. -/
@[ext]
structure FileName where
  bytes : List UInt8
  deriving DecidableEq, Repr, Inhabited

namespace FileName

/-- Names are ordered by their bytes. -/
instance : LT FileName :=
  ⟨fun a b => a.bytes < b.bytes⟩

instance : DecidableLT FileName :=
  fun a b => inferInstanceAs (Decidable (a.bytes < b.bytes))

/-! ## Names and text -/

/-- The name that is a text. -/
def ofText (s : String) : FileName :=
  ⟨s.toUTF8.data.toList⟩

instance : Coe String FileName :=
  ⟨ofText⟩

/-- The text that a name is, if its bytes are UTF-8. -/
def toText? (n : FileName) : Option String :=
  String.fromUTF8? ⟨n.bytes.toArray⟩

/-- The name that is a raw text. -/
def ofRaw (s : String) : FileName :=
  ⟨(Raw.toBytes s).data.toList⟩

/-- A name as raw text. -/
def toRaw (n : FileName) : String :=
  Raw.ofBytes ⟨n.bytes.toArray⟩

/-- A name as it is shown, with replacement characters for what is no text. -/
def shown (n : FileName) : String :=
  Text.decode ⟨n.bytes.toArray⟩

/-! ## Laws -/

/-- A name is the text of its bytes. -/
theorem toText?_eq_some_iff {n : FileName} {s : String} : n.toText? = some s ↔ n = ofText s := by
  obtain ⟨bytes⟩ := n
  have hbytes : (⟨bytes⟩ : FileName) = ofText s ↔
      (⟨bytes.toArray⟩ : ByteArray) = s.toByteArray := by
    rw [ofText, FileName.mk.injEq, String.toUTF8_eq_toByteArray, ByteArray.ext_iff]
    exact ⟨fun h => by rw [h], fun h => by rw [← h]⟩
  rw [hbytes, toText?, String.fromUTF8?]
  split
  · rw [Option.some.injEq, ← String.toByteArray_inj]
    rfl
  · next hvalid =>
    refine ⟨nofun, fun h => absurd ?_ hvalid⟩
    rw [h]
    exact s.isValidUTF8

@[simp] theorem toText?_ofText (s : String) : (ofText s).toText? = some s :=
  toText?_eq_some_iff.2 rfl

/-- Texts that are one name are one text. -/
theorem ofText_inj {s r : String} : ofText s = ofText r ↔ s = r := by
  rw [← toText?_eq_some_iff, toText?_ofText, Option.some.injEq]

end FileName

/-! ## Patterns -/

/-- A reader of file name patterns: for a text that is a pattern, the names that match it. -/
abbrev PatternReader := String → Option (FileName → Bool)

end ParseBench
