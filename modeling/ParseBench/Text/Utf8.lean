/-
  ParseBench.Text.Utf8

  The text of bytes that need not be UTF-8. A sequence is read byte by byte; where
  it breaks off, what has been read of it becomes one replacement character, and
  the byte that breaks it is read anew.

  Raw text is a string in which every character stands for one byte. Programs hand
  bytes to one another, of which only some are text in the end; what works on
  single bytes works on the characters of raw text.
-/

namespace ParseBench.Text

/-- What has been read of a sequence: the number of bytes that are missing, the bounds of the
    next one, and the bits so far. -/
structure Partial where
  missing : Nat
  low : Nat
  high : Nat
  bits : Nat
  deriving DecidableEq, Repr, Inhabited

/-- The character that stands for bytes that are no text. -/
def replacement : Char := '\ufffd'

namespace Partial

/-- The sequence that a first byte opens. The bounds of the second byte leave out overlong
    forms, surrogates and what lies beyond the last code point. -/
def ofLead? (b : Nat) : Option Partial :=
  if 0xC2 ≤ b ∧ b ≤ 0xDF then some ⟨1, 0x80, 0xBF, b - 0xC0⟩
  else if b = 0xE0 then some ⟨2, 0xA0, 0xBF, 0⟩
  else if b = 0xED then some ⟨2, 0x80, 0x9F, 0xD⟩
  else if 0xE1 ≤ b ∧ b ≤ 0xEF then some ⟨2, 0x80, 0xBF, b - 0xE0⟩
  else if b = 0xF0 then some ⟨3, 0x90, 0xBF, 0⟩
  else if 0xF1 ≤ b ∧ b ≤ 0xF3 then some ⟨3, 0x80, 0xBF, b - 0xF0⟩
  else if b = 0xF4 then some ⟨3, 0x80, 0x8F, 4⟩
  else none

/-- Reads a byte outside of a sequence. -/
def start (b : Nat) : List Char × Option Partial :=
  if b < 0x80 then ([Char.ofNat b], none)
  else
    match ofLead? b with
    | some p => ([], some p)
    | none => ([replacement], none)

/-- Reads the next byte: the characters that are complete, and the sequence that is open. -/
def step (p : Option Partial) (b : Nat) : List Char × Option Partial :=
  match p with
  | none => start b
  | some p =>
    if p.low ≤ b ∧ b ≤ p.high then
      let bits := p.bits * 64 + (b - 0x80)
      if p.missing = 1 then ([Char.ofNat bits], none)
      else ([], some ⟨p.missing - 1, 0x80, 0xBF, bits⟩)
    else
      let (cs, next) := start b
      (replacement :: cs, next)

end Partial

/-- The characters of bytes, with a sequence open. -/
def decodeFrom (p : Option Partial) : List UInt8 → List Char
  | [] => if p.isSome then [replacement] else []
  | b :: rest =>
    let (cs, next) := Partial.step p b.toNat
    cs ++ decodeFrom next rest

/-- The text of bytes. Each piece that is no text becomes one replacement character. -/
def decode (bytes : ByteArray) : String :=
  String.ofList (decodeFrom none bytes.toList)

end ParseBench.Text

namespace ParseBench.Raw

/-- The raw text of bytes. -/
def ofBytes (bytes : ByteArray) : String :=
  String.ofList (bytes.toList.map fun b => Char.ofNat b.toNat)

/-- The bytes of a raw text. -/
def toBytes (s : String) : ByteArray :=
  ⟨(s.toList.map fun c => UInt8.ofNat c.toNat).toArray⟩

/-- The raw text of a text. -/
def ofText (s : String) : String :=
  if s.toList.all fun c => c.toNat < 0x80 then s else ofBytes s.toUTF8

/-- The text of a raw text. -/
def toText (s : String) : String :=
  if s.toList.all fun c => c.toNat < 0x80 then s else Text.decode (toBytes s)

end ParseBench.Raw
