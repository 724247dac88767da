/-
  ParseBench.Text.Pattern

  Patterns over bytes, matched place by place: each part of a pattern leads from
  the places of a text that are reached before it to those that are reached after
  it, and a text matches if its end is reached from its beginning.
-/

namespace ParseBench.Text

/-- A pattern over bytes. -/
inductive Pattern where
  /-- Matches nothing. -/
  | never
  /-- Matches the empty text. -/
  | empty
  /-- Matches one byte that is in one of the ranges, or in none of them if `negated`. -/
  | byte (negated : Bool) (ranges : List (UInt8 × UInt8))
  /-- Matches any text. -/
  | anyText
  | sequence (first second : Pattern)
  | either (left right : Pattern)
  deriving DecidableEq, Repr, Inhabited

namespace Pattern

/-! ## Building -/

/-- Matches the byte `b`. -/
def literal (b : UInt8) : Pattern :=
  byte false [(b, b)]

/-- Matches any byte. -/
def anyByte : Pattern :=
  byte true []

/-- One pattern after the other, simplified where one of them decides the result. -/
def thenMatch : Pattern → Pattern → Pattern
  | never, _ => never
  | _, never => never
  | empty, q => q
  | p, empty => p
  | p, q => sequence p q

/-- One of two patterns, simplified where one of them matches nothing. -/
def orMatch : Pattern → Pattern → Pattern
  | never, q => q
  | p, never => p
  | p, q => if p = q then p else either p q

/-- The patterns one after the other. -/
def inOrder (l : List Pattern) : Pattern :=
  l.foldr thenMatch empty

/-- One of the patterns. -/
def oneOf (l : List Pattern) : Pattern :=
  l.foldr orMatch never

/-! ## Matching -/

/-- Is the byte in one of the ranges, or in none of them if `negated`? -/
def hasByte (negated : Bool) (ranges : List (UInt8 × UInt8)) (b : UInt8) : Bool :=
  (ranges.any fun r => r.1 ≤ b && b ≤ r.2) != negated

/-- Marks all places from the first marked one on. -/
def spread : List Bool → List Bool
  | [] => []
  | true :: rest => true :: rest.map fun _ => true
  | false :: rest => false :: spread rest

/-- The places of a text that are reached by the pattern from marked ones. A text has a place
    before each byte and one at its end. -/
def reach (text : List UInt8) : Pattern → List Bool → List Bool
  | never, marks => marks.map fun _ => false
  | empty, marks => marks
  | byte negated ranges, marks =>
    false :: List.zipWith (fun m b => m && hasByte negated ranges b) marks text
  | anyText, marks => spread marks
  | sequence p q, marks => q.reach text (p.reach text marks)
  | either p q, marks => List.zipWith (· || ·) (p.reach text marks) (q.reach text marks)

/-- Does the pattern match the whole text? -/
def isMatch (p : Pattern) (text : List UInt8) : Bool :=
  (p.reach text (true :: text.map fun _ => false)).getLast? == some true

end Pattern

end ParseBench.Text
