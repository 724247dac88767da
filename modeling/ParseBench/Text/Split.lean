/-
  ParseBench.Text.Split

  Cutting a list at separators and joining pieces with one. The functions work
  on lists of any element, so the same cut serves characters and bytes; the
  functions on strings below them are the cut of the characters. White space is
  what the Unicode property `White_Space` has; a text is trimmed of it and cut into
  words by it.
-/

namespace ParseBench.Text

variable {α : Type}

/-! ## Cutting -/

/-- The pieces of `s` between the elements that satisfy `p`. There is always one
    piece more than there are separators, so the empty list is one empty piece. -/
def splitWhere (p : α → Bool) : List α → List (List α)
  | [] => [[]]
  | a :: s =>
    if p a then [] :: splitWhere p s
    else
      match splitWhere p s with
      | [] => [[a]]
      | piece :: rest => (a :: piece) :: rest

@[simp] theorem splitWhere_nil (p : α → Bool) : splitWhere p [] = [[]] := rfl

theorem splitWhere_ne_nil (p : α → Bool) (s : List α) : splitWhere p s ≠ [] := by
  cases s with
  | nil => simp
  | cons a s =>
    unfold splitWhere
    split
    · simp
    · split <;> simp

/-- The text of `s` between the separators `sep`. -/
def splitOn (sep : Char) (s : String) : List String :=
  (splitWhere (· == sep) s.toList).map String.ofList

/-- The pieces in order with `sep` between neighbours. -/
def join (sep : String) (pieces : List String) : String :=
  String.intercalate sep pieces

/-! ## Trimming -/

/-- `s` without the elements at its two ends that satisfy `p`. -/
def trimWhere (p : α → Bool) (s : List α) : List α :=
  ((s.dropWhile p).reverse.dropWhile p).reverse

/-- `s` without the elements at its right end that satisfy `p`. -/
def trimRightWhere (p : α → Bool) (s : List α) : List α :=
  (s.reverse.dropWhile p).reverse

/-! ## Leading and trailing parts -/

variable [DecidableEq α]

/-- What follows `lead` in a list, if the list begins with it. -/
def after? (lead : List α) (s : List α) : Option (List α) :=
  match lead, s with
  | [], s => some s
  | _ :: _, [] => none
  | a :: lead, b :: s => if a = b then after? lead s else none

@[simp] theorem after?_append (lead s : List α) : after? lead (lead ++ s) = some s := by
  induction lead with
  | nil => simp [after?]
  | cons a lead ih => simp [after?, ih]

theorem eq_append_of_after? {lead s rest : List α} (h : after? lead s = some rest) :
    s = lead ++ rest := by
  induction lead generalizing s with
  | nil => simpa [after?] using h
  | cons a lead ih =>
    cases s with
    | nil => simp [after?] at h
    | cons b s =>
      unfold after? at h
      split at h
      · next hab => rw [hab, ih h, List.cons_append]
      · cases h

/-- What precedes the last `sep` of `s`, if there is one. -/
def beforeLast? (sep : α) (s : List α) : Option (List α) :=
  match s.reverse.dropWhile (· ≠ sep) with
  | [] => none
  | _ :: front => some front.reverse

/-- `s` with its first occurrence of `old` replaced by `new`. -/
def replaceFirst (old new : List α) : List α → List α
  | [] => []
  | a :: s =>
    match after? old (a :: s) with
    | some rest => new ++ rest
    | none => a :: replaceFirst old new s

/-- What follows `lead` in `s`, if `s` begins with it. -/
def dropLead? (lead s : String) : Option String :=
  (after? lead.toList s.toList).map String.ofList

/-- Does `s` begin with `lead`? -/
def startsWith (s lead : String) : Bool :=
  (after? lead.toList s.toList).isSome

/-- What precedes `tail` in `s`, if `s` ends with it. -/
def dropTail? (tail s : String) : Option String :=
  (after? tail.toList.reverse s.toList.reverse).map fun front => String.ofList front.reverse

/-! ## White space -/

/-- The characters with the Unicode property `White_Space`. The list is closed:
    the zero width spaces and the information separators are not in it. -/
def isBlank (c : Char) : Bool :=
  let n := c.toNat
  (0x09 ≤ n && n ≤ 0x0D) || n == 0x20 || n == 0x85 || n == 0xA0 || n == 0x1680 ||
    (0x2000 ≤ n && n ≤ 0x200A) || n == 0x2028 || n == 0x2029 || n == 0x202F ||
    n == 0x205F || n == 0x3000

/-- `s` without the white space at its two ends. -/
def trim (s : String) : String :=
  String.ofList (trimWhere isBlank s.toList)

/-- The longest runs of characters of `s` that are not white space. -/
def words (s : String) : List String :=
  ((splitWhere isBlank s.toList).filter (fun w => !w.isEmpty)).map String.ofList

end ParseBench.Text
