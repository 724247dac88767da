/-
  ParseBench.Host.Shell.Expansion

  What words become when their command runs: values take the place of parameters,
  are cut into fields, and fields that are patterns become the paths that match.
  What commands write is given by a function, as running them is not known here.
-/

import ParseBench.Host.Shell.Arithmetic
import ParseBench.Host.Shell.Pattern
import ParseBench.Host.Shell.State

namespace ParseBench.Shell

/-! ## Fields -/

/-- What a word becomes before it is cut. -/
inductive Mark where
  /-- A letter, and whether it may be cut away as a separator. -/
  | letter (l : Letter) (separates : Bool)
  /-- Quotes: there is a field here, though it may be empty. -/
  | anchor
  /-- The end of a field. -/
  | cut
  deriving DecidableEq, Repr, Inhabited

/-- The fields so far, back to front: the finished ones, and the one that has been begun. -/
structure Fields where
  finished : List (List Letter) := []
  current : Option (List Letter) := none
  /-- Did a blank end the last field? Then a separator that follows belongs to that end. -/
  afterBlank : Bool := false
  deriving Inhabited

namespace Fields

/-- The current field is finished. -/
def finish (f : Fields) (afterBlank : Bool) : Fields :=
  match f.current with
  | some ls => ⟨ls.reverse :: f.finished, none, afterBlank⟩
  | none => f

/-- Adds a mark. Blanks separate only as far as they are among the separators, and several of
    them are one; any other separator ends a field even if that is empty. -/
def add (separators : List Char) (f : Fields) : Mark → Fields
  | .anchor => ⟨f.finished, some (f.current.getD []), false⟩
  | .cut => { f.finish false with afterBlank := false }
  | .letter l separates =>
    if separates && separators.contains l.char then
      if Numeral.isBlank l.char then f.finish true
      else
        match f.current with
        | some _ => f.finish false
        | none =>
          if f.afterBlank then { f with afterBlank := false }
          else { f with finished := [] :: f.finished }
    else ⟨f.finished, some (l :: f.current.getD []), false⟩

/-- The fields of marks. -/
def ofMarks (separators : String) (marks : List Mark) : List (List Letter) :=
  ((marks.foldl (add separators.toList) {}).finish false).finished.reverse

end Fields

namespace Mark

/-- The marks of a value. -/
def ofValue (s : String) (quoted : Bool) : List Mark :=
  if quoted then .anchor :: s.toList.map fun c => .letter ⟨c, true⟩ false
  else s.toList.map fun c => .letter ⟨c, false⟩ true

/-- The marks of a text. It may be cut only if it stands in for a value. -/
def ofText (s : String) (quoted separates : Bool) : List Mark :=
  if quoted then ofValue s true else s.toList.map fun c => .letter ⟨c, false⟩ separates

/-- The letters of marks. -/
def letters (marks : List Mark) : List Letter :=
  marks.filterMap fun
    | .letter l _ => some l
    | .anchor | .cut => none

/-- The text of marks. -/
def text (marks : List Mark) : String :=
  Letter.text (letters marks)

end Mark

/-! ## Home directories -/

/-- The home directory of a name, or of the user if there is none. -/
def home? (sh : Shell) (name : String) : Option String :=
  if name.isEmpty then sh.valueOf? "HOME"
  else if name = "root" then some "/root"
  else none

/-- A text at the beginning of which a tilde stands for a home directory. `isWhole` says that
    the word goes on directly after the text. -/
def tildeText (sh : Shell) (goesOn : Bool) (s : String) : Word :=
  match s.toList with
  | '~' :: rest =>
    let name := rest.takeWhile (· ≠ '/')
    let later := rest.drop name.length
    if later.isEmpty && goesOn then [.text s false]
    else
      match home? sh (String.ofList name) with
      | some home => [.text home true, .text (String.ofList later) false]
      | none => [.text s false]
  | _ => [.text s false]

/-- A word with its home directories. In a value they may stand after colons, too. -/
def withHomes (sh : Shell) (inValue : Bool) : Word → Word
  | .text s false :: rest =>
    if inValue then
      let parts := Text.splitOn ':' s
      let last := parts.length - 1
      (parts.zipIdx.flatMap fun (part, i) =>
        (if i = 0 then [] else [.text ":" false]) ++
          tildeText sh (i = last && !rest.isEmpty) part) ++ rest
    else tildeText sh (!rest.isEmpty) s ++ rest
  | w => w

/-! ## Parameters -/

/-- The value of a parameter. -/
inductive Value where
  | missing
  | one (s : String)
  /-- All arguments. -/
  | all (arguments : List String)
  deriving DecidableEq, Repr, Inhabited

/-- The value of the parameter of a name. -/
def valueOf (sh : Shell) (name : String) : Value :=
  if name = "@" || name = "*" then .all sh.arguments
  else
    match sh.parameter? name with
    | some s => .one s
    | none => .missing

/-- Is a value missing, or perhaps empty? -/
def Value.isMissing (orEmpty : Bool) : Value → Bool
  | missing => true
  | one s => orEmpty && s.isEmpty
  | all l => orEmpty && (l.isEmpty || l == [""])

/-- What stands between the arguments where they are one text. -/
def joint (sh : Shell) (name : String) : String :=
  if name = "*" then String.ofList (sh.separators.toList.take 1) else " "

/-- The marks of all arguments. -/
def argumentMarks (sh : Shell) (name : String) (quoted asFields : Bool) (l : List String) :
    List Mark :=
  if asFields && !(quoted && name = "*") then
    List.intercalate [.cut] (l.map fun s => Mark.ofValue s quoted)
  else Mark.ofValue (Text.join (joint sh name) l) quoted

namespace Exec

/-- The value of a variable in an expression. -/
def readNumber (name : String) : Exec Int64 := do
  let s := ((← get).parameter? name).getD ""
  if s.all Numeral.isBlank then return 0
  match Numeral.signed? Numeral.natural? s.toList with
  | some (n, rest) =>
    if rest.all Numeral.isBlank && Numeral.clamp n = n then return Int64.ofInt n
    else fail ("Illegal number: " ++ s)
  | none => fail ("Illegal number: " ++ s)

/-- The value of a text that is an expression. -/
def arithmetic (s : String) : Exec String := do
  match Expression.ofText? s with
  | none => fail ("arithmetic expression: expecting primary: \"" ++ s ++ "\"")
  | some e =>
    let n ← e.value readNumber (fun name n => assign name (toString n.toInt))
      (fail ("arithmetic expression: division by zero: \"" ++ s ++ "\""))
    return toString n.toInt

/-- The marks of a parameter. `inner` gives the marks of the words in it. -/
def parameter (inner : (separates : Bool) → Word → Exec (List Mark)) (asFields : Bool)
    (name : String) (change : Change) (quoted : Bool) : Exec (List Mark) := do
  let sh ← get
  let value := valueOf sh name
  let asIs (v : Value) : List Mark :=
    match v with
    | .missing => Mark.ofValue "" quoted
    | .one s => Mark.ofValue s quoted
    | .all l => argumentMarks sh name quoted asFields l
  let orFail (v : Value) (marks : List Mark) : Exec (List Mark) := do
    if v = .missing && sh.hasOption 'u' then fail (name ++ ": parameter not set")
    else return marks
  match change with
  | .none => orFail value (asIs value)
  | .length =>
    let n :=
      match value with
      | .missing => 0
      | .one s => s.length
      | .all l => (Text.join (joint sh "*") l).length
    orFail value (Mark.ofValue (toString n) quoted)
  | .trim atEnd longest pattern =>
    let pattern := Pattern.ofLetters (Mark.letters (← inner false pattern))
    let trim := pattern.trim atEnd longest
    let quotes : List Mark := if quoted then [.anchor] else []
    orFail value (quotes ++ asIs (match value with
      | .missing => .missing
      | .one s => .one (trim s)
      | .all l =>
        if asFields && !(quoted && name = "*") then .all (pattern.trimAll atEnd longest l)
        else if l.isEmpty then .all []
        else .one (trim (Text.join (joint sh name) l))))
  | .fallback f orEmpty word =>
    let instead : Exec (List Mark) := do
      let marks ← inner true (withHomes sh false word)
      return if quoted then .anchor :: marks else marks
    match f, value.isMissing orEmpty with
    | .replaces, true => instead
    | .replacesOther, false => instead
    | .replacesOther, true => return if quoted then [.anchor] else []
    | .assigns, true =>
      if isName name then
        let s := Mark.text (← inner false (withHomes sh false word))
        assign name s
        return Mark.ofValue s quoted
      else fail (name ++ ": bad variable name")
    | .fails, true =>
      let message := Mark.text (← inner false word)
      fail (name ++ ": " ++ if word.isEmpty then "parameter not set" else message)
    | _, false => return if quoted then .anchor :: asIs value else asIs value
  | .invalid => fail "Bad substitution"

/-- The marks of a word, at most `bound` levels deep. `asFields` says that all arguments are
    fields of their own, and `separates` that the text stands in for a value. -/
def marks (output : Option Command → Exec String) :
    (bound : Nat) → (asFields separates : Bool) → Word → Exec (List Mark)
  | 0, _, _, _ => fail "too deep"
  | bound + 1, asFields, separates, w => do
    let parts ← w.mapM fun piece =>
      match piece with
      | .text s quoted => return Mark.ofText s quoted separates
      | .parameter name change quoted =>
        parameter (marks output bound asFields) asFields name change quoted
      | .output body quoted => do
        let s ← output body
        return Mark.ofValue s quoted
      | .value expression quoted => do
        let s ← arithmetic (Mark.text (← marks output bound false false expression))
        return Mark.ofValue s quoted
    return parts.flatten

/-- The words that a word becomes: its fields, or the paths that they stand for. -/
def fieldsOf (output : Option Command → Exec String) (bound : Nat) (w : Word) :
    Exec (List String) := do
  let ms ← marks output bound true false (withHomes (← get) false w)
  let sh ← get
  let fields := Fields.ofMarks sh.separators ms
  return fields.flatMap fun ls =>
    if sh.hasOption 'f' then [Letter.text ls] else paths sh.process ls

/-- The fields of words. If `declares`, words that set variables are not cut. -/
def fields (output : Option Command → Exec String) (bound : Nat) (declares : Bool)
    (words : List Word) : Exec (List String) := do
  let parts ← words.mapM fun w => do
    match if declares then assignment? w else none with
    | some (name, w) =>
      let ms ← marks output bound false false (withHomes (← get) true w)
      return [name ++ "=" ++ Mark.text ms]
    | none => fieldsOf output bound w
  return parts.flatten

/-- The text of a word that is not cut. -/
def text (output : Option Command → Exec String) (bound : Nat) (inValue : Bool) (w : Word) :
    Exec String := do
  return Mark.text (← marks output bound false false (withHomes (← get) inValue w))

/-- The pattern of a word. -/
def pattern (output : Option Command → Exec String) (bound : Nat) (w : Word) : Exec Pattern := do
  let ms ← marks output bound false false (withHomes (← get) false w)
  return Pattern.ofLetters (Mark.letters ms)

end Exec

end ParseBench.Shell
