/-
  ParseBench.Host.Records.Token

  The words and signs of a program. A slash begins an expression to match where no
  value stands before it that could be divided.
-/

import ParseBench.Host.Records.Value

namespace ParseBench.Records

/-- A word or a sign. -/
inductive Token where
  | number (x : Float)
  | text (s : String)
  | regex (source : String)
  | name (s : String)
  /-- A name right before a parenthesis. -/
  | call (name : String)
  | builtin (name : String)
  | word (s : String)
  | sign (s : String)
  | lineEnd
  deriving Repr, Inhabited

namespace Token

/-- The words with a meaning of their own. -/
def words : List String :=
  ["BEGIN", "END", "function", "func", "if", "else", "while", "for", "do", "break", "continue", "next",
    "nextfile", "exit", "return", "delete", "in", "getline", "print", "printf"]

/-- The functions that are built in. -/
def builtins : List String :=
  ["length", "substr", "index", "split", "sub", "gsub", "match", "sprintf", "sin", "cos", "atan2", "exp", "log",
    "sqrt", "int", "rand", "srand", "tolower", "toupper", "system", "close", "fflush", "systime", "strftime",
    "mktime"]

/-- The signs, longer ones before those that they begin with. -/
def signs : List String :=
  ["&&", "||", "++", "--", "+=", "-=", "*=", "/=", "%=", "^=", "==", "<=", ">=", "!=", "!~", ">>",
    "\x7b", "\x7d", "(", ")", "[", "]", ";", ",", "+", "-", "*", "/", "%", "^", "!", ">", "<", "|", "?", ":", "~",
    "$", "="]

/-- Can a value end here, so that a slash divides it? -/
def endsValue : Token → Bool
  | number _ | text _ | regex _ | name _ | builtin _ => true
  | sign s => [")", "]", "++", "--", "$"].contains s
  | _ => false

/-- The text in quotes, and what follows it. Escapes are replaced. -/
def quoted : List Char → Option (List Char × List Char)
  | [] => none
  | '"' :: rest => some ([], rest)
  | '\n' :: _ => none
  | '\\' :: '\n' :: rest => quoted rest
  | '\\' :: c :: rest =>
    let simple : Option Char :=
      match c with
      | 'n' => some '\n'
      | 't' => some '\t'
      | 'r' => some '\r'
      | '\\' => some '\\'
      | '"' => some '"'
      | 'a' => some '\x07'
      | 'b' => some '\x08'
      | 'f' => some '\x0c'
      | 'v' => some '\x0b'
      | _ => none
    match simple with
    | some d => (quoted rest).map fun (s, rest) => (d :: s, rest)
    | none =>
      let hex := (rest.take 2).takeWhile fun c => (Numeral.digit? 16 c).isSome
      if c = 'x' && !hex.isEmpty then
        (quoted (rest.drop hex.length)).map fun (s, rest) => (Char.ofNat (Numeral.value 16 hex) :: s, rest)
      else if Utility.isOctal c then
        let digits := ((c :: rest).take 3).takeWhile Utility.isOctal
        (quoted ((c :: rest).drop digits.length)).map fun (s, rest) =>
          (Char.ofNat (Numeral.value 8 digits % 256) :: s, rest)
      else (quoted rest).map fun (s, rest) => ('\\' :: c :: s, rest)
  | c :: rest => (quoted rest).map fun (s, rest) => (c :: s, rest)
termination_by s => s.length
decreasing_by all_goals (simp only [List.length_cons, List.length_drop]; omega)

/-- The expression up to a slash, and what follows it. A slash in brackets belongs to it. -/
def slashed (inBrackets : Bool) : List Char → Option (List Char × List Char)
  | [] => none
  | '\n' :: _ => none
  | '\\' :: '/' :: rest => (slashed inBrackets rest).map fun (s, rest) => ('/' :: s, rest)
  | '\\' :: c :: rest => (slashed inBrackets rest).map fun (s, rest) => ('\\' :: c :: s, rest)
  | c :: rest =>
    if c = '/' && !inBrackets then some ([], rest)
    else
      let inside := if c = '[' then true else if c = ']' then false else inBrackets
      (slashed inside rest).map fun (s, rest) => (c :: s, rest)

/-- Can a name begin with the character? -/
def beginsName (c : Char) : Bool :=
  c.isAlpha || c == '_'

/-- The token at the beginning of a text, and what follows it. -/
def next? (divides : Bool) (s : List Char) : Option (Token × List Char) :=
  match s with
  | [] => none
  | '"' :: rest => (quoted rest).map fun (s, rest) => (text (String.ofList s), rest)
  | c :: rest =>
    if beginsName c then
      let letters := s.takeWhile fun c => beginsName c || c.isDigit
      let later := s.drop letters.length
      let name := String.ofList letters
      if words.contains name then some (word (if name = "func" then "function" else name), later)
      else if builtins.contains name then some (builtin name, later)
      else if later.head? = some '(' then some (call name, later)
      else some (Token.name name, later)
    else if c.isDigit || (c = '.' && (rest.head?.map Char.isDigit).getD false) then
      (unsignedAt?.decimalAt? s).map fun (x, rest) => (number x, rest)
    else if c = '/' && !divides then
      (slashed false rest).map fun (s, rest) => (regex (String.ofList s), rest)
    else
      (signs.find? fun sign => Text.startsWith (String.ofList (s.take 2)) sign).map fun found =>
        (sign found, s.drop found.length)

/-- The tokens of a text, at most `bound` of them. `before` is the one before. -/
def all? : (bound : Nat) → (before : Token) → List Char → Option (List Token)
  | 0, _, _ => none
  | _ + 1, _, [] => some []
  | bound + 1, before, '\\' :: '\n' :: rest => all? bound before rest
  | bound + 1, before, '\\' :: '\r' :: '\n' :: rest => all? bound before rest
  | bound + 1, before, '#' :: rest => all? bound before (rest.dropWhile (· ≠ '\n'))
  | bound + 1, _, '\n' :: rest => (all? bound lineEnd rest).map (lineEnd :: ·)
  | bound + 1, before, c :: rest =>
    if c = ' ' || c = '\t' || c = '\r' then all? bound before rest
    else do
      let (token, later) ← next? before.endsValue (c :: rest)
      return token :: (← all? bound token later)

/-- The tokens of a text. -/
def ofText? (s : String) : Option (List Token) :=
  all? (s.length + 1) lineEnd s.toList

end Token

end ParseBench.Records
