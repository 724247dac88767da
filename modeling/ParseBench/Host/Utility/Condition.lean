/-
  ParseBench.Host.Utility.Condition

  Conditions on texts, numbers and files that are said in words. What a word means
  depends on the words after it: an operator with nothing to work on is a plain
  text.
-/

import ParseBench.Host.Numeral
import ParseBench.Host.Utility.Basic

namespace ParseBench.Utility.Condition

/-! ## Operators -/

/-- The operators that stand before one operand. -/
def unaryOps : List String :=
  ["-r", "-w", "-x", "-f", "-d", "-e", "-c", "-b", "-p", "-u", "-g", "-k", "-s", "-t", "-z", "-n",
    "-h", "-L", "-S", "-O", "-G"]

/-- The operators that stand between two operands. -/
def binaryOps : List String :=
  ["=", "!=", "<", ">", "-eq", "-ne", "-ge", "-gt", "-le", "-lt", "-nt", "-ot", "-ef"]

/-- Is the word an operator that stands between two operands? -/
def isBinary (s : String) : Bool :=
  binaryOps.contains s

/-- What a word can be. -/
inductive Sign where
  | missing
  | operand
  | unary
  | binary
  | negation
  | conjunction
  | disjunction
  | opening
  | closing
  deriving DecidableEq, Repr, Inhabited

/-- What the first word is, which depends on the next two. -/
def sign : List String → Sign
  | [] => .missing
  | s :: rest =>
    if unaryOps.contains s then
      match rest with
      | [] => .operand
      | [_] => .unary
      | next :: _ => if isBinary next then .operand else .unary
    else if isBinary s then .binary
    else if s = "!" then .negation
    else if s = "-a" then .conjunction
    else if s = "-o" then .disjunction
    else if s = "(" then if rest.isEmpty then .operand else .opening
    else if s = ")" then .closing
    else .operand

/-! ## Meaning -/

/-- Does an operator hold of one operand? -/
def holdsOf (p : Process) (op operand : String) : Bool :=
  if op = "-n" then !operand.isEmpty
  else if op = "-z" then operand.isEmpty
  else if op = "-h" || op = "-L" then
    match p.nameNode? operand with
    | some (.link _) => true
    | _ => false
  else
    match p.node? operand with
    | none => false
    | some node =>
      match op, node with
      | "-e", _ | "-r", _ | "-w", _ | "-O", _ | "-G", _ => true
      | "-d", .directory | "-x", .directory | "-s", .directory => true
      | "-f", .file .. | "-f", .program | "-x", .program | "-s", .program => true
      | "-x", .file f => f.executable
      | "-s", .file f => f.content.size ≠ 0
      | "-c", .device => true
      | "-p", .pipe => true
      | _, _ => false

/-- Two paths lead to the same. -/
def sameFile (p : Process) (left right : String) : Bool :=
  match p.node? left, p.node? right, p.locate left, p.locate right with
  | some (.file f), some (.file g), _, _ => f.number == g.number
  | some _, some _, .ok l, .ok r => l == r
  | _, _, _, _ => false

/-- The number that an operand has to be. -/
def number (s : String) : Except String Int :=
  match Numeral.decimal? s with
  | some n => .ok n
  | none => .error ("Illegal number: " ++ s)

/-- Does an operator hold between two operands? -/
def holdsBetween (p : Process) (left op right : String) : Except String Bool :=
  let compare (f : Int → Int → Bool) : Except String Bool := do
    let l ← number left
    let r ← number right
    return f l r
  match op with
  | "=" => .ok (left == right)
  | "!=" => .ok (left != right)
  | "<" => .ok (left < right)
  | ">" => .ok (right < left)
  | "-eq" => compare (· == ·)
  | "-ne" => compare (· != ·)
  | "-ge" => compare fun l r => r ≤ l
  | "-gt" => compare fun l r => r < l
  | "-le" => compare fun l r => l ≤ r
  | "-lt" => compare fun l r => l < r
  -- files have no times here, so a file is newer only than one that is not there
  | "-nt" => .ok ((p.node? left).isSome && (p.node? right).isNone)
  | "-ot" => .ok ((p.node? left).isNone && (p.node? right).isSome)
  | "-ef" => .ok (sameFile p left right)
  | _ => .error (op ++ ": unexpected operator")

/-! ## Reading

The functions read a condition from the beginning of words, at most `bound` levels deep, and
yield what follows it, or say what is wrong. -/

mutual

/-- Alternatives. -/
def anyOf (p : Process) : (bound : Nat) → List String → Except String (Bool × List String)
  | 0, _ => .error "too deep"
  | bound + 1, words => do
    let (holds, rest) ← allOf p bound words
    if sign rest = .disjunction then
      let (later, rest) ← anyOf p bound (rest.drop 1)
      return (holds || later, rest)
    else return (holds, rest)

/-- Conditions that have to hold together. -/
def allOf (p : Process) : (bound : Nat) → List String → Except String (Bool × List String)
  | 0, _ => .error "too deep"
  | bound + 1, words => do
    let (holds, rest) ← one p bound words
    if sign rest = .conjunction then
      let (later, rest) ← allOf p bound (rest.drop 1)
      return (holds && later, rest)
    else return (holds, rest)

/-- One condition. -/
def one (p : Process) : (bound : Nat) → List String → Except String (Bool × List String)
  | 0, _ => .error "too deep"
  | bound + 1, words =>
    match sign words, words with
    | .missing, _ => .ok (false, [])
    | .negation, _ :: rest => do
      let (holds, rest) ← one p bound rest
      return (!holds, rest)
    | .opening, _ :: rest =>
      if sign rest = .closing then .ok (false, rest.drop 1)
      else do
        let (holds, rest) ← anyOf p bound rest
        if sign rest = .closing then return (holds, rest.drop 1)
        else .error "closing paren expected"
    | .unary, op :: operand :: rest => .ok (holdsOf p op operand, rest)
    | _, left :: op :: rest =>
      if isBinary op then
        match rest with
        | right :: rest => do return (← holdsBetween p left op right, rest)
        | [] => .error (op ++ ": argument expected")
      else .ok (!left.isEmpty, op :: rest)
    | _, [s] => .ok (!s.isEmpty, [])
    | _, [] => .error "argument expected"

end

/-- Does the condition hold that is the whole list of words? -/
def whole (p : Process) (words : List String) : Except String Bool := do
  match ← anyOf p (3 * words.length + 3) words with
  | (holds, []) => return holds
  | (_, rest) =>
    let last := words.getD (words.length - rest.length - 1) ""
    .error (last ++ ": unexpected operator")

/-- Does the condition hold that is three words? An operator in the middle compares, brackets
    around one word are left out, and a negation is that of the whole. -/
def three (p : Process) (left op right : String) : Except String Bool :=
  if isBinary op then holdsBetween p left op right
  else if left = "(" && right = ")" then whole p [op]
  else if left = "!" then (whole p [op, right]).map (!·)
  else whole p [left, op, right]

/-- Does the condition hold? -/
def holds (p : Process) : List String → Except String Bool
  | [] => .ok false
  | [left, op, right] => three p left op right
  | [a, b, c, d] =>
    if a = "(" && d = ")" then whole p [b, c]
    else if a = "!" then (three p b c d).map (!·)
    else whole p [a, b, c, d]
  | words => whole p words

end Condition

/-- Says by its status whether a condition holds. Its messages begin with a name. -/
def conditionStatus (name : String) (words : List String) : Act Nat := do
  match Condition.holds (← get) words with
  | .ok true => return 0
  | .ok false => return 1
  | .error message =>
    Act.complain (name ++ ": " ++ message)
    return 2

/-- Tests a condition. -/
def test : Utility :=
  conditionStatus "test"

/-- The same with a bracket at the end. -/
def bracket : Utility := fun args => do
  -- only how the last word begins is looked at
  if Text.startsWith (args.getLastD "") "]" then conditionStatus "[" args.dropLast
  else
    Act.complain "[: missing ]"
    return 2

end ParseBench.Utility
