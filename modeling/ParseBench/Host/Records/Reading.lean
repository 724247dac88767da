/-
  ParseBench.Host.Records.Reading

  Reading programs. Each function reads one kind of expression, from those that
  bind least to those that bind most; the bound grows smaller with every step.
-/

import ParseBench.Host.Records.Program
import ParseBench.Host.Records.Token

namespace ParseBench.Records

/-- What reads tokens. -/
abbrev Read := StateT (List Token) Option

namespace Read

/-- The next token, which stays. -/
def peek : Read (Option Token) := do
  return (← get).head?

/-- Passes over a token. -/
def skip : Read Unit :=
  modify (·.drop 1)

/-- Is the next token this sign? -/
def isSign (s : String) : Read Bool := do
  match ← peek with
  | some (.sign t) => return t == s
  | _ => return false

/-- Is the next token this word? -/
def isWord (s : String) : Read Bool := do
  match ← peek with
  | some (.word t) => return t == s
  | _ => return false

/-- Takes a sign if it comes next. -/
def takes (s : String) : Read Bool := do
  if ← isSign s then
    skip
    return true
  return false

/-- Takes a word if it comes next. -/
def takesWord (s : String) : Read Bool := do
  if ← isWord s then
    skip
    return true
  return false

/-- Takes a sign, which has to come next. -/
def want (s : String) : Read Unit := do
  if !(← takes s) then failure

/-- Passes over the ends of lines. -/
def skipLines : Read Unit :=
  modify fun ts => ts.dropWhile fun | .lineEnd => true | _ => false

/-- Can the next token begin a value that is put after another one? -/
def beginsValue : Read Bool := do
  match ← peek with
  | some (.number _) | some (.text _) | some (.regex _) | some (.name _) | some (.call _)
  | some (.builtin _) => return true
  | some (.sign s) => return ["$", "(", "++", "--"].contains s
  | _ => return false

/-- Does a statement end here? -/
def isEnd : Read Bool := do
  match ← peek with
  | none | some .lineEnd => return true
  | some (.sign s) => return s == ";" || s == "\x7d"
  | _ => return false

end Read

open Read

/-- Can something be assigned to an expression? -/
def isTarget : Expr → Bool
  | .variable _ | .field _ | .element _ _ => true
  | _ => false

/-- The operators that assign. -/
def assignments : List (String × Option Operator) :=
  [("=", none), ("+=", some .add), ("-=", some .subtract), ("*=", some .multiply), ("/=", some .divide),
    ("%=", some .remainder), ("^=", some .power)]

/-- The signs that compare. -/
def comparisons : List (String × Comparison) :=
  [("<", .less), ("<=", .atMost), ("==", .same), ("!=", .different), (">=", .atLeast), (">", .more)]

/-- The signs of numbers that bind alike. -/
def sums : List (String × Operator) := [("+", .add), ("-", .subtract)]

/-- The signs that bind more than those of sums. -/
def products : List (String × Operator) := [("*", .multiply), ("/", .divide), ("%", .remainder)]

/-- The next sign, if it is one of a table. -/
def Read.takesOf {α : Type} (table : List (String × α)) : Read (Option α) := do
  match ← peek with
  | some (.sign s) =>
    match table.lookup s with
    | some a =>
      skip
      return some a
    | none => return none
  | _ => return none

/-- How much an expression binds that has no sign between values. -/
def unaryLevel : Nat := 8

mutual

/-- An expression. `prints` says that a greater sign redirects output. -/
def expr (prints : Bool) : (bound : Nat) → Read Expr
  | 0 => failure
  | bound + 1 => do
    let left ← level prints 0 bound
    if isTarget left then
      if let some operator ← takesOf assignments then
        skipLines
        return .assign operator left (← expr prints bound)
    if ← takes "?" then
      skipLines
      let yes ← expr prints bound
      skipLines
      want ":"
      skipLines
      return .choice left yes (← expr prints bound)
    return left

/-- Values with signs between them that bind at least as much as a level says. -/
def level (prints : Bool) (n : Nat) : (bound : Nat) → Read Expr
  | 0 => failure
  | bound + 1 => do
    if unaryLevel ≤ n then unary prints bound
    else more prints n bound (← level prints (n + 1) bound)

/-- What follows a value with the signs of a level. -/
def more (prints : Bool) (n : Nat) : (bound : Nat) → Expr → Read Expr
  | 0, _ => failure
  | bound + 1, left => do
    match n with
    | 0 =>
      if ← takes "||" then
        skipLines
        more prints n bound (.either left (← level prints 1 bound))
      else return left
    | 1 =>
      if ← takes "&&" then
        skipLines
        more prints n bound (.both left (← level prints 2 bound))
      else return left
    | 2 =>
      if ← takesWord "in" then
        match ← peek with
        | some (.name table) =>
          skip
          more prints n bound (.isIn [left] table)
        | _ => failure
      else return left
    | 3 =>
      if ← takes "~" then more prints n bound (.isMatch false left (← level prints 4 bound))
      else if ← takes "!~" then more prints n bound (.isMatch true left (← level prints 4 bound))
      else return left
    | 4 =>
      if prints && (← isSign ">") then return left
      match ← takesOf comparisons with
      | some how => more prints n bound (.compare how left (← level prints 5 bound))
      | none => return left
    | 5 =>
      if ← beginsValue then more prints n bound (.joined left (← level prints 6 bound))
      else return left
    | 6 =>
      match ← takesOf sums with
      | some operator => more prints n bound (.operation operator left (← level prints 7 bound))
      | none => return left
    | _ =>
      match ← takesOf products with
      | some operator => more prints n bound (.operation operator left (← unary prints bound))
      | none => return left

/-- A value with signs before it. -/
def unary (prints : Bool) : (bound : Nat) → Read Expr
  | 0 => failure
  | bound + 1 => do
    if ← takes "!" then return .not (← unary prints bound)
    if ← takes "-" then return .negative (← unary prints bound)
    if ← takes "+" then return .positive (← unary prints bound)
    let base ← suffixed bound
    if ← takes "^" then return .operation .power base (← unary prints bound)
    return base

/-- A value that may be changed, and that may be a command to read from. -/
def suffixed : (bound : Nat) → Read Expr
  | 0 => failure
  | bound + 1 => do
    let e ← primary bound
    let e ←
      if isTarget e then
        if ← takes "++" then pure (Expr.step false 1 e)
        else if ← takes "--" then pure (.step false (-1) e)
        else pure e
      else pure e
    readings bound e

/-- Readings from the output of a command. -/
def readings : (bound : Nat) → Expr → Read Expr
  | 0, _ => failure
  | bound + 1, command => do
    match (← get) with
    | .sign "|" :: .word "getline" :: rest =>
      set rest
      let target ← target? bound
      readings bound (.readCommand target command)
    | _ => return command

/-- What is read into, if that is said. -/
def target? : (bound : Nat) → Read (Option Expr)
  | 0 => failure
  | bound + 1 => do
    match ← peek with
    | some (.name _) => return some (← primary bound)
    | some (.sign "$") => return some (← primary bound)
    | _ => return none

/-- Expressions with commas between them, up to a sign that closes them. -/
def listed (closing : String) : (bound : Nat) → Read (List Expr)
  | 0 => failure
  | bound + 1 => do
    skipLines
    if ← takes closing then return []
    let e ← expr false bound
    skipLines
    if ← takes "," then return e :: (← listed closing bound)
    want closing
    return [e]

/-- A value without signs around it. -/
def primary : (bound : Nat) → Read Expr
  | 0 => failure
  | bound + 1 => do
    match ← peek with
    | some (.number x) =>
      skip
      return .number x
    | some (.text s) =>
      skip
      return .text s
    | some (.regex s) =>
      skip
      return .regex s
    | some (.name name) =>
      skip
      if ← takes "[" then return .element name (← listed "]" bound)
      else return .variable name
    | some (.call name) =>
      skip
      want "("
      return .call name (← listed ")" bound)
    | some (.builtin name) =>
      skip
      if ← takes "(" then return .builtin name (← listed ")" bound)
      else if name = "length" then return .builtin name []
      else failure
    | some (.word "getline") =>
      skip
      let target ← target? bound
      if ← takes "<" then return .readFile target (← primary bound)
      else return .readLine target
    | some (.sign "$") =>
      skip
      if ← takes "-" then return .field (.negative (← primary bound))
      else return .field (← primary bound)
    | some (.sign "++") =>
      skip
      let e ← primary bound
      if isTarget e then return .step true 1 e else failure
    | some (.sign "--") =>
      skip
      let e ← primary bound
      if isTarget e then return .step true (-1) e else failure
    | some (.sign "-") =>
      skip
      return .negative (← primary bound)
    | some (.sign "!") =>
      skip
      return .not (← primary bound)
    | some (.sign "(") =>
      skip
      match ← listed ")" bound with
      | [e] =>
        return e
      | several =>
        if several.isEmpty then failure
        if ← takesWord "in" then
          match ← peek with
          | some (.name table) =>
            skip
            return .isIn several table
          | _ => failure
        else failure
    | _ => failure

end

/-! ## Statements -/

/-- Where output goes, if that is said. -/
def outlet? (bound : Nat) : Read (Option (Outlet × Expr)) := do
  let kind? ← takesOf [(">", Outlet.replace), (">>", .append), ("|", .command)]
  match kind? with
  | some kind => return some (kind, ← expr false bound)
  | none => return none

/-- Does what is printed end here? -/
def endsPrinting : Read Bool := do
  match ← peek with
  | some (.sign s) => return [";", "\x7d", ">", ">>", "|"].contains s
  | some .lineEnd | none => return true
  | _ => return false

/-- Expressions with commas between them. -/
def several : (bound : Nat) → Read (List Expr)
  | 0 => failure
  | bound + 1 => do
    let e ← expr true bound
    if ← takes "," then
      skipLines
      return e :: (← several bound)
    return [e]

/-- What is printed. A list in parentheses is no value. -/
def printed (bound : Nat) : Read (List Expr) := do
  if ← endsPrinting then return []
  let start ← get
  if ← takes "(" then
    match (listed ")" bound).run (← get) with
    | some (es, rest) =>
      set rest
      if ← endsPrinting then return es
    | none => pure ()
    set start
  several bound

/-- The end of a statement. -/
def endOfStmt : Read Unit := do
  match ← peek with
  | none => return ()
  | some .lineEnd => skip
  | some (.sign ";") => skip
  | some (.sign "\x7d") => return ()
  | _ => failure

mutual

/-- A statement that is not made of others. -/
def simple : (bound : Nat) → Read Stmt
  | 0 => failure
  | bound + 1 => do
    match ← peek with
    | some (.word "print") =>
      skip
      let es ← printed bound
      return .print es (← outlet? bound)
    | some (.word "printf") =>
      skip
      let es ← printed bound
      if es.isEmpty then failure
      return .format es (← outlet? bound)
    | some (.word "delete") =>
      skip
      match ← peek with
      | some (.name table) =>
        skip
        if ← takes "[" then return .delete table (← listed "]" bound)
        else return .delete table []
      | _ => failure
    | _ => return .expr (← expr false bound)

/-- A statement, with its end. -/
def stmt : (bound : Nat) → Read Stmt
  | 0 => failure
  | bound + 1 => do
    let ended (s : Stmt) : Read Stmt := do
      endOfStmt
      return s
    let condition : Read Expr := do
      want "("
      skipLines
      let e ← expr false bound
      skipLines
      want ")"
      skipLines
      return e
    match ← peek with
    | some (.sign ";") =>
      skip
      return .nothing
    | some (.sign "\x7b") =>
      skip
      return .block (← stmts bound)
    | some (.word "if") =>
      skip
      let c ← condition
      let yes ← stmt bound
      let after ← get
      skipLines
      if ← takesWord "else" then
        skipLines
        return .branch c yes (← stmt bound)
      set after
      return .branch c yes .nothing
    | some (.word "while") =>
      skip
      let c ← condition
      return .loop c (← stmt bound)
    | some (.word "do") =>
      skip
      skipLines
      let body ← stmt bound
      skipLines
      if !(← takesWord "while") then failure
      want "("
      let c ← expr false bound
      want ")"
      ended (.loopAtLeastOnce body c)
    | some (.word "for") =>
      skip
      want "("
      match ← get with
      | .name item :: .word "in" :: .name table :: .sign ")" :: rest =>
        set rest
        skipLines
        return .each item table (← stmt bound)
      | _ =>
        let first ← if ← isSign ";" then pure Stmt.nothing else simple bound
        want ";"
        skipLines
        let c ← if ← isSign ";" then pure none else some <$> expr false bound
        want ";"
        skipLines
        let step ← if ← isSign ")" then pure Stmt.nothing else simple bound
        want ")"
        skipLines
        return .count first c step (← stmt bound)
    | some (.word "next") =>
      skip
      ended .next
    | some (.word "nextfile") =>
      skip
      ended .nextFile
    | some (.word "exit") =>
      skip
      let status ← if ← isEnd then pure none else some <$> expr false bound
      ended (.exit status)
    | some (.word "return") =>
      skip
      let value ← if ← isEnd then pure none else some <$> expr false bound
      ended (.return value)
    | some (.word "break") =>
      skip
      ended .break
    | some (.word "continue") =>
      skip
      ended .continue
    | _ => ended (← simple bound)

/-- The statements up to a brace. -/
def stmts : (bound : Nat) → Read (List Stmt)
  | 0 => failure
  | bound + 1 => do
    skipLines
    if ← takes "\x7d" then return []
    let s ← stmt bound
    return s :: (← stmts bound)

end

/-! ## Programs -/

/-- The body of a rule. A semicolon may stand behind it. -/
def body (bound : Nat) : Read Stmt := do
  want "\x7b"
  let b := Stmt.block (← stmts bound)
  let _ ← takes ";"
  return b

/-- The names of parameters, up to the closing parenthesis. -/
def parameters : (bound : Nat) → Read (List String)
  | 0 => failure
  | bound + 1 => do
    skipLines
    if ← takes ")" then return []
    match ← peek with
    | some (.name name) =>
      skip
      skipLines
      if ← takes "," then return name :: (← parameters bound)
      want ")"
      return [name]
    | _ => failure

/-- One rule or function, put into a program. -/
def item (bound : Nat) (p : Program) : Read Program := do
  match ← peek with
  | some (.word "BEGIN") =>
    skip
    return { p with before := p.before ++ [← body bound] }
  | some (.word "END") =>
    skip
    return { p with after := p.after ++ [← body bound] }
  | some (.word "function") =>
    skip
    let name ← match ← peek with
      | some (.name name) | some (.call name) => pure name
      | _ => failure
    skip
    want "("
    let names ← parameters bound
    skipLines
    -- from here on the name is the one of a function, wherever it stands
    modify fun ts => ts.map fun
      | .name other => if other = name then .call name else .name other
      | t => t
    let b ← body bound
    return { p with functions := p.functions ++ [(name, ⟨names, b⟩)] }
  | _ =>
    let choice ←
      if ← isSign "\x7b" then pure Choice.every
      else do
        let first ← expr false bound
        if ← takes "," then
          skipLines
          pure (.between first (← expr false bound))
        else pure (.where_ first)
    let b ←
      if ← isSign "\x7b" then body bound
      else do
        if ← isSign "\x7d" then failure
        endOfStmt
        pure (Stmt.print [] none)
    return { p with rules := p.rules ++ [(choice, b)] }

/-- All rules and functions. -/
def items : (bound : Nat) → Program → Read Program
  | 0, _ => failure
  | bound + 1, p => do
    skipLines
    if (← get).isEmpty then return p
    items bound (← item (bound + 1) p)

/-- The program of a text. -/
def Program.ofText? (s : String) : Option Program := do
  let tokens ← Token.ofText? s
  -- every token is passed a few times on its way down
  let p ← (items (20 * tokens.length + 100) {}).run' tokens
  if p.isProper then some p else none

end ParseBench.Records
