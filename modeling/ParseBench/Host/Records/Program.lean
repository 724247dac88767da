/-
  ParseBench.Host.Records.Program

  Programs that go through records: what is done with each record that a pattern
  chooses, and before and after all of them.
-/

import ParseBench.Host.Records.Value

namespace ParseBench.Records

/-- An operation on two numbers. -/
inductive Operator where
  | add
  | subtract
  | multiply
  | divide
  | remainder
  | power
  deriving DecidableEq, Repr, Inhabited

/-- How two values are compared. -/
inductive Comparison where
  | less
  | atMost
  | same
  | different
  | atLeast
  | more
  deriving DecidableEq, Repr, Inhabited

/-- An expression. -/
inductive Expr where
  | number (x : Float)
  | text (s : String)
  /-- Does the record match? -/
  | regex (source : String)
  | variable (name : String)
  | field (place : Expr)
  | element (table : String) (subscripts : List Expr)
  | assign (operator : Option Operator) (target value : Expr)
  /-- Changes a variable by a number. The value is that of before or of after. -/
  | step (before : Bool) (change : Float) (target : Expr)
  | choice (condition yes no : Expr)
  | both (left right : Expr)
  | either (left right : Expr)
  | not (e : Expr)
  | negative (e : Expr)
  | positive (e : Expr)
  | operation (operator : Operator) (left right : Expr)
  | joined (left right : Expr)
  | compare (how : Comparison) (left right : Expr)
  | isMatch (negated : Bool) (left right : Expr)
  | isIn (subscripts : List Expr) (table : String)
  /-- Calls what is built in. -/
  | builtin (name : String) (args : List Expr)
  | call (name : String) (args : List Expr)
  /-- Reads a record of the input. -/
  | readLine (target : Option Expr)
  | readFile (target : Option Expr) (path : Expr)
  | readCommand (target : Option Expr) (command : Expr)
  deriving Repr, Inhabited

/-- Where output goes. -/
inductive Outlet where
  | replace
  | append
  | command
  deriving DecidableEq, Repr, Inhabited

/-- A statement. -/
inductive Stmt where
  | nothing
  | block (body : List Stmt)
  | expr (e : Expr)
  | print (args : List Expr) (outlet : Option (Outlet × Expr))
  | format (args : List Expr) (outlet : Option (Outlet × Expr))
  | branch (condition : Expr) (yes no : Stmt)
  | loop (condition : Expr) (body : Stmt)
  | loopAtLeastOnce (body : Stmt) (condition : Expr)
  | count (first : Stmt) (condition : Option Expr) (step body : Stmt)
  | each (name table : String) (body : Stmt)
  | delete (table : String) (subscripts : List Expr)
  | next
  | nextFile
  | exit (status : Option Expr)
  | return (value : Option Expr)
  | break
  | continue
  deriving Repr, Inhabited

/-- What chooses records. -/
inductive Choice where
  | every
  | where_ (condition : Expr)
  /-- From a record to another one. -/
  | between (first last : Expr)
  deriving Repr, Inhabited

/-- A function. -/
structure Function where
  parameters : List String
  body : Stmt
  deriving Repr, Inhabited

/-- A program. -/
structure Program where
  before : List Stmt := []
  rules : List (Choice × Stmt) := []
  after : List Stmt := []
  functions : List (String × Function) := []
  deriving Repr, Inhabited

/-! ## Proper programs -/

mutual

/-- The functions that an expression calls, with the number of their arguments. -/
def Expr.calls : Expr → List (String × Nat)
  | .number _ | .text _ | .regex _ | .variable _ | .readLine none => []
  | .field e | .step _ _ e | .not e | .negative e | .positive e | .readLine (some e)
  | .readFile none e | .readCommand none e => e.calls
  | .element _ es | .isIn es _ | .builtin _ es => Expr.callsOfAll es
  | .assign _ a b | .both a b | .either a b | .operation _ a b | .joined a b | .compare _ a b
  | .isMatch _ a b | .readFile (some a) b | .readCommand (some a) b => a.calls ++ b.calls
  | .choice a b c => a.calls ++ b.calls ++ c.calls
  | .call name es => (name, es.length) :: Expr.callsOfAll es

/-- The functions that expressions call. -/
def Expr.callsOfAll : List Expr → List (String × Nat)
  | [] => []
  | e :: es => e.calls ++ Expr.callsOfAll es

end

/-- The functions that an expression calls that may be missing. -/
def callsOf? (e : Option Expr) : List (String × Nat) :=
  (e.map Expr.calls).getD []

/-- The functions that what is printed calls, and where it goes. -/
def printedCalls (es : List Expr) (outlet : Option (Outlet × Expr)) : List (String × Nat) :=
  Expr.callsOfAll es ++ callsOf? (outlet.map (·.2))

mutual

/-- The functions that a statement calls. -/
def Stmt.calls : Stmt → List (String × Nat)
  | .nothing | .next | .nextFile | .break | .continue => []
  | .block body => Stmt.callsOfAll body
  | .expr e => e.calls
  | .print es outlet | .format es outlet => printedCalls es outlet
  | .branch c yes no => c.calls ++ yes.calls ++ no.calls
  | .loop c body | .loopAtLeastOnce body c => c.calls ++ body.calls
  | .count first c step body => first.calls ++ callsOf? c ++ step.calls ++ body.calls
  | .each _ _ body => body.calls
  | .delete _ es => Expr.callsOfAll es
  | .exit e | .return e => callsOf? e

/-- The functions that statements call. -/
def Stmt.callsOfAll : List Stmt → List (String × Nat)
  | [] => []
  | s :: rest => s.calls ++ Stmt.callsOfAll rest

end

/-- Where a statement stands: what may be left there. -/
structure Place where
  inRule : Bool := false
  inFunction : Bool := false
  inLoop : Bool := false

mutual

/-- Does a statement leave only what it is in? -/
def Stmt.leavesProperly (place : Place) : Stmt → Bool
  | .block body => Stmt.allLeaveProperly place body
  | .branch _ yes no => yes.leavesProperly place && no.leavesProperly place
  | .loop _ body | .loopAtLeastOnce body _ | .count _ _ _ body | .each _ _ body =>
    body.leavesProperly { place with inLoop := true }
  | .next | .nextFile => place.inRule
  | .return _ => place.inFunction
  | .break | .continue => place.inLoop
  | _ => true

/-- Do statements leave only what they are in? -/
def Stmt.allLeaveProperly (place : Place) : List Stmt → Bool
  | [] => true
  | s :: rest => s.leavesProperly place && Stmt.allLeaveProperly place rest

end

namespace Choice

/-- The functions that what chooses records calls. -/
def calls : Choice → List (String × Nat)
  | every => []
  | where_ e => e.calls
  | between a b => a.calls ++ b.calls

end Choice

namespace Program

/-- The functions that a program calls. -/
def calls (p : Program) : List (String × Nat) :=
  Stmt.callsOfAll (p.before ++ p.after ++ p.rules.map (·.2) ++ p.functions.map (·.2.body)) ++
    p.rules.flatMap (·.1.calls)

/-- Is everything there that a program calls, and leaves every statement what it is in? -/
def isProper (p : Program) : Bool :=
  let names := p.functions.map (·.1)
  names.eraseDups.length == names.length &&
    p.functions.all (fun (name, f) =>
      !f.parameters.contains name && f.parameters.eraseDups.length == f.parameters.length &&
        f.body.leavesProperly { inFunction := true }) &&
    p.rules.all (fun r => r.2.leavesProperly { inRule := true }) &&
    (p.before ++ p.after).all (·.leavesProperly {}) &&
    p.calls.all fun (name, count) =>
      (p.functions.lookup name).any fun f => count ≤ f.parameters.length

/-- Is there anything to do with records? -/
def readsRecords (p : Program) : Bool :=
  !p.rules.isEmpty || !p.after.isEmpty

end Program

end ParseBench.Records
