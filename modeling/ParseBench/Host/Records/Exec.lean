/-
  ParseBench.Host.Records.Exec

  Running programs that go through records. Every function takes a bound on its depth
  first, which the rounds of loops use up, too.
-/

import ParseBench.Host.Records.Engine
import ParseBench.Host.Records.Reading
import ParseBench.Host.Utility.Calendar
import ParseBench.Host.Utility.Starter

namespace ParseBench.Records

open Utility (Regex Intake Starter Moment)

/-- How something is left before its end. -/
inductive Leave where
  | next
  | nextFile
  | exit
  | break
  | continue
  | return (value : Value)
  /-- Something is wrong that ends the program. -/
  | fault
  deriving Repr, Inhabited

/-- What a program does. -/
abbrev Exec : Type → Type :=
  ExceptT Leave (Task Engine)

namespace Exec

/-- Lets the process do something. -/
def act {α : Type} (a : Act α) : Exec α :=
  ExceptT.lift (Task.within Engine.process (fun e process => { e with process }) a)

/-- Performs something and catches how it is left. -/
def caught {α : Type} (action : Exec α) : Exec (Except Leave α) :=
  ExceptT.mk do return .ok (← action.run)

/-- The status of a program in which something is wrong. -/
def faultStatus : Nat := 2

/-- Something is wrong. -/
def fail {α : Type} (message : String) : Exec α := do
  act (Act.complain ("awk: " ++ message))
  modify fun e => { e with status := faultStatus }
  throw .fault

/-- Ends a program where its bound is reached. -/
def giveUp {α : Type} : Exec α :=
  act (Act.finish (.killed 9))

/-- The engine after a step that may fail because of an expression to match. -/
def step {α : Type} (f : Engine → Option (α × Engine)) : Exec α := do
  match f (← get) with
  | some (a, e) =>
    set e
    return a
  | none => fail "regular expression compile failed"

/-! ## Output -/

/-- Writes what is kept of the standard output. -/
def flushOutput : Exec Unit := do
  let e ← get
  if !e.output.isEmpty then
    set { e with output := [] }
    act (Act.print (String.join e.output.reverse))

/-- The engine with an open stream put by its name. -/
def putOutflow (name : String) (o : Outflow) : Exec Unit :=
  modify fun e => { e with outflows := e.outflows.map fun f => if f.1 = name then (name, o) else f }

/-- Writes what is kept of a stream. -/
def flushOutflow (name : String) : Exec Unit := do
  match (← get).outflows.lookup name with
  | none => return ()
  | some o =>
    if !o.kept.isEmpty then
      putOutflow name { o with kept := [] }
      let _ ← act (Act.writeStream o.stream Act.patience (Raw.toBytes (String.join o.kept.reverse)))

/-- Writes all that is kept. -/
def flushAll : Exec Unit := do
  flushOutput
  for (name, _) in (← get).outflows do flushOutflow name

/-- The length of the parts of a text. -/
def keptLength (parts : List String) : Nat :=
  (parts.map String.length).foldr (· + ·) 0

/-- The length from which on what is kept is written. -/
def keptLimit : Nat := 4096

/-- Begins a shell that runs a command, in a process of its own that is changed first. -/
def beginCommand (launch : Launcher) (command : String) (change : Process → Process) : Exec Nat :=
  act <| Act.begin change do
    match ← launch shellPath ["-c", command] with
    | .ok ending => return ending
    | .error _ => return .exit missingStatus

/-- Opens a pipe, both ends of which are kept open. -/
def openPipe : Exec (Nat × Nat) := do
  let e ← get
  let ((reader, writer), machine) := e.process.machine.openPipe
  set { e with process := ({ e.process with machine }.hold reader).hold writer }
  return (reader, writer)

/-- Closes a stream that was kept open. -/
def release (id : Nat) : Exec Unit :=
  modify fun e => { e with process := e.process.release id }

/-- The names of the standard output. -/
def standardNames : List String := ["-", "/dev/stdout"]

/-- Writes a text to the standard output. -/
def print (s : String) : Exec Unit := do
  modify fun e => { e with output := s :: e.output }
  if keptLimit ≤ keptLength (← get).output then flushOutput

/-- Writes a text to where a statement says. -/
def printTo (launch : Launcher) (outlet : Outlet) (target s : String) : Exec Unit := do
  if outlet ≠ .command && standardNames.contains target then print s
  else if outlet ≠ .command && target = "/dev/stderr" then
    let _ ← act (Act.writeTo 2 (Raw.toBytes s))
  else
    let o ←
      match (← get).outflows.lookup target with
      | some o => pure o
      | none =>
        let o ←
          if outlet = .command then
            flushAll
            let (reader, writer) ← openPipe
            let number ← beginCommand launch target (·.attach 0 reader)
            release reader
            pure ({ stream := writer, reader := some number } : Outflow)
          else
            match ← act (Act.openPath target (if outlet = .append then .append else .replace)) with
            | .ok id =>
              modify fun e => { e with process := e.process.hold id }
              pure { stream := id }
            | .error r => fail ("cannot open \"" ++ target ++ "\" for output (" ++ r.reason ++ ")")
        modify fun e => { e with outflows := e.outflows ++ [(target, o)] }
        pure o
    putOutflow target { o with kept := s :: o.kept }
    if keptLimit ≤ keptLength (s :: o.kept) then flushOutflow target

/-- The number that an ending is answered by. -/
def endingNumber : Ending → Nat
  | .exit status => status
  | .killed signal => 256 + signal

/-- Closes a stream that is written, and waits for who reads it. -/
def closeOutflow (name : String) : Exec Nat := do
  match (← get).outflows.lookup name with
  | none => return 0
  | some o =>
    flushOutflow name
    modify fun e => { e with outflows := e.outflows.filter (·.1 ≠ name) }
    release o.stream
    match o.reader with
    | none => return 0
    | some number =>
      let endings ← act (Act.await [number])
      return (endings.head?.map endingNumber).getD 0

/-! ## Input -/

/-- Reads all that there is. -/
def readWhole : (bound : Nat) → Intake → Act Intake
  | 0, i => return i
  | bound + 1, i => do
    let i ← i.more
    if i.isOver then return i else readWhole bound i

/-- The lines up to an empty one. `lines` holds those so far, back to front. -/
def paragraph : (bound : Nat) → (lines : List (List Char)) → Intake → Act (List (List Char) × Intake)
  | 0, lines, i => return (lines, i)
  | bound + 1, lines, i => do
    match ← i.line? Act.patience with
    | (none, i) => return (lines, i)
    | (some line, i) =>
      let bare := (Utility.withoutEnd line).1
      if !bare.isEmpty then paragraph bound (bare :: lines) i
      else if lines.isEmpty then paragraph bound lines i
      else return (lines, i)

/-- The next record of a stream, and what was read and not used. -/
def record? (rs : String) (r : Option Regex) (i : Intake) : Act (Option String × Intake) := do
  match rs.toList, r with
  | [], _ =>
    let (lines, i) ← paragraph Act.patience [] i
    if lines.isEmpty then return (none, i)
    return (some (Text.join "\n" (lines.reverse.map String.ofList)), i)
  | [c], _ =>
    let (line?, i) ← i.lineUpTo? c Act.patience
    return (line?.map fun l => String.ofList (if l.getLast? = some c then l.dropLast else l), i)
  | _, none => return (none, i)
  | _, some r =>
    let i ← readWhole Act.patience i
    if i.rest.isEmpty then return (none, i)
    match r.find? false [] i.rest with
    | some (start, stop) =>
      if stop.passed = 0 then return (some (String.ofList i.rest), { i with rest := [] })
      let text := i.rest.take (i.rest.length - start.after.length)
      return (some (String.ofList text), { i with rest := stop.after })
    | none => return (some (String.ofList i.rest), { i with rest := [] })

/-- The next record of a stream by its name. -/
def nextOf (name : String) : Exec (Option String) := do
  match (← get).inflows.lookup name with
  | none => return none
  | some f =>
    let rs := (← get).globalText "RS"
    let r ← if rs.length ≤ 1 then pure none else some <$> step (·.expression? rs)
    let (record, intake) ← act (record? rs r f.intake)
    modify fun e =>
      { e with inflows := e.inflows.map fun g => if g.1 = name then (name, { f with intake }) else g }
    return record

/-- Opens a file or the input under a name. Says whether that was possible. -/
def openInflow (name path : String) : Exec (Except Refusal Unit) := do
  let p := (← get).process
  let opened : Except Refusal Nat ←
    if path = "-" || path = "/dev/stdin" then
      pure (match p.streams.lookup 0 with
        | some id => .ok id
        | none => .error .missing)
    else act (Act.openPath path .read)
  match opened with
  | .error r => return .error r
  | .ok id =>
    if ((← get).process.machine.rest? id 0).isNone then return .error .directory
    modify fun e => { e with
      process := e.process.hold id
      inflows := e.inflows ++ [(name, { intake := { stream := id } })] }
    return .ok ()

/-- Opens the output of a command under its own name. -/
def openCommand (launch : Launcher) (command : String) : Exec Unit := do
  flushAll
  let (reader, writer) ← openPipe
  let number ← beginCommand launch command (·.attach 1 writer)
  release writer
  modify fun e => { e with
    inflows := e.inflows ++ [(command, { intake := { stream := reader }, writer := some number })] }

/-- Closes a stream that is read. -/
def closeInflow (name : String) : Exec Nat := do
  match (← get).inflows.lookup name with
  | none => return 0
  | some f =>
    modify fun e => { e with inflows := e.inflows.filter (·.1 ≠ name) }
    release f.intake.stream
    match f.writer with
    | none => return 0
    | some number =>
      let endings ← act (Act.await [number])
      return (endings.head?.map endingNumber).getD 0

/-! ## Variables -/

/-- Sets a variable. -/
def setVariable (name : String) (v : Value) : Exec Unit := do
  let e ← get
  match e.binding? name with
  | some (.table _) => fail ("type error in assignment to " ++ name)
  | _ =>
    if name = "NF" && (e.locals.lookup name).isNone then
      set (e.setFieldCount (max 0 v.toInt).toNat)
    else set (e.bind name (.scalar v))

/-- Sets the record. -/
def setRecord (s : String) : Exec Unit :=
  step fun e => (e.setRecord? s).map ((), ·)

/-- Counts a record. -/
def countRecord : Exec Unit :=
  modify fun e =>
    let next (name : String) : Value := .number ((e.global name).toNumber + 1)
    (e.setGlobal "NR" (next "NR")).setGlobal "FNR" (next "FNR")

/-- Assigns a variable as an operand says it. Says whether the operand does that. -/
def assignOperand (s : String) : Exec Bool := do
  let name := s.toList.takeWhile (· ≠ '=')
  let isName := (name.head?.map Token.beginsName).getD false &&
    name.all fun c => Token.beginsName c || c.isDigit
  if !isName || name.length = s.length then return false
  let value := s.toList.drop (name.length + 1)
  -- escapes are replaced as they are in quotes
  let guarded := value.flatMap fun c => if c = '"' then ['\\', '"'] else [c]
  let text := ((Token.quoted (guarded ++ ['"'])).map (·.1)).getD value
  setVariable (String.ofList name) (.ofInput (String.ofList text))
  return true

/-- The name that the stream of the records has. -/
def mainName : String := "\x00"

/-- The next record of the operands, or of the input if there are none. -/
def nextRecord : (bound : Nat) → Exec (Option String)
  | 0 => giveUp
  | bound + 1 => do
    let e ← get
    let opened (path : String) : Exec Unit := do
      match ← openInflow mainName path with
      | .ok () =>
        modify fun e => { (e.setGlobal "FILENAME" (.text (if path = "-" then "" else path))).setGlobal "FNR" (.number 0)
          with reading := some path, hasRead := true }
      | .error r => fail ("cannot open \"" ++ path ++ "\" (" ++ r.reason ++ ")")
    match e.reading with
    | some _ =>
      match ← nextOf mainName with
      | some s => return some s
      | none =>
        let _ ← closeInflow mainName
        modify fun e => { e with reading := none }
        nextRecord bound
    | none =>
      let count := (e.global "ARGC").toInt
      if (e.nextOperand : Int) < count then
        set { e with nextOperand := e.nextOperand + 1 }
        let (n, e) := (← get).tableNumber "ARGV"
        set e
        let operand := e.textOf (((e.tableOf n).entries.lookup (toString (e.nextOperand - 1))).getD .unset)
        if operand.isEmpty then nextRecord bound
        else if ← assignOperand operand then nextRecord bound
        else
          opened operand
          nextRecord bound
      else if e.hasRead then return none
      else
        opened "-"
        nextRecord bound

/-! ## Numbers -/

/-- What is left when a number is divided. -/
def remainder (x y : Float) : Float :=
  match wholePart? x, wholePart? y with
  | some a, some b =>
    if Float.ofInt a == x && Float.ofInt b == y && b ≠ 0 then Float.ofInt (a.tmod b)
    else
      let q := x / y
      x - y * (if q < 0 then q.ceil else q.floor)
  | some _, none => if y.isInf then x else 0.0 / 0.0
  | _, _ => 0.0 / 0.0

/-- The value of an operation. -/
def operate (operator : Operator) (x y : Float) : Float :=
  match operator with
  | .add => x + y
  | .subtract => x - y
  | .multiply => x * y
  | .divide => x / y
  | .remainder => remainder x y
  | .power => x ^ y

/-- The part of a text from a place on, of some length. Places are rounded. -/
def part (s : String) (first : Float) (length : Option Float) : String :=
  let rounded (x : Float) : Int := ((wholePart? (x + 0.5).floor).getD (if x < 0 then -0x4000000000000000 else 0x4000000000000000))
  let start := rounded first
  let stop : Int := match length with
    | some n => rounded (first + n)
    | none => 0x4000000000000000
  let from_ := max 1 start
  String.ofList ((s.toList.drop (from_ - 1).toNat).take (stop - from_).toNat)

/-- The place of a text in another one, from one on, or zero. -/
def placeOf (s t : List Char) : (place : Nat) → Nat
  | place =>
    match (List.range (s.length + 1)).find? fun i => (Text.after? t (s.drop i)).isSome with
    | some i => if t.isEmpty then 0 else place + i
    | none => 0

/-! ## Values -/

/-- The value of a name. -/
def valueOf (name : String) : Exec Value := do
  match (← get).binding? name with
  | some (.scalar v) => return v
  | some (.table _) => fail ("type error: " ++ name ++ " is a table")
  | _ => return .unset

/-- The table that a name stands for. -/
def tableNumber (name : String) : Exec Nat := do
  match (← get).binding? name with
  | some (.scalar v) =>
    match v with
    | .unset =>
      let e ← get
      let n := e.numbered
      set ({ e with numbered := n + 1 }.bind name (.table n))
      return n
    | _ => fail ("type error: " ++ name ++ " is no table")
  | _ =>
    let (n, e) := (← get).tableNumber name
    set e
    return n

/-- The key that subscripts make. -/
def keyOf (subscripts : List Value) : Exec (Bool × String) := do
  let e ← get
  match subscripts with
  | [v] => return e.keyOf v
  | vs => return (false, Text.join (e.globalText "SUBSEP") (vs.map e.textOf))

/-- The value in a table, which is there after that. -/
def elementOf (table : String) (subscripts : List Value) : Exec Value := do
  let n ← tableNumber table
  let (isNumber, key) ← keyOf subscripts
  let (found, t) := ((← get).tableOf n).find isNumber key
  match found with
  | some v =>
    modify (·.setTable n t)
    return v
  | none =>
    modify (·.setTable n (t.put isNumber key .unset))
    return .unset

/-- Sets a value in a table. -/
def setElement (table : String) (subscripts : List Value) (v : Value) : Exec Unit := do
  let n ← tableNumber table
  let (isNumber, key) ← keyOf subscripts
  modify fun e => e.setTable n ((e.tableOf n).put isNumber key v)

/-- Sets a field. -/
def setField (n : Int) (v : Value) : Exec Unit := do
  if n < 0 then fail "negative field index"
  else if n = 0 then setRecord ((← get).textOf v)
  else modify (·.setField n.toNat v)

/-- What stands for something that can be assigned to, once its own parts are known. -/
inductive Target where
  | variable (name : String)
  | field (place : Int)
  | element (table : String) (subscripts : List Value)
  deriving Repr, Inhabited

/-- Assigns. -/
def assign (t : Target) (v : Value) : Exec Unit :=
  match t with
  | .variable name => setVariable name v
  | .field n => setField n v
  | .element table subscripts => setElement table subscripts v

/-- The value that something has that can be assigned to. -/
def current (t : Target) : Exec Value := do
  match t with
  | .variable name => valueOf name
  | .field n =>
    if n < 0 then fail "negative field index" else return (← get).field n.toNat
  | .element table subscripts => elementOf table subscripts

/-- Puts values in a format, and says what is wrong with it. -/
def formatted (values : List Value) : Exec (String × Option FormatFault) := do
  let e ← get
  let format := e.textOf (values.headD .unset)
  let (s, fault) := filledIn e.textOf (format.length + 1) (values.drop 1) format.toList
  return (String.ofList s, fault)

/-- The text of a value that is printed. -/
def printedText (v : Value) : Exec String := do
  match v with
  | .number x => return Value.textOfNumber ((← get).globalText "OFMT") x
  | v => return (← get).textOf v

/-- A random number between zero and one. -/
def random : Exec Float := do
  let e ← get
  let n := (e.random * 1103515245 + 12345) % 0x80000000
  set { e with random := n }
  return Float.ofNat n / Float.ofNat 0x80000000

/-- A built in function of values alone. -/
def plainBuiltin (launch : Launcher) (name : String) (vs : List Value) : Exec Value := do
  let e ← get
  let x (i : Nat) : Float := (vs.getD i .unset).toNumber
  let s (i : Nat) : String := e.textOf (vs.getD i .unset)
  let number (y : Float) : Exec Value := return .number y
  match name with
  | "length" => return .ofNat (if vs.isEmpty then (e.textOf e.record).length else (s 0).length)
  | "substr" => return .text (part (s 0) (x 1) ((vs[2]?).map Value.toNumber))
  | "index" => return .ofNat (placeOf (s 0).toList (s 1).toList 1)
  | "sprintf" =>
    match ← formatted vs with
    | (s, none) => return .text s
    | (_, some fault) => fail (fault.message "sprintf")
  | "sin" => number (x 0).sin
  | "cos" => number (x 0).cos
  | "atan2" => number (Float.atan2 (x 0) (x 1))
  | "exp" => number (x 0).exp
  | "log" => number (x 0).log
  | "sqrt" => number (x 0).sqrt
  | "int" => number (if x 0 < 0 then (x 0).ceil else (x 0).floor)
  | "rand" => number (← random)
  | "srand" =>
    let new := if vs.isEmpty then Float.ofNat (e.process.machine.clock / 1000000) else x 0
    set { e with seed := new, random := (wordPart new).natAbs }
    number e.seed
  | "tolower" => return .text ((s 0).map Char.toLower)
  | "toupper" => return .text ((s 0).map Char.toUpper)
  | "system" =>
    flushAll
    let number ← beginCommand launch (s 0) id
    let endings ← act (Act.await [number])
    return .ofNat ((endings.head?.map endingNumber).getD 0)
  | "close" =>
    let name := s 0
    if (e.outflows.lookup name).isSome then return .ofNat (← closeOutflow name)
    else if (e.inflows.lookup name).isSome then return .ofNat (← closeInflow name)
    else number (-1)
  | "fflush" =>
    if vs.isEmpty then flushOutput
    else if standardNames.contains (s 0) then flushOutput
    else if (e.outflows.lookup (s 0)).isSome then flushOutflow (s 0)
    else return .number (-1)
    number 0
  | "systime" => number (Float.ofInt (Utility.clockStart + e.process.machine.clock / 1000000))
  | "strftime" =>
    let now : Int := Utility.clockStart + e.process.machine.clock / 1000000
    let moment : Moment := ⟨(match vs[1]? with | some v => wordPart v.toNumber | none => now), 0⟩
    return .text (moment.written (if vs.isEmpty then "%c" else s 0))
  | "mktime" =>
    match ((Text.splitOn ' ' (s 0)).filter (!·.isEmpty)).mapM Numeral.plain? with
    | some (year :: month :: day :: hour :: minute :: second :: _) =>
      let start : Utility.Day := ⟨year, month, 1⟩
      number (Float.ofInt ((start.number + day - 1) * 86400 + hour * 3600 + minute * 60 + second))
    | _ => number (-1)
  | _ => fail ("function " ++ name ++ " is not there")

mutual

/-- The value of an expression. -/
def eval (launch : Launcher) : (bound : Nat) → Expr → Exec Value
  | 0, _ => giveUp
  | bound + 1, e => do
    match e with
    | .number x => return .number x
    | .text s => return .text s
    | .regex source =>
      let s := (← get).textOf (← get).record
      let r ← step (·.expression? source)
      return .ofBool (r.isIn false s.toList)
    | .variable name => valueOf name
    | .field place =>
      let n := (← eval launch bound place).toInt
      if n < 0 then fail "negative field index" else return (← get).field n.toNat
    | .element table subscripts => elementOf table (← evalAll launch bound subscripts)
    | .assign operator target value =>
      match operator with
      | none =>
        let v ← eval launch bound value
        assign (← target? launch bound target) v
        return v
      | some operator =>
        let y ← eval launch bound value
        let t ← target? launch bound target
        let v := Value.number (operate operator (← current t).toNumber y.toNumber)
        assign t v
        return v
    | .step before change target =>
      let t ← target? launch bound target
      let old := (← current t).toNumber
      assign t (.number (old + change))
      return .number (if before then old + change else old)
    | .choice condition yes no =>
      if (← eval launch bound condition).isTrue then eval launch bound yes else eval launch bound no
    | .both left right =>
      if (← eval launch bound left).isTrue then return .ofBool (← eval launch bound right).isTrue
      else return .ofBool false
    | .either left right =>
      if (← eval launch bound left).isTrue then return .ofBool true
      else return .ofBool (← eval launch bound right).isTrue
    | .not e => return .ofBool (!(← eval launch bound e).isTrue)
    | .negative e => return .number (-(← eval launch bound e).toNumber)
    | .positive e => return .number (← eval launch bound e).toNumber
    | .operation operator left right =>
      let x ← eval launch bound left
      let y ← eval launch bound right
      return .number (operate operator x.toNumber y.toNumber)
    | .joined left right =>
      let a ← eval launch bound left
      let b ← eval launch bound right
      let e ← get
      return .text (e.textOf a ++ e.textOf b)
    | .compare how left right =>
      let a ← eval launch bound left
      let b ← eval launch bound right
      let format := (← get).numberFormat
      let less := Value.isLess format
      return .ofBool (match how with
        | .less => less a b
        | .more => less b a
        | .atMost => less a b || Value.isSame format a b
        | .atLeast => less b a || Value.isSame format a b
        | .same => Value.isSame format a b
        | .different => !Value.isSame format a b)
    | .isMatch negated left right =>
      let a ← eval launch bound left
      let r ← matcher launch bound right
      let found := r.isIn false ((← get).textOf a).toList
      return .ofBool (found ≠ negated)
    | .isIn subscripts table =>
      let vs ← evalAll launch bound subscripts
      let n ← tableNumber table
      let (isNumber, key) ← keyOf vs
      let (found, t) := ((← get).tableOf n).find isNumber key
      modify (·.setTable n t)
      return .ofBool found.isSome
    | .builtin name args => builtin launch bound name args
    | .call name args => callFunction launch bound name args
    | .readLine target =>
      match ← nextRecord bound with
      | none => return .number 0
      | some s =>
        countRecord
        taken launch bound target s
    | .readFile target path =>
      let name := (← get).textOf (← eval launch bound path)
      let isOpen ←
        if ((← get).inflows.lookup name).isSome then pure true
        else pure (match ← openInflow name name with | .ok () => true | .error _ => false)
      if !isOpen then return .number (-1)
      match ← nextOf name with
      | none => return .number 0
      | some s => taken launch bound target s
    | .readCommand target command =>
      let name := (← get).textOf (← eval launch bound command)
      if ((← get).inflows.lookup name).isNone then openCommand launch name
      match ← nextOf name with
      | none => return .number 0
      | some s => taken launch bound target s

/-- Puts what was read where it is wanted. -/
def taken (launch : Launcher) : (bound : Nat) → Option Expr → String → Exec Value
  | 0, _, _ => giveUp
  | bound + 1, target, s => do
    match target with
    | none => setRecord s
    | some target => assign (← target? launch bound target) (.ofInput s)
    return .number 1

/-- The values of expressions. -/
def evalAll (launch : Launcher) : (bound : Nat) → List Expr → Exec (List Value)
  | 0, _ => giveUp
  | _ + 1, [] => return []
  | bound + 1, e :: rest => do
    let v ← eval launch bound e
    return v :: (← evalAll launch bound rest)

/-- What can be assigned to. -/
def target? (launch : Launcher) : (bound : Nat) → Expr → Exec Target
  | 0, _ => giveUp
  | bound + 1, e => do
    match e with
    | .variable name => return .variable name
    | .field place => return .field (← eval launch bound place).toInt
    | .element table subscripts => return .element table (← evalAll launch bound subscripts)
    | _ => fail "nothing to assign to"

/-- The expression to match that a value is. -/
def matcher (launch : Launcher) : (bound : Nat) → Expr → Exec Regex
  | 0, _ => giveUp
  | bound + 1, e => do
    match e with
    | .regex source => step (·.expression? source)
    | e =>
      let source := (← get).textOf (← eval launch bound e)
      step (·.expression? source)

/-- The value of a built in function. -/
def builtin (launch : Launcher) : (bound : Nat) → String → List Expr → Exec Value
  | 0, _, _ => giveUp
  | bound + 1, name, args => do
    match name, args with
    | "length", [.variable table] =>
      match (← get).binding? table with
      | some (.table n) => return .ofNat ((← get).tableOf n).entries.length
      | some (.undecided n) => return .ofNat ((← get).tableOf n).entries.length
      | _ => plainBuiltin launch name [← valueOf table]
    | "split", s :: .variable table :: more =>
      let text := (← get).textOf (← eval launch bound s)
      let d ←
        match more with
        | .regex source :: _ => Engine.Divider.regex <$> step (·.expression? source)
        | divider :: _ =>
          let source := (← get).textOf (← eval launch bound divider)
          step (·.dividerOf? source)
        | [] =>
          let source := (← get).globalText "FS"
          step (·.dividerOf? source)
      let parts := (d.fields text).map Value.ofInput
      let n ← tableNumber table
      modify (·.setTable n (.ofValues parts))
      return .ofNat parts.length
    | "match", [s, pattern] =>
      let text := ((← get).textOf (← eval launch bound s)).toList
      let r ← matcher launch bound pattern
      let (start, length) : Nat × Float :=
        match r.find? false [] text with
        | some (start, stop) => (text.length - start.after.length + 1, Float.ofNat (stop.passed - start.passed))
        | none => (0, -1)
      setVariable "RSTART" (.ofNat start)
      setVariable "RLENGTH" (.number length)
      return .ofNat start
    | "sub", pattern :: new :: more | "gsub", pattern :: new :: more =>
      let r ← matcher launch bound pattern
      let new := ((← get).textOf (← eval launch bound new)).toList
      let t ← target? launch bound (more.headD (.field (.number 0)))
      let old := ((← get).textOf (← current t)).toList
      let (text, count) := Engine.replaced r new (name = "gsub") (old.length + 2) false [] old
      if 0 < count then assign t (.text (String.ofList text))
      return .ofNat count
    | name, args => plainBuiltin launch name (← evalAll launch bound args)

/-- What a parameter stands for in a function that is called. -/
def argument (launch : Launcher) : (bound : Nat) → Expr → Exec Binding
  | 0, _ => giveUp
  | bound + 1, e => do
    match e with
    | .variable name =>
      match (← get).binding? name with
      | some (.table n) => return .table n
      | some (.undecided n) => return .undecided n
      | some (.scalar .unset) | none =>
        let e ← get
        let n := e.numbered
        set ({ e with numbered := n + 1 }.bind name (.undecided n))
        return .undecided n
      | some (.scalar v) => return .scalar v
    | e => return .scalar (← eval launch bound e)

/-- What parameters stand for. -/
def arguments (launch : Launcher) : (bound : Nat) → List Expr → Exec (List Binding)
  | 0, _ => giveUp
  | _ + 1, [] => return []
  | bound + 1, e :: rest => do
    let b ← argument launch bound e
    return b :: (← arguments launch bound rest)

/-- Calls a function. -/
def callFunction (launch : Launcher) : (bound : Nat) → String → List Expr → Exec Value
  | 0, _, _ => giveUp
  | bound + 1, name, args => do
    match (← get).program.functions.lookup name with
    | none => fail ("function " ++ name ++ " never defined")
    | some f =>
      let given ← arguments launch bound args
      let before := (← get).locals
      let locals := f.parameters.zipIdx.map fun (p, i) => (p, given.getD i (.scalar .unset))
      modify fun e => { e with locals }
      let result ← caught (exec launch bound f.body)
      modify fun e => { e with locals := before }
      match result with
      | .ok () => return .unset
      | .error (.return v) => return v
      | .error l => throw l

/-- Runs a statement. -/
def exec (launch : Launcher) : (bound : Nat) → Stmt → Exec Unit
  | 0, _ => giveUp
  | bound + 1, s => do
    match s with
    | .nothing => return ()
    | .block body => execAll launch bound body
    | .expr e =>
      let _ ← eval launch bound e
    | .print args outlet =>
      let vs ← if args.isEmpty then pure [(← get).record] else evalAll launch bound args
      let texts ← vs.mapM printedText
      let e ← get
      let line := Text.join (e.globalText "OFS") texts ++ e.globalText "ORS"
      match outlet with
      | none => print line
      | some (kind, target) => printTo launch kind (e.textOf (← eval launch bound target)) line
    | .format args outlet =>
      let (s, fault) ← formatted (← evalAll launch bound args)
      match outlet with
      | none => print s
      | some (kind, target) => printTo launch kind ((← get).textOf (← eval launch bound target)) s
      if let some fault := fault then fail (fault.message "printf")
    | .branch condition yes no =>
      if (← eval launch bound condition).isTrue then exec launch bound yes else exec launch bound no
    | .loop condition body => rounds launch bound condition body .nothing false
    | .loopAtLeastOnce body condition => rounds launch bound condition body .nothing true
    | .count first condition step body =>
      exec launch bound first
      rounds launch bound (condition.getD (.number 1)) body step false
    | .each name table body =>
      let n ← tableNumber table
      let (keys, t) := ((← get).tableOf n).keys
      modify (·.setTable n t)
      eachKey launch bound name keys body
    | .delete table subscripts =>
      let n ← tableNumber table
      if subscripts.isEmpty then modify (·.setTable n {})
      else
        let (isNumber, key) ← keyOf (← evalAll launch bound subscripts)
        modify fun e => e.setTable n ((e.tableOf n).erase isNumber key)
    | .next => throw .next
    | .nextFile => throw .nextFile
    | .exit status =>
      if let some e := status then
        let n := (← eval launch bound e).toInt
        modify fun e => { e with status := (n % 256).toNat }
      throw .exit
    | .return value =>
      let v ← match value with
        | some e => eval launch bound e
        | none => pure .unset
      throw (.return v)
    | .break => throw .break
    | .continue => throw .continue

/-- Runs statements. -/
def execAll (launch : Launcher) : (bound : Nat) → List Stmt → Exec Unit
  | 0, _ => giveUp
  | _ + 1, [] => return ()
  | bound + 1, s :: rest => do
    exec launch bound s
    execAll launch bound rest

/-- Runs the rounds of a loop. `entered` says that the condition does not count for the first. -/
def rounds (launch : Launcher) : (bound : Nat) → Expr → (body step : Stmt) → (entered : Bool) →
    Exec Unit
  | 0, _, _, _, _ => giveUp
  | bound + 1, condition, body, step, entered => do
    let goesOn ← if entered then pure true else Value.isTrue <$> eval launch bound condition
    if goesOn then
      match ← caught (exec launch bound body) with
      | .ok () | .error .continue =>
        exec launch bound step
        rounds launch bound condition body step false
      | .error .break => return ()
      | .error l => throw l

/-- Runs a body for each key. -/
def eachKey (launch : Launcher) : (bound : Nat) → String → List String → Stmt → Exec Unit
  | 0, _, _, _ => giveUp
  | _ + 1, _, [], _ => return ()
  | bound + 1, name, key :: rest, body => do
    setVariable name (.text key)
    match ← caught (exec launch bound body) with
    | .ok () | .error .continue => eachKey launch bound name rest body
    | .error .break => return ()
    | .error l => throw l

end

/-! ## Programs -/

/-- Does a rule choose the record? A rule between two records is known by its place. -/
def chooses (launch : Launcher) (bound place : Nat) : Choice → Exec Bool
  | .every => return true
  | .where_ condition => Value.isTrue <$> eval launch bound condition
  | .between first last => do
    let isRunning := (← get).running.contains place
    let begins ← if isRunning then pure true else Value.isTrue <$> eval launch bound first
    if !begins then return false
    let stops := (← eval launch bound last).isTrue
    modify fun e => { e with
      running := if stops then e.running.filter (· ≠ place)
        else if isRunning then e.running else place :: e.running }
    return true

/-- Runs the rules for the record. -/
def applyRules (launch : Launcher) (bound : Nat) : List (Nat × Choice × Stmt) → Exec Unit
  | [] => return ()
  | (place, choice, body) :: rest => do
    if ← chooses launch bound place choice then exec launch bound body
    applyRules launch bound rest

/-- Goes through the records. -/
def goThrough (launch : Launcher) (rules : List (Nat × Choice × Stmt)) : (bound : Nat) → Exec Unit
  | 0 => giveUp
  | bound + 1 => do
    match ← nextRecord bound with
    | none => return ()
    | some s =>
      countRecord
      setRecord s
      match ← caught (applyRules launch bound rules) with
      | .ok () | .error .next => goThrough launch rules bound
      | .error .nextFile =>
        let _ ← closeInflow mainName
        modify fun e => { e with reading := none }
        goThrough launch rules bound
      | .error l => throw l

/-- Does all that a program does, and closes what is open in the end. -/
def runProgram (launch : Launcher) (bound : Nat) (p : Program) : Exec Ending := do
  let rules := p.rules.zipIdx.map fun (r, i) => (i, r.1, r.2)
  let started ← caught do
    execAll launch bound p.before
    if p.readsRecords then goThrough launch rules bound
  let ended ←
    match started with
    | .ok () | .error .exit => caught (execAll launch bound p.after)
    | .error l => pure (.error l)
  let _ := ended
  -- who reads what was written has read it before the rest is written
  for (name, o) in (← get).outflows do
    if o.reader.isSome then let _ ← closeOutflow name
  flushAll
  return .exit ((← get).status % 256)

end Exec

/-- The bound on what a program does. -/
def maxSteps : Nat := 1000000000

/-- The engine at its beginning. -/
def Engine.start (p : Process) (program : Program) (operands : List String) : Engine :=
  let scalars : List (String × Value) := [
    ("FS", .text " "), ("OFS", .text " "), ("ORS", .text "\n"), ("RS", .text "\n"), ("NF", .number 0),
    ("NR", .number 0), ("FNR", .number 0), ("SUBSEP", .text "\x1c"), ("CONVFMT", .text "%.6g"),
    ("OFMT", .text "%.6g"), ("RSTART", .number 0), ("RLENGTH", .number (-1)), ("FILENAME", .text ""),
    ("ARGC", .ofNat (operands.length + 1))]
  let args : Table :=
    { entries := (("awk" :: operands).zipIdx.map fun (s, i) => (toString i, Value.ofInput s)).reverse }
  let environment : Table :=
    { entries := p.environment.reverse.map fun (name, s) => (name, Value.ofInput s), isNumbered := false }
  { process := p
    program
    globals := (scalars.map fun (name, v) => (name, .scalar v)) ++ [("ARGV", .table 0), ("ENVIRON", .table 1)]
    tables := [(0, args), (1, environment)]
    numbered := 2 }

/-- What is asked for by arguments: the texts of the program, what divides fields, and the
    variables that are set before. -/
structure Call where
  text : Option String := none
  files : List String := []
  divider : Option String := none
  settings : List String := []
  operands : List String := []
  deriving Repr, Inhabited

/-- Reads arguments. -/
def Call.read? (c : Call) : List String → Option Call
  | [] => some c
  | "--" :: rest => some { c with operands := rest }
  | "-F" :: value :: rest => read? { c with divider := some value } rest
  | "-v" :: value :: rest => read? { c with settings := c.settings ++ [value] } rest
  | "-f" :: value :: rest => read? { c with files := c.files ++ [value] } rest
  | "-W" :: _ :: rest => read? c rest
  | arg :: rest =>
    match arg.toList with
    | '-' :: 'F' :: c1 :: value => read? { c with divider := some (String.ofList (c1 :: value)) } rest
    | '-' :: 'v' :: c1 :: value => read? { c with settings := c.settings ++ [String.ofList (c1 :: value)] } rest
    | '-' :: 'f' :: c1 :: value => read? { c with files := c.files ++ [String.ofList (c1 :: value)] } rest
    | ['-'] => some { c with operands := arg :: rest }
    | '-' :: _ => none
    | _ => some { c with operands := arg :: rest }

/-- Runs a program that goes through records. -/
def program : Starter := fun launch args => do
  let refuse (message : String) : Act Ending := do
    Act.complain ("awk: " ++ message)
    return .exit Exec.faultStatus
  match Call.read? {} args with
  | none => refuse ("not an option: " ++ ((args.find? (Text.startsWith · "-")).getD ""))
  | some c =>
    let texts ← c.files.mapM fun path => Act.readFile (if path = "-" then "/dev/stdin" else path)
    match (c.files.zip texts).find? fun e => !e.2.isOk with
    | some (path, _) => refuse ("cannot open " ++ path ++ " (No such file or directory)")
    | none =>
      let (text?, operands) : Option String × List String :=
        if c.files.isEmpty then (c.operands.head?, c.operands.drop 1)
        else (some (Text.join "\n" (texts.filterMap Except.toOption)), c.operands)
      match text? with
      | none => refuse "usage: awk [-F value] [-v var=value] [--] 'program text' [file ...]"
      | some text =>
        match Program.ofText? text with
        | none => refuse "line 1: syntax error"
        | some p =>
          fun process =>
            let body : Exec Ending := do
              for setting in c.settings do
                let _ ← Exec.assignOperand setting
              if let some divider := c.divider then
                let _ ← Exec.assignOperand ("FS=" ++ divider)
                -- what divides fields is a text, whatever it looks like
                modify fun (e : Engine) => e.setGlobal "FS" (.text (e.globalText "FS"))
              Exec.runProgram launch maxSteps p
            (ExceptT.run body (Engine.start process p operands)).bind fun result e =>
              match result with
              | .ok ending => .done ending e.process
              | .error _ => .done (.exit Exec.faultStatus) e.process

end ParseBench.Records
