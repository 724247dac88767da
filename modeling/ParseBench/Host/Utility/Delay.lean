/-
  ParseBench.Host.Utility.Delay

  Spans of time as programs read them, and programs that wait for them.
-/

import ParseBench.Host.Fraction
import ParseBench.Host.Utility.Starter

namespace ParseBench.Utility

/-- A span of time: millionths of a second, or without end. -/
inductive Span where
  | finite (time : Nat)
  | endless
  deriving DecidableEq, Repr, Inhabited

namespace Span

/-- The seconds of a unit by its letter. No letter means seconds. -/
def unit? : List Char → Option Nat
  | [] | ['s'] => some 1
  | ['m'] => some 60
  | ['h'] => some 3600
  | ['d'] => some 86400
  | _ => none

/-- Reads a span: a fraction and perhaps a unit. Every span has a millionth of a second at
    least, unless it is nothing. -/
def ofText? (s : String) : Option Span :=
  let word := String.ofList (s.toList.map Char.toLower)
  if word = "inf" || word = "infinity" then some .endless
  else do
    let digits := match s.toList with
      | '+' :: rest => rest
      | cs => cs
    let (x, rest) ← Fraction.ofText? digits
    let seconds ← unit? rest
    let micros := x.numerator * seconds * 1000000
    some (.finite ((micros + x.denominator - 1) / x.denominator))

/-- One span after another. -/
def add : Span → Span → Span
  | finite a, finite b => finite (a + b)
  | _, _ => endless

/-- The end of a span that begins at a time. -/
def after? (start : Nat) : Span → Option Nat
  | finite time => some (start + time)
  | endless => none

end Span

/-- Waits for some time. -/
def sleep : Utility :=
  withOptions "sleep" ⟨"", "", [], false⟩ 1 fun o => do
    if o.operands.isEmpty then
      Act.complain "sleep: missing operand\nTry 'sleep --help' for more information."
      return 1
    let wrong := o.operands.filter fun s => (Span.ofText? s).isNone
    if !wrong.isEmpty then
      for s in wrong do Act.complain ("sleep: invalid time interval '" ++ s ++ "'")
      Act.complain "Try 'sleep --help' for more information."
      return 1
    let span := (o.operands.filterMap Span.ofText?).foldl Span.add (.finite 0)
    Act.pause { deadline := span.after? (← get).machine.clock }
    return 0

/-! ## Limits -/

/-- What a limit on the time of a program says. -/
structure TimeLimit where
  span : Span
  signal : Nat := Signal.usual
  /-- The time after the signal at which the program is killed. -/
  killAfter : Option Span := none
  /-- Does the status stay that of the program in any case? -/
  keepsStatus : Bool := false
  /-- Does the program stay in the group that it is in? -/
  foreground : Bool := false
  verbose : Bool := false
  deriving Repr, Inhabited

/-- The status of a program whose time was over. -/
def overtimeStatus : Nat := 124

/-- The signal that a number or a name stands for, which may have its common beginning. -/
def signalOf? (s : String) : Option Nat :=
  let name := s.map Char.toUpper
  Signal.ofText? ((Text.dropLead? "SIG" name).getD name)

/-- Reads the options of a limit and its span. Else it says what is wrong. -/
def TimeLimit.read? (o : Options) (span : String) : Except String TimeLimit := do
  let spanOf (s : String) : Except String Span :=
    match Span.ofText? s with
    | some span => .ok span
    | none => .error ("timeout: invalid time interval '" ++ s ++ "'")
  let killAfter ← (o.value? 'k').mapM spanOf
  let signal ←
    match o.value? 's' with
    | none => .ok Signal.usual
    | some s =>
      match signalOf? s with
      | some n => .ok n
      | none => .error ("timeout: '" ++ s ++ "': invalid signal")
  let span ← spanOf span
  return ⟨span, signal, killAfter, o.has 'p', o.has 'f', o.has 'v'⟩

/-- Sends a signal to a program whose time is over, and to all that it has begun. -/
def TimeLimit.stop (limit : TimeLimit) (name : String) (number signal : Nat) : Act Unit := do
  if limit.verbose then
    Act.complain ("timeout: sending signal " ++ Signal.name signal ++ " to command '" ++ name ++ "'")
  let _ ← Act.send (·.send? number signal)
  if !limit.foreground then
    if signal ≠ 9 then modify (·.ignoring [signal])
    let group := (← get).group
    let _ ← Act.send (·.sendGroup? group signal)
    -- one that was stopped has to go on to get it
    if signal ≠ 9 && signal ≠ 18 then
      let _ ← Act.send (·.sendGroup? group 18)

/-- Waits for the end of a program up to a time: how it ended, if it did. -/
def endedUntil (number : Nat) (deadline : Option Nat) : Act (Option Ending) := do
  Act.pause { event := .ended [number], deadline }
  let m := (← get).machine
  if m.isRunning number then return none
  else return some (((m.process? number).bind (·.ending)).getD (.exit 0))

/-- Waits for the end of a program and sees to it that there is one: how it ended, and whether
    its time was over. -/
def TimeLimit.watch (limit : TimeLimit) (name : String) (number : Nat) : Act (Ending × Bool) := do
  let start := (← get).machine.clock
  let deadline : Option Nat := if limit.span = .finite 0 then none else limit.span.after? start
  match ← endedUntil number deadline with
  | some ending => return (ending, false)
  | none =>
    limit.stop name number limit.signal
    let now := (← get).machine.clock
    let deadline := limit.killAfter.bind (·.after? now)
    match ← endedUntil number deadline with
    | some ending => return (ending, true)
    | none =>
      limit.stop name number 9
      return ((← endedUntil number none).getD (.killed 9), true)

/-- Runs a program with a limit on its time. -/
def timeout : Starter := fun launch args => do
  let options : OptionTable :=
    { plain := "vfp", valued := "ks", mixed := false
      long := [("foreground", 'f'), ("preserve-status", 'p'), ("verbose", 'v'), ("kill-after", 'k'),
        ("signal", 's')] }
  let refused (message : String) : Act Ending := do
    misuse "timeout" message
    return .exit 125
  match options.read args with
  | .error fault => refused fault.message
  | .ok o =>
    match o.operands with
    | span :: name :: args =>
      match TimeLimit.read? o span with
      | .error message => refused message
      | .ok limit =>
        if !limit.foreground then modify fun p => { p with group := p.number }
        let number ← Act.begin id (becomeProgram launch "timeout" name args)
        let (ending, isOver) ← limit.watch name number
        modify fun p => { p with machine := p.machine.forget [number] }
        match ending, isOver with
        | .exit status, false => return .exit status
        | .killed signal, false => Act.finish (.killed signal)
        | ending, true =>
          let isForced := ending = .killed 9
          return .exit (if limit.keepsStatus || isForced then ending.status else overtimeStatus)
    | _ => refused "missing operand"

end ParseBench.Utility
