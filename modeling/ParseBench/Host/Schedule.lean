/-
  ParseBench.Host.Schedule

  The processes of a machine taking turns. All that are ready go on before time
  goes on, in the order in which they came to wait; when nobody is ready, time goes
  on to the next point at which somebody is.
-/

import ParseBench.Host.Course

namespace ParseBench

/-- A process that waits, and what is left to do for it after that. -/
structure Sleeper where
  number : Nat
  wait : Wait
  next : Machine → Course

/-- A machine and the processes that wait on it. -/
structure Schedule where
  machine : Machine
  sleepers : List Sleeper := []

namespace Sleeper

/-- Has what a process waits for happened? -/
def isOver (m : Machine) (s : Sleeper) : Bool :=
  match s.wait.event with
  | .never => false
  | .readable id => m.isReadable id
  | .writable id => m.isWritable id
  | .ended numbers => numbers.all fun n => !m.isRunning n
  | .met pipe forWriting times =>
    m.namedPipes.any fun q =>
      q.number == pipe && times < (if forWriting then q.writers else q.readers)

/-- Does the process not wait any more now? One that was stopped does not go on. -/
def isReady (m : Machine) (s : Sleeper) : Bool :=
  match m.process? s.number with
  | some r =>
    !r.stopped && (s.isOver m || s.wait.deadline.any (· ≤ m.clock) ||
      (s.wait.interruptible && !r.pending.isEmpty))
  | none => false

/-- The time at which the process goes on in any case, if there is one. -/
def wakes? (m : Machine) (s : Sleeper) : Option Nat :=
  match m.process? s.number with
  | some r => if r.stopped then none else s.wait.deadline
  | none => none

/-- The time from which on some of the processes can go on, as far as it is known. -/
def soonest? (m : Machine) (sleepers : List Sleeper) : Option Nat :=
  if sleepers.any (isReady m) then some m.clock
  else
    sleepers.foldl (fun best s =>
      match best, s.wakes? m with
      | some a, some b => some (min a b)
      | best, none => best
      | none, wakes => wakes) none

end Sleeper

namespace Schedule

/-- The time after which a process that was begun does something. -/
def childDelay : Nat := 150

/-- The time that it takes to begin a process. -/
def parentDelay : Nat := 60

/-- The first process that is ready, and the others. -/
def ready? (m : Machine) : List Sleeper → Option (Sleeper × List Sleeper)
  | [] => none
  | s :: rest =>
    if s.isReady m then some (s, rest)
    else (ready? m rest).map fun r => (r.1, s :: r.2)

/-- A process goes on until it waits again. -/
def advance (m : Machine) (s : Sleeper) (others : List Sleeper) : Schedule :=
  match s.next { m with alarm := Sleeper.soonest? m others } with
  | .ended e m => ⟨m.finish s.number e, others⟩
  | .waits w m next => ⟨m, others ++ [⟨s.number, w, next⟩]⟩
  | .begins number child m next =>
    let after (time : Nat) : Wait := { deadline := some (m.clock + time) }
    ⟨m, others ++ [⟨number, after childDelay, child⟩, ⟨s.number, after parentDelay, next⟩]⟩

/-- One process goes on, unless that would be after a time. -/
def step? (limit : Option Nat) (s : Schedule) : Option Schedule :=
  -- whoever was killed has nothing left to do
  let sleepers := s.sleepers.filter fun t => s.machine.isRunning t.number
  match Sleeper.soonest? s.machine sleepers with
  | none => none
  | some time =>
    if limit.any (· < time) then none
    else
      let m := { s.machine with clock := max s.machine.clock time }
      (ready? m sleepers).map fun (t, others) => advance m t others

/-- Goes on until a process has ended, or until nobody can go on. -/
def runTo (number : Nat) : (bound : Nat) → Schedule → Schedule
  | 0, s => s
  | bound + 1, s =>
    if !s.machine.isRunning number then s
    else
      match s.step? none with
      | some t => runTo number bound t
      | none => s

/-- Goes on up to a time. -/
def runUntil (limit : Nat) : (bound : Nat) → Schedule → Schedule
  | 0, s => s
  | bound + 1, s =>
    match s.step? (some limit) with
    | some t => runUntil limit bound t
    | none => { s with machine := { s.machine with clock := max s.machine.clock limit } }

end Schedule

end ParseBench
