/-
  ParseBench.Host.Course

  What is left to do for a process, up to the next point at which it waits for
  something or begins another process. Only there can others take their turn, so
  between two such points a process has the machine for itself.
-/

import ParseBench.Host.Machine

namespace ParseBench

/-- What a process can wait for. -/
inductive Awaited where
  /-- For nothing that will happen. -/
  | never
  /-- For something to read, or for the end of what can be read. -/
  | readable (stream : Nat)
  /-- For room to write. -/
  | writable (stream : Nat)
  /-- For the end of all of some processes. -/
  | ended (processes : List Nat)
  /-- For a pipe that has a name to be opened once more for writing, or else for reading, than so
      many times. -/
  | met (pipe : Nat) (forWriting : Bool) (times : Nat)
  deriving DecidableEq, Repr, Inhabited

/-- What ends the waiting of a process. -/
structure Wait where
  event : Awaited := .never
  /-- A time at which the waiting is over in any case. -/
  deadline : Option Nat := none
  /-- Does a signal that is caught end it, too? -/
  interruptible : Bool := false
  deriving DecidableEq, Repr, Inhabited

/-- What is left to do for a process. -/
inductive Course where
  | ended (ending : Ending) (m : Machine)
  | waits (w : Wait) (m : Machine) (next : Machine → Course)
  /-- Begins another process, which the machine knows already. -/
  | begins (number : Nat) (child : Machine → Course) (m : Machine) (next : Machine → Course)

/-- What a process does in one turn, with a state of its own: it yields a value, ends, or does
    something that others take part in. -/
inductive Turn (σ α : Type) where
  | done (value : α) (state : σ)
  | ended (ending : Ending) (m : Machine)
  | waits (w : Wait) (m : Machine) (next : Machine → Turn σ α)
  | begins (number : Nat) (child : Machine → Course) (m : Machine) (next : Machine → Turn σ α)

namespace Turn

variable {σ τ α β : Type}

/-- Goes on with what was yielded. -/
def bind (t : Turn σ α) (f : α → σ → Turn τ β) : Turn τ β :=
  match t with
  | done a s => f a s
  | ended e m => ended e m
  | waits w m next => waits w m fun m => (next m).bind f
  | begins n child m next => begins n child m fun m => (next m).bind f

/-- What is left to do if the process ends with what it yields. -/
def course (machine : σ → Machine) : Turn σ Ending → Course
  | done e s => .ended e (machine s)
  | ended e m => .ended e m
  | waits w m next => .waits w m fun m => (next m).course machine
  | begins n child m next => .begins n child m fun m => (next m).course machine

end Turn

/-- What a process does with a state of its own. -/
def Task (σ α : Type) : Type :=
  σ → Turn σ α

namespace Task

variable {σ τ α β : Type}

/-- Goes on with what a task yields. -/
@[inline]
def bind (t : Task σ α) (f : α → Task σ β) : Task σ β := fun s =>
  match t s with
  -- most tasks yield something at once
  | .done a s => f a s
  | o => o.bind f

instance : Monad (Task σ) where
  pure a := fun s => .done a s
  bind := Task.bind

instance : MonadStateOf σ (Task σ) where
  get := fun s => .done s s
  set s := fun _ => .done () s
  modifyGet f := fun s => match f s with | (a, s) => .done a s

/-- Does something with a part of the state. -/
@[inline]
def within (part : σ → τ) (put : σ → τ → σ) (t : Task τ α) : Task σ α := fun s =>
  match t (part s) with
  | .done a p => .done a (put s p)
  | o => o.bind fun a p => .done a (put s p)

end Task

end ParseBench
