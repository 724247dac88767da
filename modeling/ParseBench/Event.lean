/-
  ParseBench.Event

  What a run reports about itself while it works: messages with a level.
-/

namespace ParseBench

/-- How much attention a message deserves, the most severe first. -/
inductive Level where
  | error
  | warn
  | info
  | debug
  | trace
  deriving DecidableEq, Repr

namespace Level

/-- The position of a level: the smaller, the more severe. -/
def rank : Level → Nat
  | error => 0
  | warn => 1
  | info => 2
  | debug => 3
  | trace => 4

/-- The name of a level in a report. -/
def label : Level → String
  | error => "ERROR"
  | warn => "WARN"
  | info => "INFO"
  | debug => "DEBUG"
  | trace => "TRACE"

end Level

/-- One message of a report. -/
structure Event where
  level : Level
  message : String
  deriving DecidableEq, Repr

/-- The line of a report that shows the event. -/
def Event.line (e : Event) : String :=
  e.level.label ++ " " ++ e.message

/-- The events that are at least as severe as `level`, in order. -/
def Event.select (level : Level) (events : List Event) : List Event :=
  events.filter fun e => e.level.rank ≤ level.rank

end ParseBench
