/-
  ParseBench.Host.Signal

  Signals: their names and numbers, and what they do to who does not expect them.
-/

import ParseBench.Host.Numeral

namespace ParseBench.Signal

/-- The names of signals with their numbers. The end of a shell counts as signal zero. -/
def names : List (String × Nat) := [
  ("EXIT", 0), ("HUP", 1), ("INT", 2), ("QUIT", 3), ("ILL", 4), ("TRAP", 5), ("ABRT", 6),
  ("BUS", 7), ("FPE", 8), ("KILL", 9), ("USR1", 10), ("SEGV", 11), ("USR2", 12), ("PIPE", 13),
  ("ALRM", 14), ("TERM", 15), ("CHLD", 17), ("CONT", 18), ("STOP", 19), ("TSTP", 20),
  ("TTIN", 21), ("TTOU", 22), ("URG", 23), ("XCPU", 24), ("XFSZ", 25), ("VTALRM", 26),
  ("PROF", 27), ("WINCH", 28), ("IO", 29), ("PWR", 30), ("SYS", 31), ("RTMIN", 34),
  ("RTMIN+1", 35), ("RTMIN+2", 36), ("RTMIN+3", 37), ("RTMIN+4", 38), ("RTMIN+5", 39),
  ("RTMIN+6", 40), ("RTMIN+7", 41), ("RTMIN+8", 42), ("RTMIN+9", 43), ("RTMIN+10", 44),
  ("RTMIN+11", 45), ("RTMIN+12", 46), ("RTMIN+13", 47), ("RTMIN+14", 48), ("RTMIN+15", 49),
  ("RTMAX-14", 50), ("RTMAX-13", 51), ("RTMAX-12", 52), ("RTMAX-11", 53), ("RTMAX-10", 54),
  ("RTMAX-9", 55), ("RTMAX-8", 56), ("RTMAX-7", 57), ("RTMAX-6", 58), ("RTMAX-5", 59),
  ("RTMAX-4", 60), ("RTMAX-3", 61), ("RTMAX-2", 62), ("RTMAX-1", 63), ("RTMAX", 64)]

/-- The greatest number of a signal. -/
def last : Nat := 64

/-- What a list of jobs says about who was killed by a signal. -/
def description (n : Nat) : String :=
  match n with
  | 1 => "Hangup"
  | 2 => "Interrupt"
  | 3 => "Quit"
  | 6 => "Aborted"
  | 9 => "Killed"
  | 10 => "User defined signal 1"
  | 11 => "Segmentation fault"
  | 12 => "User defined signal 2"
  | 13 => "Broken pipe"
  | 14 => "Alarm clock"
  | 15 => "Terminated"
  | n => "Signal " ++ toString n

/-- The signal that a number or a name stands for. -/
def ofText? (s : String) : Option Nat :=
  match Numeral.plain? s with
  | some n => if n ≤ last then some n else none
  | none => names.lookup (s.map Char.toUpper)

/-- The name of a signal. -/
def name (n : Nat) : String :=
  match names.find? (·.2 == n) with
  | some (s, _) => s
  | none => toString n

/-- The signal that a process gets when one ends that it has begun. -/
def child : Nat := 17

/-- The signal of who writes what nobody reads. -/
def brokenPipe : Nat := 13

/-- The signal that is sent if no other one is said. -/
def usual : Nat := 15

/-- Does the signal do nothing unless it is expected? -/
def isHarmless (n : Nat) : Bool :=
  [0, 17, 18, 23, 28].contains n

/-- Does the signal stop a process that does not expect it? -/
def stops (n : Nat) : Bool :=
  [19, 20, 21, 22].contains n

end ParseBench.Signal
