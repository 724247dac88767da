/-
  ParseBench.Host.Utility.Intake

  Reading a stream line by line. More is read at once than is used, as programs do;
  what was not used in the end is given back to a stream that knows its place, and
  is lost to others else.
-/

import ParseBench.Host.Utility.Basic

namespace ParseBench.Utility

/-- What is read of a stream. -/
structure Intake where
  stream : Nat
  /-- What has been read and not used. -/
  rest : List Char := []
  /-- Has the end of the stream been reached? -/
  isOver : Bool := false
  deriving Inhabited

/-- The first line of a text with its end, if it has one, and what follows it. -/
def cutLine? (lineEnd : Char) : List Char → Option (List Char × List Char)
  | [] => none
  | c :: rest =>
    if c = lineEnd then some ([c], rest)
    else (cutLine? lineEnd rest).map fun r => (c :: r.1, r.2)

/-- A line without its end, and whether it had one. -/
def withoutEnd (line : List Char) : List Char × Bool :=
  if line.getLast? = some '\n' then (line.dropLast, true) else (line, false)

namespace Intake

/-- Reads what there is. -/
def more (i : Intake) : Act Intake := do
  if i.isOver then return i
  match ← Act.readStream? i.stream ByteArray.size with
  | some bytes =>
    if bytes.isEmpty then return { i with isOver := true }
    else return { i with rest := i.rest ++ (Raw.ofBytes bytes).toList }
  | none => return { i with isOver := true }

/-- The next line up to a character that ends it. The last one may have no end. -/
def lineUpTo? (lineEnd : Char) : (bound : Nat) → Intake → Act (Option (List Char) × Intake)
  | 0, i => return (none, i)
  | bound + 1, i => do
    match cutLine? lineEnd i.rest with
    | some (line, rest) => return (some line, { i with rest })
    | none =>
      let i ← i.more
      if !i.isOver then lineUpTo? lineEnd bound i
      else if i.rest.isEmpty then return (none, i)
      else return (some i.rest, { i with rest := [] })

/-- The next line with its end, if it has one. -/
def line? (bound : Nat) (i : Intake) : Act (Option (List Char) × Intake) :=
  lineUpTo? '\n' bound i

/-- Does something follow? -/
def goesOn (i : Intake) : Act (Bool × Intake) := do
  if !i.rest.isEmpty then return (true, i)
  let i ← i.more
  return (!i.rest.isEmpty, i)

/-- Gives back what was not used. -/
def giveBack (i : Intake) : Act Unit :=
  Act.giveBack i.stream i.rest.length

end Intake

/-! ## Going through lines -/

/-- Goes through the lines of a stream with a state, as long as a step goes on. A step is
    given a line with its end. -/
def foldLines {σ : Type} (step : σ → List Char → Act (σ × Bool)) :
    (bound : Nat) → σ → Intake → Act (σ × Intake)
  | 0, s, i => return (s, i)
  | bound + 1, s, i => do
    match ← i.line? Act.patience with
    | (none, i) => return (s, i)
    | (some line, i) =>
      let (s, goesOn) ← step s line
      if goesOn then foldLines step bound s i else return (s, i)

/-- What is to be written, back to front. It is written when there is enough of it. -/
structure Outgoing where
  text : List Char := []
  size : Nat := 0
  deriving Inhabited

namespace Outgoing

/-- The size from which on it is written. -/
def limit : Nat := 4096

/-- Writes what there is. -/
def flush (o : Outgoing) : Act Outgoing := do
  Act.print (String.ofList o.text.reverse)
  return {}

/-- Adds a text. -/
def add (o : Outgoing) (s : List Char) : Act Outgoing := do
  let o : Outgoing := ⟨s.reverse ++ o.text, o.size + s.length⟩
  if limit ≤ o.size then o.flush else return o

end Outgoing

/-- Goes through the lines of files or of the input, each without its end, and writes what
    becomes of them. A line that has no end gets one only if it `closes`. Yields the status
    of reading. -/
def changeLines {σ : Type} (name : String) (closes : Bool) (files : List String) (state : σ)
    (change : σ → List Char → σ × Option (List Char)) : Act Nat := do
  let step (s : σ × Outgoing) (line : List Char) : Act ((σ × Outgoing) × Bool) := do
    let (line, ended) := withoutEnd line
    let (state, changed) := change s.1 line
    match changed with
    | none => return ((state, s.2), true)
    | some text =>
      let out ← s.2.add (if ended || closes then text ++ ['\n'] else text)
      return ((state, out), true)
  let (last, status) ← (if files.isEmpty then ["-"] else files).foldlM (fun (s, status) file => do
    match ← source? name file with
    | none => return (s, 1)
    | some id =>
      let (s, _) ← foldLines step Act.patience s { stream := id }
      close id
      return (s, status)) ((state, ({} : Outgoing)), 0)
  let _ ← last.2.flush
  return status

/-- Goes through what files or the input hold, part by part as it comes. Yields the status of
    reading. -/
def forParts (name : String) (files : List String) (body : Nat → ByteArray → Act Unit) : Act Nat :=
  forEach (if files.isEmpty then ["-"] else files) fun file => do
    match ← source? name file with
    | none => return 1
    | some id =>
      parts id Act.patience
      close id
      return 0
where
  /-- Goes through what a stream holds. -/
  parts (id : Nat) : (bound : Nat) → Act Unit
    | 0 => return ()
    | bound + 1 => do
      match ← Act.readStream? id ByteArray.size with
      | some bytes =>
        if bytes.isEmpty then return ()
        else
          body id bytes
          parts id bound
      | none => return ()

end ParseBench.Utility
