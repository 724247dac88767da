/-
  ParseBench.Host.Utility.Editor

  Editing the lines of a text by a script. One line at a time is kept, and there is
  a place where text is held for later.
-/

import ParseBench.Host.Utility.EditScript
import ParseBench.Host.Utility.Intake
import ParseBench.Host.Utility.Names

namespace ParseBench.Utility

namespace Editor

/-- What is written after a line. -/
inductive Appendix where
  | text (t : List Char)
  | file (path : String)
  deriving Repr, Inhabited

/-- A file that lines are written to. -/
structure Sink where
  stream : Nat
  /-- Was the last line written without its end? -/
  isCut : Bool := false
  deriving Repr, Inhabited

/-- How a script is used. -/
structure Manner where
  script : EditScript
  quiet : Bool := false
  /-- Is each file a text of its own? -/
  separate : Bool := false
  /-- What ends a line. -/
  lineEnd : Char := '\n'
  /-- The width at which a listed line is broken. -/
  width : Nat := 70
  /-- Do the files get what becomes of them? Then what the old ones are called is said. -/
  inPlace : Option String := none
  deriving Inhabited

/-- The state of editing. -/
structure Editing where
  /-- The line with what has become of it. -/
  space : List Char := []
  /-- Had the line no end? -/
  isCut : Bool := false
  held : List Char := []
  number : Nat := 0
  /-- Has something been replaced since the line was read? -/
  replaced : Bool := false
  /-- The ranges that are open, by the places of their steps, with their last lines if these
      are known. -/
  opened : List (Nat × Option Nat) := []
  sought : Option Sought := none
  appendices : List Appendix := []
  intake : Option Intake := none
  file : String := "-"
  files : List String
  /-- The files that lines are taken from one by one. -/
  sources : List (String × Intake) := []
  out : Outgoing := {}
  /-- Does the output lack the end of its last line? -/
  owesEnd : Bool := false
  sinks : List (String × Sink) := []
  status : Nat := 0
  deriving Inhabited

/-- Editing. -/
abbrev Edit := StateT Editing Act

/-- How the processing of a line goes on. -/
inductive Outcome where
  /-- The line is done. -/
  | done
  /-- The line is done, and not written. -/
  | dropped
  /-- The rest of the line is taken for the next one. -/
  | again
  | quit (status : Nat) (silently : Bool)
  deriving DecidableEq, Repr, Inhabited

/-! ## Writing -/

/-- Writes text to the output. -/
def put (m : Manner) (t : List Char) : Edit Unit := do
  let e ← get
  let t := if e.owesEnd then m.lineEnd :: t else t
  if m.inPlace.isSome then
    set { e with out := { e.out with text := t.reverse ++ e.out.text }, owesEnd := false }
  else
    let out ← e.out.add t
    set { e with out, owesEnd := false }

/-- Writes a line to the output. The end of a line that had none is only written if something
    follows. -/
def putLine (m : Manner) (line : List Char) : Edit Unit := do
  let isCut := (← get).isCut
  put m (if isCut then line else line ++ [m.lineEnd])
  modify fun e => { e with owesEnd := isCut }

/-- Writes a line to a file that has been opened. -/
def putTo (m : Manner) (path : String) (line : List Char) : Edit Unit := do
  if path = "/dev/stdout" then putLine m line
  else
    let e ← get
    match e.sinks.lookup path with
    | none => return ()
    | some sink =>
      let text := (if sink.isCut then [m.lineEnd] else []) ++ line ++
        (if e.isCut then [] else [m.lineEnd])
      let _ ← (Act.writeStream sink.stream Act.patience (Raw.toBytes (String.ofList text)) : Act Bool)
      set { e with
        sinks := (path, { sink with isCut := e.isCut }) :: e.sinks.filter (·.1 ≠ path) }

/-- Writes what comes after the line. -/
def putAppendices (m : Manner) : Edit Unit := do
  let all := (← get).appendices
  if all.isEmpty then return ()
  modify fun e => { e with appendices := [] }
  for a in all do
    match a with
    | .text t => put m t
    | .file path =>
      match ← (Act.readFile path : Act (Except Refusal String)) with
      | .ok text => put m text.toList
      | .error _ => pure ()

/-! ## Reading -/

/-- The path under which a file is kept before it is replaced. A star in the suffix stands for its
    name. -/
def keptPath (suffix path : String) : String :=
  let name := lastName path
  let kept := if suffix.contains '*' then suffix.replace "*" name else name ++ suffix
  if kept.toList.contains '/' || !path.toList.contains '/' then kept
  else inDirectory (parentPath path) kept

/-- Replaces a file by what has become of it. The name is that of another file then. -/
def finishFile (m : Manner) : Edit Unit := do
  match m.inPlace with
  | none => return ()
  | some suffix =>
    let e ← get
    let new := Raw.toBytes (String.ofList e.out.text.reverse)
    set { e with out := {}, owesEnd := false }
    let p ← (MonadState.get : Act Process)
    let files := p.machine.files
    let executable : Bool :=
      match p.find e.file with
      | .ok (.file f) => f.executable
      | _ => false
    match p.locateName e.file, p.locateName (keptPath suffix e.file) with
    | .ok l, .ok k =>
      let files :=
        match files.get? l with
        | some old => if suffix.isEmpty then files else files.put k old
        | none => files
      (Act.setFiles (files.addFile l new executable) : Act Unit)
    | _, _ => pure ()

/-- Closes the file that is read. What is left of it is given back. -/
def closeFile (m : Manner) : Edit Unit := do
  let e ← get
  match e.intake with
  | none => return ()
  | some i =>
    set { e with intake := none }
    i.giveBack
    close i.stream
    finishFile m

/-- Opens the next file, if there is one. -/
def openNext (m : Manner) : Edit Bool := do
  let e ← get
  match e.files with
  | [] => return false
  | file :: files =>
    let e := { e with file, files }
    set e
    let p ← (MonadState.get : Act Process)
    if m.inPlace.isSome && p.isDirectory file then
      Act.complain ("sed: couldn't edit " ++ file ++ ": not a regular file")
      set { e with status := 4, files := [] }
      return true
    match ← (source? "sed" file : Act (Option Nat)) with
    | some id =>
      let restarts := m.separate || m.inPlace.isSome
      set { e with
        intake := some { stream := id }
        number := if restarts then 0 else e.number
        opened := if restarts then [] else e.opened }
    | none =>
      -- a directory can be opened, and reading it fails for good
      if p.isDirectory file then set { e with status := 4, files := [] }
      else set { e with status := max e.status 2 }
    return true

/-- Is there nothing to read any more? This looks into files that follow. -/
def isAtEnd (m : Manner) : (bound : Nat) → Edit Bool
  | 0 => return true
  | bound + 1 => do
    let e ← get
    match e.intake with
    | some i =>
      let (goesOn, i) ← (i.goesOn : Act (Bool × Intake))
      modify fun e => { e with intake := some i }
      if goesOn then return false
      else if m.separate || m.inPlace.isSome || e.files.isEmpty then return true
      else
        closeFile m
        isAtEnd m bound
    | none => if ← openNext m then isAtEnd m bound else return true

/-- Reads the next line, if there is one. -/
def line? (m : Manner) : (bound : Nat) → Edit (Option (List Char))
  | 0 => return none
  | bound + 1 => do
    match (← get).intake with
    | some i =>
      match ← (Intake.lineUpTo? m.lineEnd Act.patience i : Act (Option (List Char) × Intake)) with
      | (some line, i) =>
        let isCut := line.getLast? ≠ some m.lineEnd
        modify fun e => { e with intake := some i, isCut, number := e.number + 1, replaced := false }
        return some (if isCut then line else line.dropLast)
      | (none, i) =>
        modify fun e => { e with intake := some i }
        closeFile m
        line? m bound
    | none => if ← openNext m then line? m bound else return none

/-- Takes the next line. Without one nothing changes. -/
def takeLine (m : Manner) (change : List Char → List Char → List Char) : Edit Bool := do
  putAppendices m
  match ← line? m Act.patience with
  | none => return false
  | some line =>
    modify fun e => { e with space := change e.space line }
    return true

/-- The next line of a file that is read besides. -/
def sourceLine? (path : String) : Edit (Option (List Char)) := do
  let e ← get
  let intake : Option Intake ←
    match e.sources.lookup path with
    | some i => pure (some i)
    | none => do
      match ← (Act.openPath path .read : Act (Except Refusal Nat)) with
      | .ok id =>
        (modify (·.hold id) : Act Unit)
        pure (some { stream := id })
      | .error _ => pure none
  match intake with
  | none => return none
  | some i =>
    let (line, i) ← (i.line? Act.patience : Act (Option (List Char) × Intake))
    set { e with sources := (path, i) :: e.sources.filter (·.1 ≠ path) }
    return line

/-! ## Addresses -/

/-- Looks for something in the line. -/
def seeks (s : Option Sought) : Edit Bool := do
  let e ← get
  match s.or e.sought with
  | none => return false
  | some s =>
    set { e with sought := some s }
    return s.regex.isIn s.anyCase e.space

/-- Does an address mean the line? -/
def isAt (m : Manner) : Address → Edit Bool
  | .line n => return (← get).number = n
  | .every first step =>
    return let n := (← get).number
      if step = 0 then n = first else first ≤ n && (n - first) % step = 0
  | .last => isAtEnd m Act.patience
  | .matching s => seeks s

/-- Closes the range of a step. -/
def closeRange (place : Nat) : Edit Unit :=
  modify fun e => { e with opened := e.opened.filter (·.1 ≠ place) }

/-- Opens the range of a step with its last line, if it goes on after this line. -/
def openRange (place : Nat) (last : Option Nat) : Edit Unit :=
  modify fun e =>
    if last.all (e.number < ·) then { e with opened := (place, last) :: e.opened } else e

/-- Is the line in the range of a step? The end is looked for after the first line only. -/
def isInRange (m : Manner) (place : Nat) (first : Address) (stop : RangeEnd) : Edit Bool := do
  let e ← get
  match e.opened.lookup place with
  | some (some last) =>
    if last ≤ e.number then closeRange place
    -- lines may have been skipped
    if last < e.number then return ← isAt m first
    return true
  | some none =>
    match stop with
    | .at a => if ← isAt m a then closeRange place
    | _ => pure ()
    return true
  | none =>
    if !(← isAt m first) then return false
    match stop with
    | .at (.line n) => openRange place (some n)
    | .at _ => openRange place none
    | .further n => openRange place (some (e.number + n))
    | .multiple n =>
      openRange place (some (if n = 0 then e.number else (e.number + n - 1) / n * n))
    return true

/-- Is a step for the line? -/
def isFor (m : Manner) (place : Nat) (s : Step) : Edit Bool := do
  let applies ←
    match s.first, s.second with
    | none, _ => pure true
    | some a, none => isAt m a
    | some a, some stop => isInRange m place a stop
  return applies != s.negated

/-! ## Replacing -/

/-- How the next letters are written: all of them, and the first of them. -/
structure Case where
  all : Casing := .asIs
  next : Casing := .asIs

/-- The text in a case. -/
def Case.apply (c : Case) (t : List Char) : List Char :=
  let t :=
    match c.all with
    | .upper => t.map Char.toUpper
    | .lower => t.map Char.toLower
    | _ => t
  match c.next, t with
  | .nextUpper, h :: t => h.toUpper :: t
  | .nextLower, h :: t => h.toLower :: t
  | _, t => t

/-- What takes the place of a match. -/
def filled (whole : List Char) (groups : List (Nat × List Char)) : Case → List Replacement → List Char
  | _, [] => []
  | c, .casing d :: rest =>
    let c : Case :=
      match d with
      | .nextUpper | .nextLower => { c with next := d }
      | d => { c with all := d }
    filled whole groups c rest
  | c, .text t :: rest => add c [t] rest
  | c, .group 0 :: rest => add c whole rest
  | c, .group n :: rest => add c ((groups.lookup n).getD []) rest
where
  /-- Adds a piece of text. -/
  add (c : Case) (t : List Char) (rest : List Replacement) : List Char :=
    c.apply t ++ filled whole groups (if t.isEmpty then c else { c with next := .asIs }) rest

/-- Replaces matches in what is left of a text, of which so many are left as they are first.
    `isFresh` says that no match ends here: an empty one right after another does not count.
    Nothing is yielded if there is no match that counts. -/
def substitute? (s : Substitution) (t : Sought) : (bound : Nat) → (skipped : Nat) → (isFresh : Bool) →
    (before rest : List Char) → Option (List Char)
  | 0, _, _, _, _ => none
  | bound + 1, skipped, isFresh, before, rest =>
    match t.regex.find? t.anyCase before rest with
    | none => none
    | some (start, stop) =>
      let passed := rest.take (rest.length - start.after.length)
      let taken := start.after.take (start.after.length - stop.after.length)
      let step (skipped : Nat) (new : List Char) : Option (List Char) :=
        if !taken.isEmpty then
          (substitute? s t bound skipped false stop.before stop.after).map (passed ++ new ++ ·)
        else
          match stop.after with
          | c :: later =>
            (substitute? s t bound skipped true (c :: stop.before) later).map (passed ++ new ++ c :: ·)
          | [] => none
      if taken.isEmpty && passed.isEmpty && !isFresh then step skipped []
      else if 0 < skipped then step (skipped - 1) taken
      else
        let new := filled taken stop.groups {} s.replacement
        let alone := passed ++ new ++ stop.after
        some (if s.all then (step 0 new).getD alone else alone)

/-! ## Listing -/

/-- A character as it is listed. -/
def listed (c : Char) : List Char :=
  match c with
  | '\\' => ['\\', '\\']
  | '\x07' => ['\\', 'a']
  | '\x08' => ['\\', 'b']
  | '\x0c' => ['\\', 'f']
  | '\n' => ['\\', 'n']
  | '\r' => ['\\', 'r']
  | '\t' => ['\\', 't']
  | '\x0b' => ['\\', 'v']
  | c =>
    if 32 ≤ c.toNat && c.toNat ≤ 126 then [c]
    else '\\' :: [c.toNat / 64, c.toNat / 8 % 8, c.toNat % 8].map Nat.digitChar

/-- A text as it is listed, broken before a width. -/
def listing (width : Nat) (t : List Char) : List Char :=
  let (out, _) := t.foldl (fun (out, column) c =>
    let s := listed c
    if 0 < width && width - 1 < column + s.length then (s.reverse ++ '\n' :: '\\' :: out, s.length)
    else (s.reverse ++ out, column + s.length)) (([] : List Char), 0)
  ('$' :: out).reverse

/-! ## Performing -/

/-- Replaces matches in the line. -/
def performSubstitution (m : Manner) (s : Substitution) : Edit Unit := do
  let e ← get
  match s.sought.or e.sought with
  | none => return ()
  | some t =>
    set { e with sought := some t }
    match substitute? s t (e.space.length + 2) (s.first - 1) true [] e.space with
    | none => return ()
    | some space =>
      modify fun e => { e with space, replaced := true }
      if s.prints then putLine m space
      match s.file with
      | some path => putTo m path space
      | none => pure ()

/-- The first of the lines that have been put together, and what follows it. -/
def firstLine (m : Manner) (space : List Char) : List Char × Option (List Char) :=
  match space.dropWhile (· ≠ m.lineEnd) with
  | _ :: rest => (space.takeWhile (· ≠ m.lineEnd), some rest)
  | [] => (space, none)

/-- Puts something off until the line is written. -/
def append (a : Appendix) : Edit Unit :=
  modify fun e => { e with appendices := e.appendices ++ [a] }

/-- Goes to a label, if a condition holds. -/
def jumpIf (m : Manner) (place : Nat) (b : Bool) (label : String) : Except Outcome Nat :=
  .ok (if b then m.script.target label else place + 1)

/-- Performs a step that is for the line. Yields the place of the next one, or how it goes on. -/
def perform (m : Manner) (place : Nat) (s : Step) : Edit (Except Outcome Nat) := do
  let e ← get
  let next : Except Outcome Nat := .ok (place + 1)
  match s.deed with
  | .opening | .closing | .nothing => return next
  | .substitute t =>
    performSubstitution m t
    return next
  | .exchange pairs =>
    set { e with space := e.space.map fun c => (pairs.lookup c).getD c }
    return next
  | .print =>
    putLine m e.space
    return next
  | .printFirst =>
    put m ((firstLine m e.space).1 ++ [m.lineEnd])
    return next
  | .list width =>
    put m (listing (width.getD m.width) e.space ++ ['\n'])
    return next
  | .number =>
    put m ((toString e.number).toList ++ ['\n'])
    return next
  | .fileName =>
    put m (e.file.toList ++ [m.lineEnd])
    return next
  | .delete => return .error .dropped
  | .deleteFirst =>
    match (firstLine m e.space).2 with
    | some rest =>
      set { e with space := rest }
      return .error .again
    | none => return .error .dropped
  | .empty =>
    set { e with space := [] }
    return next
  | .next =>
    if ← isAtEnd m Act.patience then return .error .done
    if !m.quiet then putLine m e.space
    if ← takeLine m fun _ line => line then return next else return .error .dropped
  | .join =>
    if ← isAtEnd m Act.patience then return .error .done
    if ← takeLine m fun space line => space ++ m.lineEnd :: line then return next
    else return .error .done
  | .keep =>
    set { e with held := e.space }
    return next
  | .keepMore =>
    set { e with held := e.held ++ m.lineEnd :: e.space }
    return next
  | .recall =>
    set { e with space := e.held }
    return next
  | .recallMore =>
    set { e with space := e.space ++ m.lineEnd :: e.held }
    return next
  | .swap =>
    set { e with space := e.held, held := e.space }
    return next
  | .before t =>
    put m t
    return next
  | .after t =>
    append (.text t)
    return next
  | .instead t =>
    -- a range is replaced as a whole
    if s.negated || s.second.isNone || (e.opened.lookup place).isNone then put m t
    return .error .dropped
  | .insertFile path =>
    append (.file path)
    return next
  | .insertLine path =>
    match ← sourceLine? path with
    | some line => append (.text ((withoutEnd line).1 ++ [m.lineEnd]))
    | none => pure ()
    return next
  | .write path =>
    putTo m path e.space
    return next
  | .writeFirst path =>
    putTo m path (firstLine m e.space).1
    return next
  | .jump label => return jumpIf m place true label
  | .jumpIfReplaced label =>
    set { e with replaced := false }
    return jumpIf m place e.replaced label
  | .jumpUnlessReplaced label =>
    set { e with replaced := false }
    return jumpIf m place (!e.replaced) label
  | .quit status => return .error (.quit status false)
  | .quitSilently status => return .error (.quit status true)

/-- Performs the steps from a place on, at most `bound` of them. -/
def performFrom (m : Manner) : (bound : Nat) → (place : Nat) → Edit Outcome
  | 0, _ => return .done
  | bound + 1, place => do
    match m.script.steps[place]? with
    | none => return .done
    | some s =>
      if ← isFor m place s then
        match ← perform m place s with
        | .ok next => performFrom m bound next
        | .error o => return o
      else
        match s.deed with
        | .opening => performFrom m bound (m.script.afterBlock place)
        | _ => performFrom m bound (place + 1)

/-- Goes through the lines. Yields the status. -/
def run (m : Manner) : (bound : Nat) → (reads : Bool) → Edit Nat
  | 0, _ => return 0
  | bound + 1, reads => do
    let goesOn ← if reads then takeLine m fun _ line => line else pure true
    if !goesOn then return (← get).status
    match ← performFrom m Act.patience 0 with
    | .quit status silently =>
      if !silently then
        if !m.quiet then putLine m (← get).space
        putAppendices m
      closeFile m
      let failed := (← get).status
      return if failed = 0 then status else failed
    | .done =>
      if !m.quiet then putLine m (← get).space
      run m bound true
    | .dropped => run m bound true
    | .again =>
      putAppendices m
      run m bound false

/-- Opens the files that lines are written to. -/
def openSinks (paths : List String) : Act (List (String × Sink)) :=
  paths.eraseDups.foldlM (fun sinks path => do
    match ← Act.openPath path .replace with
    | .ok id =>
      modify (·.hold id)
      return (path, { stream := id }) :: sinks
    | .error _ => return sinks) []

/-- The ranges that are open from the beginning: those that begin before the first line. -/
def openedAtFirst (script : EditScript) : List (Nat × Option Nat) :=
  script.steps.toList.zipIdx.filterMap fun (s, place) =>
    match s.first, s.second with
    | some (.line 0), some _ => some (place, none)
    | _, _ => none

/-- Edits files or the input. -/
def editFiles (m : Manner) (files : List String) : Act Nat := do
  let paths := m.script.writtenFiles.filter (· ≠ "/dev/stdout")
  let start : Editing := {
    files := if files.isEmpty then ["-"] else files
    opened := openedAtFirst m.script
    sinks := ← openSinks paths }
  let (status, e) ← (run m Act.patience true).run start
  let _ ← e.out.flush
  e.sinks.forM fun s => close s.2.stream
  return status

/-- Where a script comes from. -/
inductive Origin where
  | argument
  | file (path : String)
  deriving Repr, Inhabited

/-- Where in a script of several parts what is wrong was found. -/
def faultPlace (parts : List (Origin × String)) (read : Nat) : String :=
  let rec go (expression : Nat) (read : Nat) : List (Origin × String) → String
    | [] => ""
    | (origin, text) :: rest =>
      if read ≤ text.length || rest.isEmpty then
        match origin with
        | .argument => "-e expression #" ++ toString expression ++ ", char " ++ toString read ++ ": "
        | .file path =>
          let line := (text.toList.take read).count '\n' + 1
          "file " ++ path ++ " line " ++ toString line ++ ": "
      else
        let isArgument : Bool := match origin with | .argument => true | _ => false
        go (if isArgument then expression + 1 else expression) (read - text.length - 1) rest
  go 1 read parts

/-- The script of its parts, or what is wrong with it in words and the status then. -/
def scriptOf (extended : Bool) (parts : List (Origin × String)) : Except (String × Nat) EditScript :=
  let text := Text.join "\n" (parts.map Prod.snd)
  match EditScript.ofText extended text with
  | .error ⟨message, rest⟩ =>
    -- the signs of a class are looked at before all else
    if message = Regex.Fault.unbracketedClass.message then .error (message, 4)
    else
      let read := (rest.map fun r => text.length - r.length).getD 0
      .error (faultPlace parts read ++ message, 1)
  | .ok script =>
    match script.targets.find? fun l => (script.labels.lookup l).isNone with
    | some l => .error ("can't find label for jump to \x60" ++ l ++ "'", 4)
    | none => .ok script

/-- The suffix for old files in arguments, if files get what becomes of them, and the other
    arguments. -/
def inPlaceSuffix : List String → Option String × List String
  | [] => (none, [])
  | "--" :: rest => (none, "--" :: rest)
  | arg :: rest =>
    let (suffix, others) := inPlaceSuffix rest
    match Text.dropLead? "--in-place" arg with
    | some s => (suffix.or (some (String.ofList (s.toList.drop 1))), others)
    | none =>
      match arg.toList with
      | '-' :: c :: letters =>
        let plain := (c :: letters).takeWhile "nErsuz".toList.contains
        match (c :: letters).drop plain.length with
        | 'i' :: s =>
          (suffix.or (some (String.ofList s)),
            if plain.isEmpty then others else String.ofList ('-' :: plain) :: others)
        | _ => (suffix, arg :: others)
      | _ => (suffix, arg :: others)

end Editor

open Editor in
/-- Edits texts by a script. -/
def edit : Utility := fun args => do
  let (inPlace, args) := inPlaceSuffix args
  withOptions "sed" ⟨"nErsuz", "efl", [("quiet", 'n'), ("silent", 'n'), ("regexp-extended", 'E'),
    ("expression", 'e'), ("file", 'f'), ("separate", 's'), ("unbuffered", 'u'), ("null-data", 'z'),
    ("line-length", 'l'), ("posix", 'u')], true⟩ 1 (fun o => do
    let given := o.flags.filter fun f => f.1 == 'e' || f.1 == 'f'
    for (c, path) in given do
      if c = 'f' then
        match ← Act.readFile path with
        | .ok _ => pure ()
        | .error r =>
          Act.complain ("sed: couldn't open file " ++ path ++ ": " ++ r.reason)
          return 4
    let parts ← given.mapM fun (c, s) => do
      if c = 'e' then return (Origin.argument, s)
      let text := ((← Act.readFile s).toOption).getD ""
      let text := if text.endsWith "\n" then String.ofList text.toList.dropLast else text
      return (.file s, text)
    let (parts, files) : List (Origin × String) × List String :=
      if given.isEmpty then ((o.operands.take 1).map (.argument, ·), o.operands.drop 1)
      else (parts, o.operands)
    if parts.isEmpty then
      Act.complain "Usage: sed [OPTION]... \x7bscript-only-if-no-other-script\x7d [input-file]..."
      return 1
    match scriptOf (o.has 'E' || o.has 'r') parts with
    | .error (message, status) =>
      Act.complain ("sed: " ++ message)
      return status
    | .ok script =>
      let isSilenced := ((parts.head?.map Prod.snd).getD "").toList.take 3 = ['#', 'n', '\n']
      let m : Manner := {
        script, inPlace
        quiet := o.has 'n' || isSilenced
        separate := o.has 's' || inPlace.isSome
        lineEnd := if o.has 'z' then '\x00' else '\n'
        width := ((o.value? 'l').bind Numeral.plain?).getD 70 }
      editFiles m files) args

end ParseBench.Utility
