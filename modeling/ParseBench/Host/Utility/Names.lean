/-
  ParseBench.Host.Utility.Names

  Utilities that take paths apart, and that say where paths and links lead.
-/

import ParseBench.Host.Utility.Basic

namespace ParseBench.Utility

/-! ## Parts of paths -/

/-- The last name on a path, without the slashes after it. -/
def lastName (path : String) : String :=
  let path := Process.withoutSlashes path
  if path.toList.all (· == '/') then (if path.isEmpty then "" else "/")
  else String.ofList ((Text.splitWhere (· == '/') path.toList).getLast?.getD [])

/-- What stands before the last name on a path. -/
def parentPath (path : String) : String :=
  let path := Process.withoutSlashes path
  match Text.beforeLast? '/' path.toList with
  | none => if path.toList.all (· == '/') && !path.isEmpty then "/" else "."
  | some front =>
    let front := Process.withoutSlashes (String.ofList front)
    if front.isEmpty || front.toList.all (· == '/') then "/" else front

/-- The path of a name in a directory. -/
def inDirectory (directory name : String) : String :=
  if directory.endsWith "/" then directory ++ name else directory ++ "/" ++ name

/-- Is a path the name of a link with a slash after it? -/
def isSlashedLink (p : Process) (path : String) : Bool :=
  Path.endsInSlash path && (p.nameNode? (Process.withoutSlashes path) matches some (.link _))

/-- Writes the last names on paths, perhaps without an end. -/
def basename : Utility :=
  withOptions "basename" ⟨"az", "s", [("suffix", 's'), ("multiple", 'a'), ("zero", 'z')], false⟩ 1 fun o => do
    let several := o.has 'a' || o.has 's'
    let paths := if several then o.operands else o.operands.take 1
    let tail := ((o.value? 's').orElse fun _ => if several then none else o.operands[1]?).getD ""
    if paths.isEmpty then
      misuse "basename" "missing operand"
      return 1
    match several, o.operands[2]? with
    | false, some extra =>
      misuse "basename" ("extra operand '" ++ extra ++ "'")
      return 1
    | _, _ =>
      for path in paths do
        let name := lastName path
        let name := if name = tail then name else (Text.dropTail? tail name).getD name
        Act.print (name ++ if o.has 'z' then "\x00" else "\n")
      return 0

/-- Writes what stands before the last names on paths. -/
def dirname : Utility :=
  withOptions "dirname" ⟨"z", "", [("zero", 'z')], true⟩ 1 fun o => do
    if o.operands.isEmpty then
      misuse "dirname" "missing operand"
      return 1
    for path in o.operands do
      Act.print (parentPath path ++ if o.has 'z' then "\x00" else "\n")
    return 0

/-! ## Where paths lead -/

/-- How a path is traced. -/
inductive Tracing where
  /-- All has to be there. -/
  | existing
  /-- The last name need not be there. -/
  | usual
  /-- Nothing needs to be there. -/
  | any
  deriving DecidableEq, Repr, Inhabited

/-- Goes along names as far as something is there, through at most so many links; the other
    names are taken as they are. -/
def settledFrom (t : FileTree) : (bound : Nat) → Location → List FileName → Location
  | 0, here, names => here ++ names
  | _, here, [] => here
  | bound + 1, here, name :: rest =>
    if name = "." then settledFrom t bound here rest
    else if name = ".." then settledFrom t bound here.dropLast rest
    else
      match t.get? (here ++ [name]) with
      | some (.link target) =>
        let start := if Path.isAbsolute target then [] else here
        settledFrom t bound start ((Path.names target).map .ofRaw ++ rest)
      | _ => settledFrom t bound (here ++ [name]) rest

/-- The absolute path of what a path leads to. -/
def traced (p : Process) (how : Tracing) (path : String) : Except Refusal String := do
  match how with
  | .any =>
    if path.isEmpty then throw .missing
    let start := if Path.isAbsolute path then [] else p.directory
    let names := (Path.names path).map FileName.ofRaw
    return Process.absolute (settledFrom p.machine.files (names.length + 1000) start names)
  | .existing =>
    let _ ← p.node path
    return Process.absolute (← p.locate path)
  | .usual =>
    let l ← p.locate path
    match p.nodeAt path l with
    | .error .notDirectory => throw .notDirectory
    | _ => return Process.absolute l

/-- A path from one location to another. -/
def relativePath (start target : Location) : String :=
  let common := ((start.zip target).takeWhile fun (a, b) => a == b).length
  let names := List.replicate (start.length - common) ".." ++ (target.drop common).map FileName.toRaw
  if names.isEmpty then "." else Text.join "/" names

/-- Writes the absolute paths of what paths lead to. -/
def realpath : Utility :=
  withOptions "realpath" ⟨"emsqzLP", "R", [("canonicalize-existing", 'e'), ("canonicalize-missing", 'm'),
    ("no-symlinks", 's'), ("strip", 's'), ("quiet", 'q'), ("zero", 'z'), ("relative-to", 'R')], true⟩ 1
    fun o => do
      if o.operands.isEmpty then
        misuse "realpath" "missing operand"
        return 1
      forEach o.operands fun path => do
        let p ← get
        let how := if o.has 'e' then .existing else if o.has 'm' then .any else .usual
        let base := (o.value? 'R').bind fun b => (p.locate b).toOption
        let found : Except Refusal String :=
          if o.has 's' then
            .ok (Process.absolute
              ((Process.settled (Path.names (Path.join p.workingPath path))).map FileName.ofRaw))
          else traced p how path
        match found, base with
        | .ok s, none =>
          Act.print (s ++ if o.has 'z' then "\x00" else "\n")
          return 0
        | .ok s, some b =>
          Act.print (relativePath b ((Path.names s).map FileName.ofRaw) ++ "\n")
          return 0
        | .error r, _ =>
          let shown := if path.isEmpty then "''" else path
          if !o.has 'q' then Act.complain ("realpath: " ++ shown ++ ": " ++ r.reason)
          return 1

/-- Writes where links lead, or the absolute paths of what paths lead to. -/
def readlink : Utility :=
  withOptions "readlink" ⟨"femnsqvz", "", [("canonicalize", 'f'), ("canonicalize-existing", 'e'),
    ("canonicalize-missing", 'm'), ("no-newline", 'n'), ("silent", 's'), ("quiet", 'q'), ("verbose", 'v'),
    ("zero", 'z')], true⟩ 1 fun o => do
    if o.operands.isEmpty then
      misuse "readlink" "missing operand"
      return 1
    let lineEnd := if o.has 'n' && o.operands.length = 1 then "" else if o.has 'z' then "\x00" else "\n"
    forEach o.operands fun path => do
      let p ← get
      let found : Except String String :=
        if o.has 'f' || o.has 'e' || o.has 'm' then
          let how := if o.has 'e' then .existing else if o.has 'm' then .any else .usual
          (traced p how path).mapError Refusal.reason
        else
          match p.nameNode path with
          | .ok (.link target) => .ok target
          | .ok _ => .error "Invalid argument"
          | .error r => .error r.reason
      match found with
      | .ok s =>
        Act.print (s ++ lineEnd)
        return 0
      | .error reason =>
        if o.has 'v' then Act.complain ("readlink: " ++ path ++ ": " ++ reason)
        return 1

end ParseBench.Utility
