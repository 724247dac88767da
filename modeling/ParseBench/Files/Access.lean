/-
  ParseBench.Files.Access

  Reading and changing a tree through paths. A path leads from the root or from the
  working directory name by name, and each name but the last has to be that of a
  directory. A link on the way is followed; a link at its end is followed by all
  that looks for what it leads to, and not by what makes or moves a name.
-/

import ParseBench.Files.Path
import ParseBench.Files.Tree

namespace ParseBench

/-- Why a path cannot be used. -/
inductive Refusal where
  /-- Something on the path is not there. -/
  | missing
  /-- Something is there already. -/
  | present
  /-- What is there would have to be a directory, or no directory. -/
  | notDirectory
  | directory
  /-- The path or a name on it is too long. -/
  | tooLong
  /-- The path leads through too many links. -/
  | looping
  /-- What is there does not allow it. -/
  | denied
  /-- There is no room for what is written. -/
  | full
  deriving DecidableEq, Repr, Inhabited

namespace FileTree

/-! ## Finding -/

/-- The number of bytes that a name may have. -/
def maxName : Nat := 255

/-- The number of bytes that a path may have. -/
def maxPath : Nat := 4095

/-- The number of links that a path may lead through. -/
def maxLinks : Nat := 40

/-- Goes from a directory to the entry of one name, which need not be there. What is above
    the root is the root. -/
def step (t : FileTree) (here : Location) (name : FileName) : Except Refusal Location :=
  match t.get? here with
  | none => .error .missing
  | some .directory =>
    if name = "." then .ok here
    else if name = ".." then .ok here.dropLast
    else if name.bytes.length ≤ maxName then .ok (here ++ [name])
    else .error .tooLong
  | some _ => .error .notDirectory

/-- Where one goes along names. -/
inductive Walk where
  | arrives (l : Location)
  /-- A link comes first. The names that are still to be gone along begin at a location. -/
  | linked (start : Location) (names : List FileName)
  deriving Inhabited

/-- Goes along names up to the first link that has to be followed. The last name is followed
    only if `follows` says so. -/
def walk (t : FileTree) (follows : Bool) : Location → List FileName → Except Refusal Walk
  | here, [] => .ok (.arrives here)
  | here, name :: rest => do
    let l ← t.step here name
    match t.get? l with
    | some (.link target) =>
      if rest.isEmpty && !follows then return .arrives l
      else
        let start := if Path.isAbsolute target then [] else here
        return .linked start ((Path.names target).map .ofRaw ++ rest)
    | _ => walk t follows l rest

/-- Goes along names through at most so many links. -/
def follow (t : FileTree) (follows : Bool) : (links : Nat) → Location → List FileName →
    Except Refusal Location
  | links, here, names => do
    match ← t.walk follows here names with
    | .arrives l => return l
    | .linked start names =>
      match links with
      | 0 => throw .looping
      | links + 1 => follow t follows links start names

/-- The location that a path leads to, with the link at its end followed or not. The last
    entry on it need not be there. `named` says which bytes a part of the path stands for. -/
def reachAs (named : String → FileName) (t : FileTree) (follows : Bool) (path : String) :
    Except Refusal Location :=
  if path.toList.any (· == '\x00') then .error .denied
  else if maxPath < (named path).bytes.length then .error .tooLong
  else if path.isEmpty then .error .missing
  else
    t.follow follows maxLinks (if Path.isAbsolute path then [] else t.here)
      ((Path.names path).map named)

/-- The location that a path, which is a text, leads to. -/
def reach (t : FileTree) (follows : Bool) (path : String) : Except Refusal Location :=
  t.reachAs .ofText follows path

/-- The location that a path leads to. -/
def locate (t : FileTree) (path : String) : Except Refusal Location :=
  t.reach true path

/-- The location of the name that a path is. -/
def locateName (t : FileTree) (path : String) : Except Refusal Location :=
  t.reach (Path.endsInSlash path) path

/-- The entry at a location that a path led to. Only a directory may stand before a slash at
    the end. -/
def entryAt (t : FileTree) (path : String) (l : Location) : Except Refusal Entry :=
  match t.get? l with
  | none => .error .missing
  | some .directory => .ok .directory
  | some e => if Path.endsInSlash path then .error .notDirectory else .ok e

/-- The entry that a path leads to. -/
def find (t : FileTree) (path : String) : Except Refusal Entry := do
  t.entryAt path (← t.locate path)

/-- Is something there? -/
def isThere (t : FileTree) (path : String) : Bool :=
  (t.find path).isOk

/-- Is a directory there? -/
def isDirectory (t : FileTree) (path : String) : Bool :=
  match t.find path with
  | .ok .directory => true
  | _ => false

/-! ## Reading -/

/-- The content of a file. What has nothing to read is empty. -/
def read (t : FileTree) (path : String) : Except Refusal ByteArray := do
  match ← t.find path with
  | .file f => .ok f.content
  | .device .nothing => .ok .empty
  | .directory => .error .directory
  | _ => .error .denied

/-- The names in a directory, in ascending order. -/
def list (t : FileTree) (path : String) : Except Refusal (List FileName) := do
  match ← t.find path with
  | .directory =>
    let l ← t.locate path
    return t.children l
  | _ => .error .notDirectory

/-- The names of the files in a directory, in ascending order. A link to a file is none. -/
def listFiles (t : FileTree) (path : String) : Except Refusal (List FileName) := do
  let names ← t.list path
  let l ← t.locate path
  return names.filter fun name =>
    match t.get? (l ++ [name]) with
    | some (.file _) => true
    | _ => false

/-! ## Writing -/

/-- The tree with the content of a file replaced to which a path led. A new file is not
    executable. -/
def writeAt (t : FileTree) (path : String) (content : ByteArray) (l : Location) :
    Except Refusal FileTree :=
  if Path.endsInSlash path then .error .directory
  else
    match t.get? l with
    | some (.file f) => .ok (t.update { f with content })
    | some (.device .nothing) | some (.device .zeros) => .ok t
    | some (.device .full) => if content.isEmpty then .ok t else .error .full
    | some .directory => .error .directory
    | some _ => .error .denied
    | none => .ok (t.addFile l content false)

/-- The tree with the content of a file replaced. -/
def write (t : FileTree) (path : String) (content : ByteArray) : Except Refusal FileTree := do
  t.writeAt path content (← t.locate path)

/-- The tree with a new directory at a location. -/
def makeDirAt (t : FileTree) (l : Location) : Except Refusal FileTree :=
  match t.get? l with
  | some _ => .error .present
  | none => .ok (t.put l .directory)

/-- The tree with a new directory. -/
def makeDir (t : FileTree) (path : String) : Except Refusal FileTree := do
  t.makeDirAt (← t.reach false path)

/-- Makes the directory of the first path. If something on that path is missing, the
    paths after it, which lie above it, come first. Yields the tree as far as it got, and
    why it got no farther; a directory that is there already is as good as a new one. -/
def makeBelow (t : FileTree) : List String → FileTree × Option Refusal
  | [] => (t, none)
  | path :: above =>
    let settle (t : FileTree) (r : Refusal) : FileTree × Option Refusal :=
      (t, if t.isDirectory path then none else some r)
    match t.makeDir path with
    | .ok made => (made, none)
    | .error .missing =>
      -- what is made above stays even if the last directory cannot be made
      match t.makeBelow above with
      | (made, some r) => (made, some r)
      | (made, none) =>
        match made.makeDir path with
        | .ok last => (last, none)
        | .error r => settle made r
    | .error r => settle t r

/-- Makes a directory and what is missing above it. Nothing is made of the empty path. -/
def makeDirs (t : FileTree) (path : String) : FileTree × Option Refusal :=
  if path.isEmpty then (t, none) else t.makeBelow (path :: Path.parents path)

/-- Are two entries one file? -/
def Entry.isSame : Entry → Entry → Bool
  | .file f, .file g => f.number == g.number
  | _, _ => false

/-- The tree with a name moved to another path, where it takes the place of what is no
    directory. Two names of one file are left as they are. -/
def move (t : FileTree) (path target : String) : Except Refusal FileTree := do
  let source ← t.locateName path
  let destination ← t.locateName target
  match t.get? source, t.get? destination with
  | none, _ => .error .missing
  | some .directory, _ => .error .denied
  | some _, some .directory => .error .directory
  | some e, some old =>
    if Entry.isSame e old then return t else return (t.erase source).put destination e
  | some e, none => return (t.erase source).put destination e

end FileTree

end ParseBench
