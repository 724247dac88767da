/-
  ParseBench.Files.Tree

  A tree of files and directories. An entry is found by the names that lead to it
  from the root, which is always there; what an operation does to the tree is said
  by what it does to `get?`.

  A file may have several names: entries that hold a file with the same number are
  that one file, and what is written under one name is read under all of them.
-/

import ParseBench.Files.Name
import ParseBench.Ordered
import ParseBench.Text.Split

namespace ParseBench

/-- The names that lead from the root to an entry. -/
abbrev Location := List FileName

/-- A file. -/
structure File where
  content : ByteArray
  executable : Bool := false
  /-- What tells the file from others. -/
  number : Nat
  deriving Inhabited

instance : DecidableEq File
  | ⟨c, x, n⟩, ⟨c', x', n'⟩ =>
    letI : Decidable (c = c') := ByteArray.instDecidableEq c c'
    decidable_of_decidable_of_iff (iff_of_eq (File.mk.injEq c x n c' x' n').symm)

/-- What is not kept in a tree though it has a place there. -/
inductive Device where
  /-- Swallows what is written and has nothing to read. -/
  | nothing
  /-- Swallows what is written and has zeros without end. -/
  | zeros
  /-- Has zeros without end and takes nothing. -/
  | full
  /-- A stream of whoever asks, by its number. -/
  | stream (number : Nat)
  deriving DecidableEq, Repr, Inhabited

/-- What can stand in a tree. -/
inductive Entry where
  | directory
  | file (f : File)
  /-- Leads to another path, a raw text, which need not lead to anything. -/
  | link (target : String)
  /-- A pipe, by its number. -/
  | pipe (number : Nat)
  | device (d : Device)
  deriving DecidableEq, Inhabited

/-- The entries of a tree, in ascending order. -/
structure FileTree where
  entries : List (Location × Entry) := []
  /-- The working directory, from which relative paths lead. -/
  here : Location := []
  /-- The number of files and pipes that have been numbered. -/
  numbered : Nat := 0
  deriving DecidableEq, Inhabited

namespace FileTree

/-! ## Entries -/

/-- The entry at a location. -/
def get? (t : FileTree) (l : Location) : Option Entry :=
  if l = [] then some .directory else t.entries.lookup l

/-- The tree with an entry at a location. -/
def put (t : FileTree) (l : Location) (e : Entry) : FileTree :=
  { t with entries := Ordered.put l e t.entries }

/-- The tree without an entry. -/
def erase (t : FileTree) (l : Location) : FileTree :=
  { t with entries := t.entries.filter (·.1 ≠ l) }

/-- The name of the entry at a location, if it stands in the directory `dir`. -/
def nameIn? (dir : Location) (l : Location) : Option FileName :=
  match Text.after? dir l with
  | some [name] => some name
  | _ => none

/-- The names in a directory, in ascending order. -/
def children (t : FileTree) (dir : Location) : List FileName :=
  Ordered.ofList (t.entries.filterMap fun e => nameIn? dir e.1)

/-- What is at a location and below it, by the names from there. -/
def below (t : FileTree) (l : Location) : List (Location × Entry) :=
  t.entries.filterMap fun (k, e) => (Text.after? l k).map (·, e)

/-- The tree without what is at a location and below it. -/
def without (t : FileTree) (l : Location) : FileTree :=
  { t with entries := t.entries.filter fun e => (Text.after? l e.1).isNone }

/-- A tree of directories alone, in one of which the work is done. -/
def ofDirectories (here : Location) (dirs : List Location) : FileTree :=
  (here :: dirs).foldl (fun t l => t.put l .directory) { here }

/-! ## Files -/

/-- The tree with a new file at a location. -/
def addFile (t : FileTree) (l : Location) (content : ByteArray) (executable : Bool) : FileTree :=
  { t.put l (.file ⟨content, executable, t.numbered⟩) with numbered := t.numbered + 1 }

/-- The tree with a new pipe at a location. -/
def addPipe (t : FileTree) (l : Location) : FileTree :=
  { t.put l (.pipe t.numbered) with numbered := t.numbered + 1 }

/-- The entry with a file in the place of the one with its number. -/
def Entry.updated (f : File) : Entry → Entry
  | .file g => .file (if g.number = f.number then f else g)
  | e => e

/-- The tree with a file changed under all its names. -/
def update (t : FileTree) (f : File) : FileTree :=
  { t with entries := t.entries.map fun e => (e.1, Entry.updated f e.2) }

/-- The file of a number. -/
def fileOf? (t : FileTree) (number : Nat) : Option File :=
  t.entries.findSome? fun
    | (_, .file f) => if f.number = number then some f else none
    | _ => none

/-! ## Laws -/

@[simp] theorem get?_nil (t : FileTree) : t.get? [] = some .directory := rfl

theorem get?_put (t : FileTree) {l : Location} (hl : l ≠ []) (e : Entry) (k : Location) :
    (t.put l e).get? k = if k = l then some e else t.get? k := by
  unfold get? put
  by_cases hk : k = []
  · subst hk
    simp [hl.symm]
  · simp only [hk, if_false]
    exact Ordered.lookup_put l k e t.entries

theorem get?_erase (t : FileTree) {l : Location} (hl : l ≠ []) (k : Location) :
    (t.erase l).get? k = if k = l then none else t.get? k := by
  unfold get? erase
  by_cases hk : k = []
  · subst hk
    simp [hl.symm]
  · simp only [hk, if_false]
    exact Ordered.lookup_erase l k t.entries

end FileTree

end ParseBench
