/-
  ParseBench.Host.Utility.Listing

  Listing files, and what is in directories. What a line says of a file follows from
  its name, what is there, and where.
-/

import ParseBench.Host.Shell.Pattern
import ParseBench.Host.Utility.Names

namespace ParseBench.Utility

/-- What is listed: the name it is listed by, what is there, and where. -/
structure Listed where
  name : String
  node : Process.Node
  location : Location
  deriving Inhabited

namespace Listed

/-- What is marked after the name. -/
def mark (o : Options) (i : Listed) : String :=
  let all := o.has 'F' || o.has 'y'
  match i.node with
  | .directory => if all || o.has 'p' then "/" else ""
  | .link _ => if all then "@" else ""
  | .pipe => if all then "|" else ""
  | .file f => if o.has 'F' && f.executable then "*" else ""
  | .program => if o.has 'F' then "*" else ""
  | .device => ""

/-- The number of bytes that a directory takes. -/
def directorySize : Nat := 4096

/-- The size in bytes. -/
def size (i : Listed) : Nat :=
  match i.node with
  | .file f => f.content.size
  | .link target => target.length
  | .directory => directorySize
  | _ => 0

/-- The number of units of 1024 bytes that are taken. -/
def units (i : Listed) : Nat :=
  match i.node with
  | .file f => (f.content.size + 4095) / 4096 * 4
  | .directory => 4
  | _ => 0

/-- The letters of the kind and of the rights. -/
def rights (i : Listed) : String :=
  match i.node with
  | .directory => "drwxr-xr-x"
  | .file f => if f.executable then "-rwxr-xr-x" else "-rw-r--r--"
  | .program => "-rwxr-xr-x"
  | .link _ => "lrwxrwxrwx"
  | .pipe => "prw-r--r--"
  | .device => "crw-rw-rw-"

/-- The number of names. A directory has one in itself and one in each directory in it. -/
def nameCount (t : FileTree) (i : Listed) : Nat :=
  match i.node with
  | .file f => t.entries.countP fun
    | (_, .file g) => g.number == f.number
    | _ => false
  | .directory =>
    2 + (t.children i.location).countP fun name => t.get? (i.location ++ [name]) = some .directory
  | _ => 1

/-- The end of a name that its kind is seen by. -/
def nameEnd (i : Listed) : String :=
  match (Text.splitWhere (· == '.') i.name.toList).reverse with
  | last :: _ :: _ => String.ofList last
  | _ => ""

end Listed

namespace Listing

/-- A text as wide as a column, with blanks before it. -/
def padLeft (width : Nat) (s : String) : String :=
  String.ofList (List.replicate (width - s.length) ' ') ++ s

/-- Are details told? -/
def isLong (o : Options) : Bool :=
  ['l', 'n', 'g', 'o'].any o.has

/-- What is listed in the order that is asked for. -/
def ordered (o : Options) (items : List Listed) : List Listed :=
  let items :=
    if o.has 'S' then items.mergeSort fun a b => b.size ≤ a.size
    else if o.has 'X' then items.mergeSort fun a b => a.nameEnd ≤ b.nameEnd
    else items
  let items := if o.has 'r' then items.reverse else items
  if o.has 'V' then
    let isDirectory (i : Listed) : Bool := i.node matches .directory
    items.filter isDirectory ++ items.filter (!isDirectory ·)
  else items

/-- The lines that give details of items, in columns. The time is not known to anybody. -/
def longLines (o : Options) (t : FileTree) (items : List Listed) : List String :=
  let owner := if o.has 'n' then "0" else "root"
  let counts := items.map fun i => toString (i.nameCount t)
  let sizes := items.map fun i => toString i.size
  let widest (column : List String) : Nat := (column.map String.length).foldl max 0
  ((items.zip counts).zip sizes).map fun ((i, count), size) =>
    let owners := (if o.has 'g' then [] else [owner]) ++ (if o.has 'o' || o.has 'G' then [] else [owner])
    let arrow := match i.node with
      | .link target => " -> " ++ target
      | _ => ""
    let mark := match i.node with
      | .link _ => ""
      | _ => i.mark o
    Text.join " " ([i.rights, padLeft (widest counts) count] ++ owners ++
      [padLeft (widest sizes) size, "Jan  1 00:00", i.name ++ mark ++ arrow])

/-- The number of characters that a line may have. -/
def lineWidth : Nat := 80

/-- Names after each other in lines. `column` is where the line has come to. -/
def commaText (column : Nat) : List String → String
  | [] => ""
  | [name] => name ++ "\n"
  | name :: next :: rest =>
    let column := column + name.length
    if column + next.length + 2 < lineWidth then
      name ++ ", " ++ commaText (column + 2) (next :: rest)
    else name ++ ",\n" ++ commaText 0 (next :: rest)

/-- The text that lists items. -/
def text (o : Options) (t : FileTree) (items : List Listed) : String :=
  if isLong o then String.join ((longLines o t items).map (· ++ "\n"))
  else
    let shown (i : Listed) : String := if o.has 'Q' then "\"" ++ i.name ++ "\"" else i.name
    let widest := (items.map fun i => (toString i.units).length).foldl max 0
    let names := items.map fun i =>
      (if o.has 's' then padLeft widest (toString i.units) ++ " " else "") ++ shown i ++ i.mark o
    if o.has 'm' then commaText 0 names
    else String.join (names.map (· ++ if o.has 'z' then "\x00" else "\n"))

/-- What is in a directory and is listed. -/
def inside (o : Options) (p : Process) (l : Location) : List Listed :=
  let t := p.machine.files
  let dots := o.has 'a' || o.has 'f'
  let hidden := dots || o.has 'A'
  let ignored := (o.flags.filter (·.1 == 'I')).map fun f => Shell.Pattern.ofPlain f.2
  let isShown (name : String) : Bool :=
    (hidden || !Text.startsWith name ".") && !(ignored.any (·.matchesText name)) &&
      !(o.has 'B' && name.endsWith "~")
  let item (name : String) (l : Location) : Listed :=
    -- links are followed if that is asked for and they lead somewhere
    let node :=
      match p.nodeAt "" l with
      | .ok (.link target) =>
        if o.has 'L' then ((p.node (Process.absolute l)).toOption).getD (.link target)
        else .link target
      | .ok node => node
      | .error _ => .device
    ⟨name, node, l⟩
  let above := [item "." l, item ".." l.dropLast]
  ordered o ((if dots then above else []) ++
    ((t.children l).filter fun name => isShown name.toRaw).map fun name =>
      item name.toRaw (l ++ [name]))

/-- The text that lists a directory and, if asked for, those in it, at most `bound` levels deep.
    Each one has its path as a title then. -/
def directoryText (o : Options) (titled : Bool) (p : Process) : (bound : Nat) → Location → String → String
  | 0, _, _ => ""
  | bound + 1, l, path =>
    let items := inside o p l
    let title := if titled then path ++ ":\n" else ""
    let total :=
      if isLong o || o.has 's' then "total " ++ toString ((items.map Listed.units).foldl (· + ·) 0) ++ "\n"
      else ""
    let inner :=
      if o.has 'R' then
        items.filter fun i => (i.node matches .directory) && i.name ≠ "." && i.name ≠ ".."
      else []
    title ++ total ++ text o p.machine.files items ++
      String.join (inner.map fun i =>
        "\n" ++ directoryText o titled p bound i.location (inDirectory path i.name))

end Listing

/-- The options of a listing. -/
def listingOptions : OptionTable where
  plain := "aA1drRpFCtUSnhlmLHQsXvfgoGkcuxiqNbBD"
  valued := "IwT"
  long := [("all", 'a'), ("almost-all", 'A'), ("directory", 'd'), ("reverse", 'r'), ("recursive", 'R'),
    ("classify", 'F'), ("file-type", 'y'), ("group-directories-first", 'V'), ("ignore", 'I'),
    ("dereference", 'L'), ("size", 's'), ("quote-name", 'Q'), ("numeric-uid-gid", 'n'), ("no-group", 'G'),
    ("ignore-backups", 'B'), ("zero", 'z'), ("human-readable", 'h'), ("literal", 'N'), ("escape", 'b'),
    ("width", 'w')]

/-- Lists files, and what is in directories. A link to a directory is as good as that, unless it
    is the link that is asked about. -/
def ls : Utility :=
  withOptions "ls" listingOptions 2 fun o => do
    let p ← get
    let paths := if o.operands.isEmpty then ["."] else o.operands
    let asLink := o.has 'd' || o.has 'F' || Listing.isLong o
    let found := paths.map fun path =>
      let name := p.nameNode path
      let node := p.node path
      let node : Except Refusal Process.Node :=
        if o.has 'L' || o.has 'H' then node
        else
          match name, node with
          | .ok (.link _), .ok .directory => if asLink then name else node
          | _, _ => name
      (path, node)
    for (path, node) in found do
      match node with
      | .ok _ => pure ()
      | .error r => Act.complain ("ls: cannot access '" ++ path ++ "': " ++ r.reason)
    let items := found.filterMap fun (path, node) =>
      node.toOption.map fun node =>
        let l := if node matches .link _ then p.locateName path else p.locate path
        (⟨path, node, l.toOption.getD []⟩ : Listed)
    let items := Listing.ordered o (items.mergeSort fun a b => a.name ≤ b.name)
    let isOpened (i : Listed) : Bool := (i.node matches .directory) && !o.has 'd'
    let files := items.filter (!isOpened ·)
    let titled := paths.length > 1 || o.has 'R'
    let levels := p.machine.files.entries.length + 2
    let blocks := (items.filter isOpened).map fun i =>
      Listing.directoryText o titled p levels i.location i.name
    let blocks := if files.isEmpty then blocks else Listing.text o p.machine.files files :: blocks
    Act.print (Text.join "\n" blocks)
    return if items.length = paths.length then 0 else 2

end ParseBench.Utility
