/-
  ParseBench.Host.Utility.Making

  Utilities that make files in special ways: with names of their own, as devices, or
  with rights and in a place that are said, and those that say whose files are.
-/

import ParseBench.Host.Utility.Copying
import ParseBench.Host.Utility.Files

namespace ParseBench.Utility

/-! ## Names that are not there yet -/

/-- The letters at the end of a template that are filled in. -/
def freeLetters (template : String) : Nat :=
  (template.toList.reverse.takeWhile (· == 'X')).length

/-- The template filled in with a number. -/
def filledTemplate (template : String) (n : Nat) : String :=
  let count := freeLetters template
  let digits := toString n
  String.ofList (template.toList.take (template.length - count)) ++
    String.ofList ((List.replicate (count - digits.length) '0' ++ digits.toList).take count)

/-- The first path of a template at which there is nothing. -/
def freePath? (p : Process) (directory template tail : String) : Option String :=
  let paths := (List.range (p.machine.files.entries.length + 1)).map fun n =>
    let name := filledTemplate template n ++ tail
    if directory.isEmpty then name else inDirectory directory name
  paths.find? fun path => (p.nameNode? path).isNone

/-- Makes a file or a directory with a name of its own, and prints its path. -/
def mktemp : Utility :=
  withOptions "mktemp" ⟨"duqt", "p", [("directory", 'd'), ("dry-run", 'u'), ("quiet", 'q'), ("tmpdir", 'D'),
    ("suffix", 'S')], true⟩ 1 fun o => do
    let p ← get
    let complain (message : String) : Act Nat := do
      if !o.has 'q' then Act.complain ("mktemp: " ++ message)
      return 1
    let shared := ((p.environment.lookup "TMPDIR").filter (!·.isEmpty)).getD "/tmp"
    let asked := (o.value? 'p').or ((o.value? 'D').map fun s => if s.isEmpty then shared else s)
    match o.operands with
    | _ :: _ :: _ =>
      misuse "mktemp" "too many templates"
      return 1
    | operands =>
      let directory :=
        match asked with
        | some path => path
        | none => if operands.isEmpty || o.has 't' then shared else ""
      let template := operands.headD "tmp.XXXXXXXXXX"
      -- what follows the letters stays, unless it is said apart
      let tail :=
        match o.value? 'S' with
        | some tail => tail
        | none => String.ofList ((template.toList.reverse.takeWhile (· ≠ 'X')).reverse)
      let stem := if o.has 'S' then template
        else String.ofList (template.toList.take (template.length - tail.length))
      if freeLetters stem < 3 then
        Act.complain ("mktemp: too few X's in template '" ++ template ++ "'")
        return 1
      else
        match freePath? p directory stem tail with
        | none => complain ("failed to create file via template '" ++ template ++ "': File exists")
        | some path =>
          let made := if o.has 'd' then p.makeDir path
            else p.write path .empty
          match if o.has 'u' then .ok p.machine.files else made with
          | .ok t =>
            Act.setFiles t
            Act.print (path ++ "\n")
            return 0
          | .error r =>
            complain ("failed to create " ++ (if o.has 'd' then "directory" else "file") ++
              " via template '" ++
              (if directory.isEmpty then template else inDirectory directory template) ++ "': " ++ r.reason)

/-! ## Devices -/

/-- The device of two numbers. Those that are not known swallow everything. -/
def deviceOf (major minor : Nat) : Device :=
  match major, minor with
  | 1, 5 | 1, 8 | 1, 9 => .zeros
  | 1, 7 => .full
  | _, _ => .nothing

/-- Makes pipes and devices. -/
def mknod : Utility :=
  withOptions "mknod" ⟨"", "m", [("mode", 'm')], true⟩ 1 fun o => do
    let wrongIn (place message : String) : Act Nat := do
      Act.complain ("mknod: " ++ message)
      if !place.isEmpty then Act.complain place
      sayHelp "mknod"
      return 1
    let wrong := wrongIn ""
    let make (path : String) (put : FileTree → Location → FileTree) : Act Nat := do
      let p ← get
      let refused (r : Refusal) : Act Nat := do
        Act.complain ("mknod: " ++ path ++ ": " ++ r.reason)
        return 1
      match p.locateName path with
      | .error r => refused r
      | .ok l =>
        match p.nodeAt path l with
        | .ok _ => refused .present
        | .error _ =>
          Act.setFiles (put p.machine.files l)
          return 0
    match o.operands with
    | [] => wrong "missing operand"
    | [path] => wrong ("missing operand after '" ++ path ++ "'")
    | path :: kind :: numbers =>
      -- only a pipe goes without numbers
      if !Text.startsWith kind "p" && numbers.length < 2 then
        return ← wrongIn (if numbers.isEmpty then "Special files require major and minor device numbers." else "")
          ("missing operand after '" ++ numbers.getLastD kind ++ "'")
      match kind.toList.head?, numbers with
      | some 'p', [] => make path FileTree.addPipe
      | some 'p', extra :: more =>
        wrongIn (if more.length = 1 then "Fifos do not have major and minor device numbers." else "")
          ("extra operand '" ++ extra ++ "'")
      | some c, [major, minor] =>
        if !"bcu".toList.contains c then wrong ("invalid device type '" ++ kind ++ "'")
        else
          match Numeral.plain? major, Numeral.plain? minor with
          | some major, some minor => make path fun t l => t.put l (.device (deviceOf major minor))
          | none, _ =>
            Act.complain ("mknod: invalid major device number '" ++ major ++ "'")
            return 1
          | _, none =>
            Act.complain ("mknod: invalid minor device number '" ++ minor ++ "'")
            return 1
      | some _, _ => wrong ("extra operand '" ++ numbers.getD 2 "" ++ "'")
      | none, _ => wrong ("invalid device type '" ++ kind ++ "'")

/-! ## Putting in place -/

/-- Puts a copy of one file in place, with rights that are said. -/
def installOne (o : Options) (source target : String) : Act Nat := do
  let executable := modeExecutes ((o.value? 'm').getD "755") false
  let refuse (message : String) : Act Nat := do
    Act.complain ("install: " ++ message)
    return 1
  if o.has 'D' && (o.value? 't').isNone then
    let status ← makeAlong "install" (fun _ => pure ()) (pathsAlong (parentPath target))
    if status ≠ 0 then return status
  let p ← get
  match p.node source with
  | .error r => refuse ("cannot stat '" ++ source ++ "': " ++ r.reason)
  | .ok .directory => refuse ("omitting directory '" ++ source ++ "'")
  | .ok _ =>
    match ← Act.readFile source with
    | .error r => refuse ("cannot open '" ++ source ++ "' for reading: " ++ r.reason)
    | .ok text =>
      let p ← get
      match p.locateName target, p.nameNode target with
      | .error r, _ => refuse ("cannot create regular file '" ++ target ++ "': " ++ r.reason)
      | .ok _, .ok .directory =>
        refuse ("cannot overwrite directory '" ++ target ++ "' with non-directory")
      | .ok l, old =>
        let here := (p.locate source).toOption
        if old.isOk && here = some l then
          refuse ("'" ++ source ++ "' and '" ++ target ++ "' are the same file")
        else if Path.endsInSlash target then
          refuse ("cannot create regular file '" ++ target ++ "': Not a directory")
        else
          -- what was there is replaced, whatever it led to
          Act.setFiles ((p.machine.files.erase l).addFile l (Raw.toBytes text) executable)
          if o.has 'v' then
            if old.isOk then Act.print ("removed '" ++ target ++ "'\n")
            Act.print ("'" ++ source ++ "' -> '" ++ target ++ "'\n")
          return 0

/-- Puts copies of files in place, or makes directories. -/
def install : Utility :=
  withOptions "install" ⟨"dDvpcsbCTZ", "mtogS", [("directory", 'd'), ("mode", 'm'), ("target-directory", 't'),
    ("verbose", 'v'), ("owner", 'o'), ("group", 'g'), ("no-target-directory", 'T'),
    ("compare", 'C'), ("preserve-timestamps", 'p')], true⟩ 1 fun o => do
    if !isMode ((o.value? 'm').getD "755") then
      Act.complain ("install: invalid mode '" ++ (o.value? 'm').getD "" ++ "'")
      return 1
    if o.has 'd' then
      if o.operands.isEmpty then
        misuse "install" "missing file operand"
        return 1
      forEach o.operands fun path =>
        let tell (path : String) : Act Unit := do
          if o.has 'v' then Act.print ("install: creating directory '" ++ path ++ "'\n")
        makeAlong "install" tell (pathsAlong path)
    else
      if o.has 'D' then
        if let some target := o.value? 't' then
          let status ← makeAlong "install" (fun _ => pure ()) (pathsAlong target)
          if status ≠ 0 then return status
      toTarget "install" installOne o

/-! ## Owners -/

/-- The users and groups that there are. -/
def owners : List String :=
  ["root", "daemon", "bin", "sys", "sync", "games", "man", "lp", "mail", "news", "uucp", "proxy", "www-data",
    "backup", "list", "irc", "nobody", "nogroup", "adm", "tty", "disk", "staff", "users"]

/-- Is there a user or a group of this name or number? -/
def isOwner (s : String) : Bool :=
  s.isEmpty || owners.contains s || s.all Char.isDigit

/-- Says whose files are. There is one user, who may do everything, so nothing follows from it. -/
def changeOwner (name : String) (isGroup : Bool) : Utility :=
  withOptions name ⟨"RhvcfHLP", "F", [("recursive", 'R'), ("no-dereference", 'h'), ("reference", 'F'),
    ("verbose", 'v'), ("changes", 'c'), ("silent", 'f'), ("quiet", 'f')], true⟩ 1 fun o => do
    let paths := if o.has 'F' then o.operands else o.operands.drop 1
    let owner := if o.has 'F' then "" else o.operands.headD ""
    if o.operands.isEmpty then
      misuse name "missing operand"
      return 1
    if paths.isEmpty then
      misuse name ("missing operand after '" ++ owner ++ "'")
      return 1
    let (user, group) : String × String :=
      if isGroup then ("", owner)
      else
        let user := owner.toList.takeWhile fun c => c ≠ ':' && c ≠ '.'
        (String.ofList user, String.ofList (owner.toList.drop (user.length + 1)))
    if !isOwner user then
      Act.complain (name ++ ": invalid user: '" ++ owner ++ "'")
      return 1
    if !isOwner group then
      Act.complain (name ++ ": invalid group: '" ++ owner ++ "'")
      return 1
    forEach paths fun path => do
      let p ← get
      match if o.has 'h' then p.nameNode path else p.node path with
      | .ok _ => return 0
      | .error r =>
        if !o.has 'f' then
          let isDangling := (p.nameNode? path).isSome && r ≠ .looping
          Act.complain (name ++ (if isDangling then ": cannot dereference '" else ": cannot access '") ++
            path ++ "': " ++ r.reason)
        return 1

end ParseBench.Utility
