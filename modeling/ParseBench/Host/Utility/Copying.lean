/-
  ParseBench.Host.Utility.Copying

  Utilities that copy and move, and that give files more names.
-/

import ParseBench.Host.Utility.Names

namespace ParseBench.Utility

/-! ## Sources and targets -/

/-- Does something for each source of a call: with the target, or with a path in it if that is
    a directory. `follows` says that a link to a directory is as good as that. -/
def toTarget (name : String) (one : Options → String → String → Act Nat) (o : Options) : Act Nat := do
  let p ← get
  let isTarget (path : String) : Bool :=
    if o.has 'n' && name = "ln" then
      match p.nameNode? path with
      | some .directory => true
      | _ => false
    else p.isDirectory path
  let within (target : String) (sources : List String) : Act Nat :=
    forEach sources fun source => one o source (inDirectory target (lastName source))
  let missing (path : String) : String :=
    match p.node path with
    | .ok _ => "Not a directory"
    | .error r => r.reason
  match o.value? 't', o.operands.reverse with
  | _, [] =>
    misuse name "missing file operand"
    return 1
  | some target, _ =>
    if isTarget target then within target o.operands
    else
      Act.complain (name ++ ": target directory '" ++ target ++ "': " ++ missing target)
      return 1
  | none, [source] =>
    if name = "ln" then one o source (inDirectory "." (lastName source))
    else
      misuse name ("missing destination file operand after '" ++ source ++ "'")
      return 1
  | none, [target, source] =>
    if isTarget target && !o.has 'T' then within target [source] else one o source target
  | none, target :: sources =>
    if o.has 'T' then
      misuse name ("extra operand '" ++ target ++ "'")
      return 1
    else if isTarget target then within target sources.reverse
    else
      Act.complain (name ++ ": target '" ++ target ++ "': " ++ missing target)
      return 1

/-- Is a path the name of a link that leads to nothing? -/
def isDangling (p : Process) (path : String) : Bool :=
  match p.nameNode? path, p.node? path with
  | some (.link _), none => true
  | _, _ => false

/-! ## Copying -/

/-- The outermost source and target of a copy. -/
structure Copy where
  options : Options
  source : String
  target : String
  deriving Inhabited

namespace Copy

/-- Are directories copied with all that is in them? -/
def isDeep (c : Copy) : Bool :=
  ['r', 'R', 'a'].any c.options.has

/-- Are links followed? -/
def follows (c : Copy) (path : String) : Bool :=
  if ['P', 'd', 'a'].any c.options.has then false
  else if c.options.has 'L' then true
  else if c.options.has 'H' then path == c.source
  else !c.isDeep

/-- Says that it is not possible. -/
def refuse (message : String) : Act Nat := do
  Act.complain ("cp: " ++ message)
  return 1

/-- Tells of a copy, if that is asked for. -/
def tell (c : Copy) (source target : String) : Act Nat := do
  if c.options.has 'v' then Act.print ("'" ++ source ++ "' -> '" ++ target ++ "'\n")
  return 0

/-- Puts an entry where a path leads by its name, in the place of what is no directory. -/
def place (c : Copy) (source target : String) (put : FileTree → Location → FileTree) : Act Nat := do
  let p ← get
  match p.locateName target with
  | .error r => refuse ("cannot create '" ++ target ++ "': " ++ r.reason)
  | .ok l =>
    match p.nodeAt target l with
    | .ok .directory =>
      refuse ("cannot overwrite directory '" ++ target ++ "' with non-directory")
    | _ =>
      Act.setFiles (put p.machine.files l)
      c.tell source target

/-- Writes a content to a path. -/
def write (c : Copy) (source target : String) (content : ByteArray) (executable : Bool) : Act Nat := do
  let p ← get
  if p.node target matches .error .looping then
    refuse ("cannot stat '" ++ target ++ "': " ++ Refusal.looping.reason)
  else if isDangling p target then
    refuse ("not writing through dangling symlink '" ++ target ++ "'")
  else
    match p.node target with
    | .ok .directory =>
      refuse ("cannot overwrite directory '" ++ target ++ "' with non-directory")
    | .ok (.file f) =>
      -- a file that was there keeps its mode
      Act.setFiles (p.machine.files.update { f with content })
      c.tell source target
    | .ok _ =>
      match ← Act.openPath target .replace with
      | .ok id =>
        if ← Act.writeStream id Act.patience content then c.tell source target
        else refuse ("error writing '" ++ target ++ "': " ++ WriteFault.full.reason)
      | .error r => refuse ("cannot create regular file '" ++ target ++ "': " ++ r.reason)
    | .error r =>
      let refused (r : Refusal) : Act Nat :=
        refuse ("cannot create regular file '" ++ target ++ "': " ++ r.reason)
      if Path.endsInSlash target then refused .notDirectory
      else if r = .notDirectory then refuse ("cannot stat '" ++ target ++ "': " ++ r.reason)
      else
        match p.locate target with
        | .error r => refused r
        | .ok l =>
          Act.setFiles (p.machine.files.addFile l content executable)
          c.tell source target

/-- Copies what can be read of something. -/
def copyContent (c : Copy) (source target : String) : Act Nat := do
  match ← Act.readFile source with
  | .ok text => c.write source target (Raw.toBytes text) false
  | .error r => refuse ("cannot open '" ++ source ++ "' for reading: " ++ r.reason)

/-- Copies one thing, directories at most `bound` levels deep. -/
def perform (c : Copy) : (bound : Nat) → (source target : String) → Act Nat
  | 0, _, _ => return 1
  | bound + 1, source, target => do
    let p ← get
    let o := c.options
    let found := if c.follows source then p.node source else p.nameNode source
    if o.has 'n' && (p.nameNode? target).isSome then return 0
    match found with
    | .error r => refuse ("cannot stat '" ++ source ++ "': " ++ r.reason)
    | .ok .directory =>
      if !c.isDeep then refuse ("-r not specified; omitting directory '" ++ source ++ "'")
      else
        match p.locate source, p.locate target, p.node target with
        | .ok here, .ok there, old =>
          if here = there then
            -- the copy itself is reached
            refuse ("cannot copy a directory, '" ++ c.source ++ "', into itself, '" ++ c.target ++ "'")
          else
            match old with
            | .ok .directory | .error .missing =>
              let isNew : Bool := match old with | .ok _ => false | .error _ => true
              if isNew then Act.setFiles (p.machine.files.put there .directory)
              if isNew then let _ ← c.tell source target
              let t := (← get).machine.files
              let goal := (p.locate c.target).toOption
              forEach (t.children here) fun name => do
                let name' := name.toRaw
                if some (here ++ [name]) = goal then
                  refuse ("cannot copy a directory, '" ++ c.source ++ "', into itself, '" ++ c.target ++ "'")
                else perform c bound (inDirectory source name') (inDirectory target name')
            | _ =>
              refuse ("cannot overwrite non-directory '" ++ target ++ "' with directory '" ++ source ++ "'")
        | _, .error r, _ => refuse ("cannot create directory '" ++ target ++ "': " ++ r.reason)
        | .error r, _, _ => refuse ("cannot stat '" ++ source ++ "': " ++ r.reason)
    | .ok (.link link) =>
      c.place source target fun t l => t.put l (.link link)
    | .ok (.file f) =>
      if o.has 's' then
        if !Path.isAbsolute source && parentPath target ≠ "." then
          refuse (target ++ ": can make relative symbolic links only in current directory")
        else c.place source target fun t l => t.put l (.link source)
      else
        match p.node? target with
        | some (.file g) =>
          if f.number = g.number then
            refuse ("'" ++ source ++ "' and '" ++ target ++ "' are the same file")
          else if o.has 'l' then refuse ("cannot create hard link '" ++ target ++ "' to '" ++ source ++ "': File exists")
          else c.write source target f.content f.executable
        | _ =>
          if o.has 'l' then c.place source target fun t l => t.put l (.file f)
          else c.write source target f.content f.executable
    | .ok .pipe =>
      if c.isDeep then c.place source target fun t l => t.addPipe l
      else c.copyContent source target
    | .ok _ => c.copyContent source target

end Copy

/-- Copies files, or also directories with all that is in them. -/
def cp : Utility :=
  withOptions "cp" ⟨"rRafpvinudPLHTls", "tS", [("recursive", 'r'), ("archive", 'a'), ("force", 'f'),
    ("no-clobber", 'n'), ("target-directory", 't'), ("verbose", 'v'), ("dereference", 'L'),
    ("no-dereference", 'P'), ("no-target-directory", 'T'), ("link", 'l'), ("symbolic-link", 's')], true⟩ 1
    fun o => do
      if o.has 'n' then
        Act.complain ("cp: warning: behavior of -n is non-portable and may change in future; " ++
          "use --update=none instead")
      let levels := (← get).machine.files.entries.length + 2
      toTarget "cp" (fun o source target => Copy.perform ⟨o, source, target⟩ levels source target) o

/-! ## Moving -/

/-- Moves one thing to a path. -/
def moveOne (o : Options) (source target : String) : Act Nat := do
  let p ← get
  let t := p.machine.files
  let refuse (message : String) : Act Nat := do
    Act.complain ("mv: " ++ message)
    return 1
  let stuck (reason : String) : Act Nat :=
    refuse ("cannot move '" ++ source ++ "' to '" ++ target ++ "': " ++ reason)
  let settle (t : FileTree) : Act Nat := do
    Act.setFiles t
    if o.has 'v' then Act.print ("renamed '" ++ source ++ "' -> '" ++ target ++ "'\n")
    return 0
  match p.nameNode source, p.locateName source with
  | .error r, _ | _, .error r => refuse ("cannot stat '" ++ source ++ "': " ++ r.reason)
  | .ok node, .ok here =>
    let name := lastName source
    match p.nameNode target, p.locateName target with
    | old, .ok there =>
      let isThere : Bool := match old with | .ok _ => true | .error _ => false
      let isSame := here = there || match node, old with
        | .file f, .ok (.file g) => f.number == g.number
        | _, _ => false
      if isSame then refuse ("'" ++ source ++ "' and '" ++ target ++ "' are the same file")
      else if o.has 'n' && isThere then refuse ("not replacing '" ++ target ++ "'")
      else if name = "." || name = ".." then stuck "Device or resource busy"
      else if isSlashedLink p source then stuck "Not a directory"
      else
        match node, old with
        | .directory, .ok .directory =>
          if (t.children there).isEmpty && (Text.after? here there).isNone then
            settle ((t.below here).foldl (fun t (k, e) => t.put (there ++ k) e) (t.without here))
          else if (Text.after? here there).isSome then
            refuse ("cannot move '" ++ source ++ "' to a subdirectory of itself, '" ++ target ++ "'")
          else refuse ("cannot overwrite '" ++ target ++ "': Directory not empty")
        | .directory, .ok _ =>
          refuse ("cannot overwrite non-directory '" ++ target ++ "' with directory '" ++ source ++ "'")
        | .directory, .error r =>
          if (Text.after? here there).isSome then
            refuse ("cannot move '" ++ source ++ "' to a subdirectory of itself, '" ++ target ++ "'")
          else if r ≠ .missing then stuck r.reason
          else settle ((t.below here).foldl (fun t (k, e) => t.put (there ++ k) e) (t.without here))
        | _, .ok .directory =>
          refuse ("cannot overwrite directory '" ++ target ++ "' with non-directory")
        | _, old =>
          if Path.endsInSlash target then stuck "Not a directory"
          else
            match old, t.get? here with
            | .error .missing, some e | .ok _, some e => settle ((t.erase here).put there e)
            | .error r, _ => stuck r.reason
            | .ok _, none => stuck "Operation not permitted"
    | _, .error r => stuck r.reason

/-- Moves files and directories. -/
def mv : Utility :=
  withOptions "mv" ⟨"fvinuT", "tS", [("force", 'f'), ("no-clobber", 'n'), ("target-directory", 't'),
    ("verbose", 'v'), ("no-target-directory", 'T')], true⟩ 1 (toTarget "mv" moveOne)

/-! ## Giving names -/

/-- Makes one link, or gives a file one more name. -/
def linkOne (o : Options) (source target : String) : Act Nat := do
  let p ← get
  let soft := o.has 's'
  let refuse (message : String) : Act Nat := do
    Act.complain ("ln: " ++ message)
    return 1
  let tell : Act Nat := do
    if o.has 'v' then
      Act.print ("'" ++ target ++ (if soft then "' -> '" else "' => '") ++ source ++ "'\n")
    return 0
  let kind := if soft then "symbolic link '" else "hard link '"
  let failed (r : Refusal) : Act Nat :=
    let arrow := if r = .present || (soft && !source.isEmpty) then ""
      else if soft then " -> '" ++ source ++ "'" else " => '" ++ source ++ "'"
    refuse ("failed to create " ++ kind ++ target ++ "'" ++ arrow ++ ": " ++ r.reason)
  let node := if o.has 'L' then p.node source else p.nameNode source
  let location := if o.has 'L' then p.locate source else p.locateName source
  let entry : Except (Act Nat) Entry :=
    if soft then
      let path : String :=
        if o.has 'r' then
          match p.locate source, p.locateName target with
          | .ok s, .ok t => relativePath t.dropLast s
          | _, _ => source
        else source
      .ok (.link path)
    else
      match node, location with
      | .error r, _ | _, .error r => .error (refuse ("failed to access '" ++ source ++ "': " ++ r.reason))
      | .ok .directory, _ => .error (refuse (source ++ ": hard link not allowed for directory"))
      | .ok _, .ok l =>
        match p.machine.files.get? l with
        | some e => .ok e
        | none => .error (failed .denied)
  match entry with
  | .error act => act
  | .ok entry =>
    if soft && source.isEmpty then failed .missing
    else
      match p.locateName target with
      | .error r => failed r
      | .ok l =>
        match p.nodeAt target l with
        | .error .missing =>
          if Path.endsInSlash target then failed .missing
          else
            Act.setFiles (p.machine.files.put l entry)
            tell
        | .error r => failed r
        | .ok .directory =>
          if o.has 'f' then refuse (target ++ ": cannot overwrite directory") else failed .present
        | .ok _ =>
          let isItself := (p.locateName source).toOption = some l
          if !o.has 'f' then failed .present
          else if isItself then
            refuse ("'" ++ source ++ "' and '" ++ target ++ "' are the same file")
          else
            Act.setFiles (p.machine.files.put l entry)
            tell

/-- Makes links, and gives files more names. -/
def ln : Utility :=
  withOptions "ln" ⟨"sfnvrTLPib", "tS", [("symbolic", 's'), ("force", 'f'), ("no-dereference", 'n'),
    ("verbose", 'v'), ("relative", 'r'), ("no-target-directory", 'T'), ("target-directory", 't'),
    ("logical", 'L'), ("physical", 'P')], true⟩ 1 (toTarget "ln" linkOne)

/-- Gives a file one more name. -/
def link : Utility := fun args => do
  match args with
  | [] =>
    misuse "link" "missing operand"
    return 1
  | [source] =>
    misuse "link" ("missing operand after '" ++ source ++ "'")
    return 1
  | [source, target] =>
    let p ← get
    let refused (reason : String) : Act Nat := do
      Act.complain ("link: cannot create link '" ++ target ++ "' to '" ++ source ++ "': " ++ reason)
      return 1
    match p.locateName source, p.locateName target with
    | .error r, _ | _, .error r => refused r.reason
    | .ok here, .ok there =>
      match p.machine.files.get? here, p.machine.files.get? there with
      | none, _ => refused "No such file or directory"
      | some .directory, _ => refused "Operation not permitted"
      | _, some _ => refused "File exists"
      | some e, none =>
        Act.setFiles (p.machine.files.put there e)
        return 0
  | _ :: _ :: extra :: _ =>
    misuse "link" ("extra operand '" ++ extra ++ "'")
    return 1

end ParseBench.Utility
