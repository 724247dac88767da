/-
  ParseBench.Host.Utility.Files

  Utilities that make, change and remove files and directories.
-/

import ParseBench.Host.Utility.Names

namespace ParseBench.Utility

/-! ## Making -/

/-- The paths along a path, the last of which is the path itself. -/
def pathsAlong (path : String) : List String :=
  let names := Path.names path
  let lead := if Path.isAbsolute path then "/" else ""
  (List.range names.length).map fun n => lead ++ Text.join "/" (names.take (n + 1))

/-- Makes a directory and those that are missing on the way, for a utility. -/
def makeAlong (utility : String) (tell : String → Act Unit) : List String → Act Nat
  | [] => return 0
  | path :: rest => do
    let p ← get
    if p.isDirectory path then makeAlong utility tell rest
    else
      match p.makeDir path with
      | .ok t =>
        Act.setFiles t
        tell path
        makeAlong utility tell rest
      | .error .present =>
        let refused (message : String) : Act Nat := do
          Act.complain (utility ++ ": " ++ message)
          return 1
        match p.node path with
        | .ok _ =>
          refused ("cannot create directory '" ++ path ++ "': " ++
            (if rest.isEmpty then Refusal.present else .notDirectory).reason)
        | .error .looping => refused ("cannot stat '" ++ path ++ "': " ++ Refusal.looping.reason)
        | .error _ => refused ("cannot create directory '" ++ path ++ "': " ++ Refusal.present.reason)
      | .error r =>
        Act.complain (utility ++ ": cannot create directory '" ++ path ++ "': " ++ r.reason)
        return 1

/-- Makes directories. -/
def mkdir : Utility :=
  withOptions "mkdir" ⟨"pv", "m", [("parents", 'p'), ("mode", 'm'), ("verbose", 'v')], true⟩ 1 fun o => do
    if o.operands.isEmpty then
      misuse "mkdir" "missing operand"
      return 1
    let tell (path : String) : Act Unit := do
      if o.has 'v' then Act.print ("mkdir: created directory '" ++ path ++ "'\n")
    forEach o.operands fun path => do
      if o.has 'p' && !path.isEmpty then makeAlong "mkdir" tell (pathsAlong path)
      else
        match (← get).makeDir path with
        | .ok t =>
          Act.setFiles t
          tell path
          return 0
        | .error r =>
          Act.complain ("mkdir: cannot create directory '" ++ path ++ "': " ++ r.reason)
          return 1

/-- Makes pipes that have names. -/
def mkfifo : Utility :=
  withOptions "mkfifo" ⟨"", "m", [("mode", 'm')], true⟩ 1 fun o => do
    if o.operands.isEmpty then
      misuse "mkfifo" "missing operand"
      return 1
    forEach o.operands fun path => do
      let p ← get
      let refused (r : Refusal) : Act Nat := do
        Act.complain ("mkfifo: cannot create fifo '" ++ path ++ "': " ++ r.reason)
        return 1
      match p.locateName path with
      | .error r => refused r
      | .ok l =>
        match p.nodeAt path l with
        | .ok _ => refused .present
        | .error _ =>
          Act.setFiles (p.machine.files.addPipe l)
          return 0

/-- Makes empty files where there is nothing. -/
def touch : Utility :=
  withOptions "touch" ⟨"camhf", "drt", [("no-create", 'c'), ("date", 'd'), ("reference", 'r'),
    ("no-dereference", 'h')], true⟩ 1 fun o => do
    if o.operands.isEmpty then
      misuse "touch" "missing file operand"
      return 1
    forEach o.operands fun path => do
      let p ← get
      let refused (message : String) (r : Refusal) : Act Nat := do
        Act.complain ("touch: " ++ message ++ " '" ++ path ++ "': " ++ r.reason)
        return 1
      match if o.has 'h' then p.nameNode path else p.node path with
      | .ok _ => return 0
      | .error r =>
        if o.has 'h' then refused "setting times of" r
        else if o.has 'c' && r = .missing then return 0
        else if Path.endsInSlash path && (p.locate path).isOk then refused "setting times of" r
        else
          match p.write path .empty with
          | .ok t =>
            Act.setFiles t
            return 0
          | .error r => refused "cannot touch" r

/-- Makes files as long or as short as is asked for. -/
def truncate : Utility :=
  withOptions "truncate" ⟨"co", "sr", [("size", 's'), ("no-create", 'c'), ("reference", 'r')], true⟩ 1
    fun o => do
      let size := (o.value? 's').getD "0"
      let (sign, digits) : Char × List Char :=
        match size.toList with
        | c :: rest => if c.isDigit then (' ', c :: rest) else (c, rest)
        | [] => (' ', [])
      let unit : Nat :=
        match digits.dropWhile Char.isDigit with
        | ['K'] => 1024
        | ['M'] => 1024 * 1024
        | _ => 1
      let n := Numeral.value 10 digits * unit
      if !o.has 's' && !o.has 'r' then
        misuse "truncate" "you must specify either '--size' or '--reference'"
        return 1
      if o.operands.isEmpty then
        misuse "truncate" "missing file operand"
        return 1
      forEach o.operands fun path => do
        let p ← get
        let old : ByteArray :=
          match p.find path with
          | .ok (.file f) => f.content
          | _ => .empty
        if o.has 'c' && (p.node? path).isNone then return 0
        let wanted :=
          match sign with
          | '+' => old.size + n
          | '-' => old.size - n
          | '<' => min old.size n
          | '>' => max old.size n
          | _ => n
        let filled := old ++ ⟨Array.replicate (wanted - old.size) 0⟩
        match p.write path (filled.extract 0 wanted) with
        | .ok t =>
          Act.setFiles t
          return 0
        | .error r =>
          Act.complain ("truncate: cannot open '" ++ path ++ "' for writing: " ++ r.reason)
          return 1

/-! ## Changing -/

/-- One change of rights, after the letters that say whose rights they are. -/
def isRightsChange (s : List Char) : Bool :=
  match s with
  | sign :: rights =>
    (sign == '+' || sign == '-' || sign == '=') && rights.all fun c =>
      "rwxXstugo+-=".toList.contains c
  | [] => false

/-- Can a mode be read? -/
def isMode (mode : String) : Bool :=
  if mode.all Char.isDigit then !mode.isEmpty && mode.length ≤ 5 && mode.all fun c => c < '8'
  else (Text.splitOn ',' mode).all fun clause =>
    isRightsChange (clause.toList.dropWhile "ugoa".toList.contains)

/-- Changes whether a file may be executed, as a mode says. -/
def modeExecutes (mode : String) (now : Bool) : Bool :=
  if mode.all Char.isDigit then
    mode.toList.any fun c => c.toNat % 2 = 1
  else
    (Text.splitOn ',' mode).foldl (fun now clause =>
      let s := clause.toList.dropWhile Char.isAlpha
      match s with
      | sign :: rights =>
        let names := rights.contains 'x' || (rights.contains 'X' && now)
        if sign = '+' then now || names
        else if sign = '-' then now && !rights.contains 'x'
        else names
      | [] => now) now

/-- Changes the mode of a file. -/
def changeMode (mode : String) (t : FileTree) (f : File) : FileTree :=
  t.update { f with executable := modeExecutes mode f.executable }

/-- Changes the modes of files. -/
def chmod : Utility := fun args => do
  let deep := args.contains "-R"
  match args.filter fun a => a ≠ "-R" && a ≠ "-f" && a ≠ "-v" && a ≠ "-c" && a ≠ "--" with
  | [] =>
    misuse "chmod" "missing operand"
    return 1
  | [mode] =>
    misuse "chmod" ("missing operand after '" ++ mode ++ "'")
    return 1
  | mode :: paths =>
    if !isMode mode then
      misuse "chmod" ("invalid mode: '" ++ mode ++ "'")
      return 1
    forEach paths fun path => do
      let p ← get
      let t := p.machine.files
      match p.node path with
      | .error r =>
        match p.nameNode? path with
        | some (.link _) =>
          if r = .looping then
            Act.complain ("chmod: cannot access '" ++ path ++ "': " ++ r.reason)
            return 1
          Act.complain ("chmod: cannot operate on dangling symlink '" ++ path ++ "'")
          return 1
        | _ =>
          Act.complain ("chmod: cannot access '" ++ path ++ "': " ++ r.reason)
          return 1
      | .ok (.file f) =>
        Act.setFiles (changeMode mode t f)
        return 0
      | .ok .directory =>
        if deep then
          let l := (p.locate path).toOption.getD []
          Act.setFiles ((t.below l).foldl (fun t (_, e) =>
            match e with
            | .file f => changeMode mode t f
            | _ => t) t)
        return 0
      | .ok _ => return 0

/-! ## Removing -/

/-- The lines that tell of what is removed, at most `bound` levels deep. What is in a directory
    goes before it. -/
def removals (t : FileTree) : (bound : Nat) → Location → String → List String
  | 0, _, _ => []
  | bound + 1, l, path =>
    match t.get? l with
    | some .directory =>
      ((t.children l).flatMap fun name =>
        removals t bound (l ++ [name]) (inDirectory path (name.toRaw))) ++
        ["removed directory '" ++ path ++ "'"]
    | _ => ["removed '" ++ path ++ "'"]

/-- Removes files, or also directories with all that is in them. -/
def rm : Utility :=
  withOptions "rm" ⟨"rRfdviI", "", [("recursive", 'r'), ("force", 'f'), ("dir", 'd'), ("verbose", 'v')], true⟩ 1
    fun o => do
      let force := o.has 'f'
      let deep := o.has 'r' || o.has 'R'
      if o.operands.isEmpty then
        if force then return 0
        misuse "rm" "missing operand"
        return 1
      forEach o.operands fun path => do
        let p ← get
        let t := p.machine.files
        let refused (reason : String) : Act Nat := do
          Act.complain ("rm: cannot remove '" ++ path ++ "': " ++ reason)
          return 1
        let removed (l : Location) : Act Nat := do
          if o.has 'v' then
            Act.print (String.join ((removals t (t.entries.length + 1) l path).map (· ++ "\n")))
          Act.setFiles (t.without l)
          return 0
        match p.nameNode path, p.locateName path with
        | .error r, _ =>
          if force && (r = .missing || r = .notDirectory) then return 0 else refused r.reason
        | _, .error r => refused r.reason
        | .ok .directory, .ok l =>
          let name := lastName path
          if deep then
            if name = "." || name = ".." then
              Act.complain ("rm: refusing to remove '.' or '..' directory: skipping '" ++ path ++ "'")
              return 1
            else if l = [] then
              Act.complain "rm: it is dangerous to operate recursively on '/'"
              Act.complain "rm: use --no-preserve-root to override this failsafe"
              return 1
            else if isSlashedLink p path then
              -- what the link leads to is emptied and stays
              Act.setFiles ((t.without l).put l .directory)
              refused "Not a directory"
            else removed l
          else if o.has 'd' && !isSlashedLink p path then
            if (t.children l).isEmpty then removed l else refused "Directory not empty"
          else refused "Is a directory"
        | .ok .program, _ => refused "Operation not permitted"
        | .ok _, .ok l => removed l

/-- Removes one directory, if it is empty. -/
def removeDirectory (tell : Bool) (inner : Bool) (path : String) : Act Nat := do
  let p ← get
  let t := p.machine.files
  if tell then Act.print ("rmdir: removing directory, '" ++ path ++ "'\n")
  let refused (reason : String) : Act Nat := do
    let what := if inner then "failed to remove directory '" else "failed to remove '"
    Act.complain ("rmdir: " ++ what ++ path ++ "': " ++ reason)
    return 1
  match p.nameNode path, p.locateName path with
  | .ok .directory, .ok l =>
    if lastName path = "." then refused "Invalid argument"
    else if isSlashedLink p path then refused "Symbolic link not followed"
    else if l = [] || !(t.children l).isEmpty then refused "Directory not empty"
    else
      Act.setFiles (t.erase l)
      return 0
  | .ok _, _ => refused "Not a directory"
  | .error r, _ => refused r.reason

/-- Removes directories one after the other as long as that is possible. -/
def removeUpwards (tell : Bool) : List String → Act Nat
  | [] => return 0
  | path :: above => do
    if (← removeDirectory tell true path) = 0 then removeUpwards tell above else return 1

/-- Removes empty directories. -/
def rmdir : Utility :=
  withOptions "rmdir" ⟨"pv", "", [("parents", 'p'), ("verbose", 'v')], true⟩ 1 fun o => do
    if o.operands.isEmpty then
      misuse "rmdir" "missing operand"
      return 1
    forEach o.operands fun path => do
      let status ← removeDirectory (o.has 'v') false path
      if status ≠ 0 || !o.has 'p' then return status
      removeUpwards (o.has 'v') (pathsAlong path).dropLast.reverse

/-- Removes one name of a file. -/
def unlink : Utility := fun args => do
  match args with
  | [] =>
    misuse "unlink" "missing operand"
    return 1
  | [path] =>
    let p ← get
    let refused (r : Refusal) : Act Nat := do
      Act.complain ("unlink: cannot unlink '" ++ path ++ "': " ++ r.reason)
      return 1
    match p.nameNode path, p.locateName path with
    | .ok .directory, _ => refused (if isSlashedLink p path then .notDirectory else .directory)
    | .ok _, .ok l =>
      Act.setFiles (p.machine.files.erase l)
      return 0
    | .error r, _ | _, .error r => refused r
  | _ :: extra :: _ =>
    misuse "unlink" ("extra operand '" ++ extra ++ "'")
    return 1

/-! ## Comparing -/

/-- A byte as a character that can be seen. -/
def visibleByte (c : Char) : String :=
  let n := c.toNat
  let plain (n : Nat) : String :=
    if n < 32 then String.ofList ['^', Char.ofNat (n + 64)]
    else if n = 127 then "^?"
    else String.singleton (Char.ofNat n)
  if n < 128 then plain n else "M-" ++ plain (n - 128)

/-- A byte in octal digits. -/
def octalByte (c : Char) : String :=
  let digits := Nat.toDigits 8 c.toNat
  String.ofList (List.replicate (3 - digits.length) ' ' ++ digits)

/-- How many bytes are passed over at the beginnings of two files. -/
def passedOver? (s : String) : Option (Nat × Nat) :=
  let size? (s : String) : Option Nat :=
    let digits := s.toList.takeWhile Char.isDigit
    let unit? :=
      ([("", 1), ("kB", 1000), ("K", 1024), ("k", 1024), ("MB", 1000000), ("M", 1048576)] : List (String × Nat)).lookup
        (String.ofList (s.toList.drop digits.length))
    if digits.isEmpty then none else unit?.map (Numeral.value 10 digits * ·)
  match Text.splitOn ':' s with
  | [both] => (size? both).map fun n => (n, n)
  | [left, right] => (size? left).bind fun a => (size? right).map fun b => (a, b)
  | _ => none

/-- Says by its status whether two files are the same. -/
def cmp : Utility :=
  withOptions "cmp" ⟨"slb", "ni", [("quiet", 's'), ("silent", 's'), ("verbose", 'l'), ("print-bytes", 'b'),
    ("bytes", 'n'), ("ignore-initial", 'i')], true⟩ 2 fun o => do
    let wrong (message : String) : Act Nat := do
      misuse "cmp" message
      return 2
    let limit := (o.value? 'n').map passedOver?
    match o.operands with
    | [] => wrong "missing operand after 'cmp'"
    | left :: more =>
      let right := more.headD "-"
      -- what is passed over may also be said by operands
      let passed : Except String (Nat × Nat) := do
        let read (s : String) : Except String (Nat × Nat) :=
          (passedOver? s).elim (.error ("invalid --ignore-initial value '" ++ s ++ "'")) .ok
        match o.value? 'i', more.drop 1 with
        | some s, _ => read s
        | none, [] => return (0, 0)
        | none, [first] => return ((← read first).1, 0)
        | none, first :: second :: _ => return ((← read first).1, (← read second).1)
      match passed, limit, more.drop 3 with
      | .error message, _, _ => wrong message
      | _, some none, _ => wrong ("invalid --bytes value '" ++ (o.value? 'n').getD "" ++ "'")
      | _, _, extra :: _ => wrong ("extra operand '" ++ extra ++ "'")
      | .ok passed, limit, [] =>
        -- with a status alone nothing is said of what cannot be read either
        let content (path : String) : Act (Option String) := do
          if !o.has 's' then contentOf? "cmp" path
          else return (← Act.readFile (if path = "-" then "/dev/stdin" else path)).toOption
        match ← content left, ← content right with
        | some a, some b =>
          let looked (s : String) (passed : Nat) : List Char :=
            let rest := s.toList.drop passed
            match limit with
            | some (some n) => rest.take n.1
            | _ => rest
          let a := looked a passed.1
          let b := looked b passed.2
          if a = b then return 0
          if o.has 's' then return 1
          let sayEnd : Act Unit := do
            let shorter := if a.length < b.length then left else right
            let end? := if a.length < b.length then a else b
            let isWhole := end?.getLast? = some '\n'
            Act.complain ("cmp: EOF on " ++ shorter ++
              (if end?.isEmpty then " which is empty"
              else " after byte " ++ toString end?.length ++
                (if o.has 'l' then ""
                else if isWhole then ", line " ++ toString (end?.count '\n')
                else ", in line " ++ toString (end?.count '\n' + 1))))
          if o.has 'l' && a.length ≠ b.length then sayEnd
          let same := ((a.zip b).takeWhile fun (x, y) => x == y).map Prod.fst
          let line := toString (same.count '\n' + 1)
          let isPrefixed := same.length = a.length || same.length = b.length
          if o.has 'l' then
            let width := (toString (min a.length b.length)).length
            for ((x, y), i) in (a.zip b).zipIdx do
              if x ≠ y then
                let place := toString (i + 1)
                let shown (c : Char) : String := octalByte c ++ if o.has 'b' then " " ++ visibleByte c else ""
                let first := shown x
                let gap := if o.has 'b' then String.ofList (List.replicate (9 - first.length) ' ') else " "
                Act.print (String.ofList (List.replicate (width - place.length) ' ') ++ place ++ " " ++
                  first ++ gap ++ shown y ++ "\n")
          else if !isPrefixed then
            let bytes :=
              match o.has 'b', a[same.length]?, b[same.length]? with
              | true, some x, some y =>
                " is " ++ octalByte x ++ " " ++ visibleByte x ++ " " ++ octalByte y ++ " " ++ visibleByte y
              | _, _, _ => ""
            Act.print (left ++ " " ++ right ++ " differ: " ++ (if o.has 'b' then "byte " else "char ") ++
              toString (same.length + 1) ++ ", line " ++ line ++ bytes ++ "\n")
          if isPrefixed && !o.has 'l' then sayEnd
          return 1
        | _, _ => return 2

end ParseBench.Utility
