/-
  ParseBench.Main

  The program as a process: it takes the files below the working directory into
  the tree to work on, runs the command line on it, and writes back what has
  changed.
-/

import ParseBench.CommandLine.Reading
import ParseBench.Files.Glob
import ParseBench.Host.System
import ParseBench.Json.Reading

open ParseBench

/-- What the program is built with. -/
def libraries : Libraries where
  json := Json.Tree.ofText?
  glob := Glob.reader
  commandLine := CommandLine.reader

/-! ## Reading -/

/-- Adds a directory entry and what is below it to a tree. A file that begins like a script
    may be executed. What leads nowhere is left out. -/
partial def addEntry (tree : FileTree) (above : Location) (entry : IO.FS.DirEntry) : IO FileTree := do
  let here := above ++ [FileName.ofText entry.fileName]
  if ← entry.path.isDir then
    let mut tree := tree.put here .directory
    for next in ← entry.path.readDir do
      tree ← addEntry tree here next
    return tree
  else if ← entry.path.pathExists then
    let content ← IO.FS.readBinFile entry.path
    return tree.addFile here content (content.toList.take 2 == "#!".toUTF8.toList)
  else return tree

/-- The tree with what is below the working directory. -/
def readTree : IO FileTree := do
  let mut tree := Machine.freshFiles
  for entry in ← (← IO.currentDir).readDir do
    tree ← addEntry tree tree.here entry
  return tree

/-- The rest of a stream. -/
partial def readAll (stream : IO.FS.Stream) (before : ByteArray) : IO ByteArray := do
  let bytes ← stream.read 65536
  if bytes.isEmpty then return before
  else readAll stream (before ++ bytes)

/-- The variables of the environment that options can come from. -/
def readEnvironment : IO Environment := do
  let arguments := CommandLine.commands.flatMap fun c => c.2.1.options
  let mut found := []
  for name in (arguments.filterMap CommandLine.Argument.envName).eraseDups do
    match ← IO.getEnv name with
    | some value => found := found ++ [(name, value)]
    | none => pure ()
  return found

/-! ## Writing -/

/-- Brings the working directory from one tree to another. Links and pipes are of the machine
    alone. -/
def writeChanges (before after : FileTree) : IO Unit := do
  let path (l : Location) : String := Text.join "/" (l.map FileName.shown)
  for (l, e) in after.below after.here do
    match e, before.get? (before.here ++ l) with
    | .directory, some .directory => pure ()
    | .directory, _ => IO.FS.createDirAll (path l)
    | .file f, old =>
      let isSame := match old with
        | some (.file g) => f.content == g.content
        | _ => false
      if !isSame then IO.FS.writeBinFile (path l) f.content
    | _, _ => pure ()
  for (l, e) in before.below before.here do
    if after.get? (after.here ++ l) = none && e ≠ .directory then IO.FS.removeFile (path l)

/-! ## The process -/

/-- The command line runs on the working directory. Events that deserve attention go to
    the standard error. -/
def main (words : List String) : IO UInt32 := do
  let environment ← readEnvironment
  match CommandLine.parse libraries.commandLine environment words with
  | .error usage =>
    IO.print usage.output
    if usage.exitCode ≠ 0 then IO.eprintln usage.message
    return UInt32.ofNat usage.exitCode
  | .ok command =>
    let self := toString (← IO.appPath)
    let tree ← readTree
    let input ← if command.readsInput then readAll (← IO.getStdin) .empty else pure .empty
    let host : Host := ⟨libraries, self, environment⟩
    let start := Schedule.start.withFiles tree []
    let (status, s) :=
      CommandLine.perform libraries self (host.runner Host.maxDepth) command (start.session input start)
    let stdout ← IO.getStdout
    stdout.write s.output
    writeChanges tree s.files
    for e in Event.select .info s.events do
      IO.eprintln e.line
    return UInt32.ofNat status
