import Boardwright.CommandLine

/-!
# The program

The program reads the files that a build can touch into a file tree, runs the command line on it, and
brings the disk in line with the result.
-/

namespace Boardwright.Program

/-- Reads a file, and tries whether it can be written. -/
def readFile (path : String) : IO Node := do
  let content ← IO.FS.readBinFile path
  let locked ←
    try
      let _ ← IO.FS.Handle.mk path .append
      pure false
    catch _ => pure true
  return .file { content, locked }

/-- Writes a file.  It can be read by everybody, also if it is protected. -/
def writeFile (path : String) (file : File) : IO Unit := do
  IO.FS.writeBinFile path file.content
  if file.locked then
    let reading : IO.AccessRight := { read := true }
    IO.setAccessRights path { user := reading, group := reading, other := reading }

/-- Reads an entry of a directory, with everything below it. -/
partial def gather (l : Location) (entry : IO.FS.DirEntry) : IO (List (Location × Node)) := do
  let here := entry.fileName :: l
  if ← entry.path.isDir then
    let mut found := [(here, Node.directory)]
    for child in ← entry.path.readDir do
      found := found ++ (← gather here child)
    return found
  else
    return [(here, ← readFile entry.path.toString)]

/-- The path of a location on the disk. -/
def diskPath (l : Location) : String :=
  match l.outermostFirst with
  | [] => "."
  | "/" :: names => "/" ++ "/".intercalate names
  | names => "/".intercalate names

/-- The location that a path leads to, and before it those that it passes, whatever there is. -/
def passed (path : Path) : Location × List Location :=
  path.steps.foldl (fun (l, before) piece =>
    let next := if piece == "." then l else if piece == ".." then l.up else piece :: l
    (next, before ++ [next])) (path.start, [])

/-- Reads what a path passes, the entry that it leads to, and everything below that. -/
def gatherPath (tree : FileTree) (path : Path) : IO FileTree := do
  let mut tree := tree
  let here ← IO.currentDir
  let (last, locations) := passed path
  for l in locations do
    let current := here / diskPath l
    unless l.isAnchor do
      if ← current.isDir then
        tree := tree.set l .directory
      else if ← current.pathExists then
        tree := tree.set l (← readFile current.toString)
  let current := here / diskPath last
  if ← current.isDir then
    for child in ← current.readDir do
      for (l, node) in ← gather last child do
        tree := tree.set l node
  return tree

/-- Removes what is in the first file tree and not in the second, what lies deepest first. -/
def removeGone (before after : FileTree) : IO Unit := do
  let gone := before.entries.filter fun e => (after.get? e.1).isNone
  for (l, node) in gone.mergeSort fun a b => decide (b.1.length ≤ a.1.length) do
    match node with
    | .directory => IO.FS.removeDir (diskPath l)
    | .file _ => IO.FS.removeFile (diskPath l)

/-- Writes what is new or different in the second file tree, directories before what they hold. -/
def writeChanges (before after : FileTree) : IO Unit := do
  for (l, node) in after.entries.mergeSort fun a b => decide (a.1.length ≤ b.1.length) do
    unless before.get? l == some node do
      match node with
      | .directory => IO.FS.createDirAll (diskPath l)
      | .file file => writeFile (diskPath l) file

/-- Reads the files that the options name. -/
def readTree (options : CommandLine.Options) : IO FileTree := do
  let mut tree : FileTree := .empty
  if let some path := options.config then
    tree ← gatherPath tree path
  match CommandLine.configured options tree with
  | .error _ => return tree
  | .ok (modules, settings) =>
    for path in [settings.projectFile, modules, settings.libraryDirectory] do
      tree ← gatherPath tree path
    return tree

end Boardwright.Program

open Boardwright in
/-- Runs the command line on the files of the disk. -/
def main (args : List String) : IO UInt32 := do
  let before ←
    match CommandLine.parse args with
    | .build options => Program.readTree options
    | _ => pure .empty
  let chance ← IO.rand 0 16777215
  let session := CommandLine.run chance args before
  Program.removeGone before session.tree
  Program.writeChanges before session.tree
  IO.print session.stdout
  if let some message := session.error then
    IO.eprintln ("error: " ++ message)
  if session.exitCode == 2 then
    IO.eprintln "Usage: acp-build [OPTIONS]"
  return UInt32.ofNat session.exitCode
