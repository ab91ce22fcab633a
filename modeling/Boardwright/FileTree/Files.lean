import Boardwright.FileTree.Walk

/-!
# Files

Files are read, written and copied through their paths.  A file can be written wherever its directory
exists, no directory is in its place and no file there is protected.  A copy is protected if the file
that it was made of is.

* **`FileTree.file`**: the file that a path leads to.
* **`FileTree.read`**, **`FileTree.readText`**: the content of a file.
* **`FileTree.target`**: where a file can be written.
* **`FileTree.write`**, **`FileTree.copy`**: the tree with a written file.
-/

namespace Boardwright.FileTree

/-- The file that a path leads to.  A slash at the end asks for a directory. -/
def file (t : FileTree) (p : Path) : Except IoFault File := do
  let found ← t.reach p
  match found.node with
  | none => throw .notFound
  | some .directory => throw .isADirectory
  | some (.file file) => if p.endsInSlash then throw .notADirectory else return file

/-- The bytes of a file. -/
def read (t : FileTree) (p : Path) : Except IoFault ByteArray :=
  (t.file p).map File.content

/-- The text of a file. -/
def readText (t : FileTree) (p : Path) : Except IoFault String := do
  let bytes ← t.read p
  match String.fromUTF8? bytes with
  | some text => return text
  | none => throw .invalidData

/-- The location at which a file can be written.  A path that ends in a slash leads to no file, whatever
its last name is. -/
def target (t : FileTree) (p : Path) : Except IoFault Location := do
  if p.endsInSlash then
    let _ ← t.reachAbove p
    throw .isADirectory
  else
    let found ← t.reach p
    match found.node with
    | some .directory => throw .isADirectory
    | some (.file file) => if file.locked then throw .permissionDenied else return found.location
    | none => return found.location

/-- Writes a file, in a directory that exists. -/
def write (t : FileTree) (p : Path) (content : ByteArray) : Except IoFault FileTree := do
  let l ← t.target p
  return t.set l (.file content)

/-- Copies a file with its protection.  The target is emptied before the bytes are copied, so a file that
is copied onto itself ends up empty. -/
def copy (t : FileTree) (source target : Path) : Except IoFault FileTree := do
  let file ← t.file source
  let origin ← t.reach source
  let l ← t.target target
  return t.set l (.file (if l = origin.location then { file with content := ByteArray.empty } else file))

end Boardwright.FileTree
