import Boardwright.FileTree.Walk

/-!
# Directories

Directories are made, listed and removed through their paths.  Making a directory with all directories
above it, and removing one with everything in it, are done in many steps; what was done before a fault
stays.

* **`FileTree.createDirectory`**: one directory, in a directory that exists.
* **`FileTree.createDirectories`**: a directory, and those above it that are missing.
* **`FileTree.list`**: the entries of a directory.
* **`FileTree.remove`**: the tree without a directory and everything in it.
-/

namespace Boardwright.FileTree

/-- Makes a directory where there is nothing. -/
def createDirectory (t : FileTree) (p : Path) : Except IoFault FileTree := do
  let found ← t.reach p
  match found.node with
  | some _ => throw .alreadyExists
  | none => return t.set found.location .directory

/-- Makes a directory unless there is one. -/
def ensureDirectory (t : FileTree) (p : Path) : FileTree × Except IoFault Unit :=
  match t.createDirectory p with
  | .ok made => (made, .ok ())
  | .error fault => (t, if t.isDirectory p then .ok () else .error fault)

/-- Makes a directory that is at most `depth` levels deep, after the one above it if that is missing. -/
def createUpward : Nat → Path → FileTree → FileTree × Except IoFault Unit
  | 0, p, t => t.ensureDirectory p
  | depth + 1, p, t =>
    if p.text.isEmpty then (t, .ok ())
    else
      match t.ensureDirectory p with
      | (t, .error .notFound) =>
        match p.parent? with
        | none => (t, .error .notFound)
        | some above =>
          match createUpward depth above t with
          | (t, .ok ()) => t.ensureDirectory p
          | failed => failed
      | done => done

/-- Makes a directory and all directories above it that are missing.  Every level of a path has at least
one character. -/
def createDirectories (t : FileTree) (p : Path) : FileTree × Except IoFault Unit :=
  createUpward (p.text.length + 1) p t

/-- The entries of a directory, by increasing names. -/
def list (t : FileTree) (p : Path) : Except IoFault (List (String × Node)) := do
  let found ← t.reach p
  found.enter
  return found.inner.children

/-- Removes the entry of a directory that is empty.  Dots and the root are no entries. -/
def removeEntry (t : FileTree) (p : Path) : Except IoFault FileTree := do
  let above ← t.reachAbove p
  match p.steps.getLast? with
  | none => throw .busy
  | some name =>
    if name = "." then throw .invalidInput
    else if name = ".." then throw .notEmpty
    else return t.erase (name :: above)

/-- Removes a directory, first everything in it and then its entry.  The path may have led through what
was in it; then no entry is left to remove. -/
def remove (t : FileTree) (p : Path) : FileTree × Except IoFault Unit :=
  match t.reach p with
  | .error fault => (t, .error fault)
  | .ok found =>
    match found.enter with
    | .error fault => (t, .error fault)
    | .ok () =>
      let emptied := t.clear found.location
      match emptied.removeEntry p with
      | .ok removed => (removed, .ok ())
      | .error .notFound => (emptied, .ok ())
      | .error fault => (emptied, .error fault)

end Boardwright.FileTree
