import Boardwright.Text.Lines

/-!
# Paths

A path is a text with slashes.  Joining never tidies a path up; only looking at the parts of a path
skips repeated slashes and dots.

* **`Path.join`**: a path below another one.
* **`Path.parent?`**, **`Path.fileName?`**, **`Path.fileStem?`**: the parts of a path.
* **`isPlainName`**: the texts that name a single entry of a directory.
-/

namespace Boardwright

/-- A path to a file or a directory. -/
structure Path where
  /-- The path as it is written. -/
  text : String
  deriving DecidableEq, Repr

namespace Path

/-- The last character of a path is a slash. -/
def endsInSlash (p : Path) : Bool :=
  p.text.toList.getLast? == some '/'

/-- Whether a text is an absolute path. -/
def isAbsoluteText (s : String) : Bool :=
  s.toList.head? == some '/'

/-- The path `part` below `p`.  An absolute part replaces the path; otherwise one slash is put between
the two, unless there is nothing before it or a slash already. -/
def join (p : Path) (part : String) : Path :=
  if isAbsoluteText part then ⟨part⟩
  else if p.text.isEmpty || p.endsInSlash then ⟨p.text ++ part⟩
  else ⟨p.text ++ "/" ++ part⟩

/-- The pieces of a path between its slashes, without the one before the slash of the root. -/
def pieces (p : Path) : List String :=
  let all := Text.splitOn '/' p.text
  if isAbsoluteText p.text then all.drop 1 else all

/-- The pieces without the empty ones and the dots at the end.  A dot that is the whole of a relative
path stays. -/
def dropIdle (absolute : Bool) (ps : List String) : List String :=
  let idle := fun s : String => s == "" || s == "."
  let kept := (ps.reverse.dropWhile idle).reverse
  if kept.isEmpty && !absolute && ps.head? == some "." then ["."] else kept

/-- The pieces up to the last one that counts. -/
def body (p : Path) : List String :=
  dropIdle (isAbsoluteText p.text) p.pieces

/-- The path without its last part, or nothing when there is no part. -/
def parent? (p : Path) : Option Path :=
  let absolute := isAbsoluteText p.text
  let ps := p.body
  if ps.isEmpty then none
  else
    let rest := "/".intercalate (dropIdle absolute ps.dropLast)
    some ⟨if absolute then "/" ++ rest else rest⟩

/-- The last part of a path, if it is the name of an entry. -/
def fileName? (p : Path) : Option String :=
  match p.body.getLast? with
  | some name => if name == "." || name == ".." || name == "" then none else some name
  | none => none

/-- A name without its last extension; a dot at the start begins no extension. -/
def stemOf (name : String) : String :=
  let cs := name.toList
  let before := (cs.reverse.dropWhile (· != '.')).drop 1
  if before.isEmpty then name else String.ofList before.reverse

/-- The last part of a path without its extension. -/
def fileStem? (p : Path) : Option String :=
  p.fileName?.map stemOf

end Path

/-- Whether a text names a single entry of a directory. -/
def isPlainName (s : String) : Bool :=
  s != "" && s != "." && s != ".." && !s.toList.contains '/'

end Boardwright
