import Boardwright.FileTree
import Boardwright.Path

/-!
# Walking along a path

A path is walked piece by piece.  Each piece is looked up in a directory, so everything that a path
passes must be a directory that exists, also where two dots lead back at once.  There are no links.
Directories can be entered and changed and files can be read, whoever asks.

* **`IoFault`**: what can go wrong with a path.
* **`Place`**: a location and what is there.
* **`FileTree.step`**: one piece of a path.
* **`FileTree.reach`**: where a path leads to.  What the last piece names need not exist.
* **`walk_place`**: walking leads from place to place of one tree.
* **`start_join`**, **`steps_join`**: joining a plain name adds one step.
-/

namespace Boardwright

/-- What can go wrong with a file or a directory. -/
inductive IoFault where
  | notFound
  | isADirectory
  | notADirectory
  | alreadyExists
  /-- The path of a directory to remove ends in two dots. -/
  | notEmpty
  /-- The root is to be removed. -/
  | busy
  /-- The file does not hold text. -/
  | invalidData
  /-- The path has a character that no path can have, or that of a directory to remove ends in a dot. -/
  | invalidInput
  /-- The path or one of its names is longer than a file system allows. -/
  | nameTooLong
  /-- The file is protected against writing. -/
  | permissionDenied
  deriving DecidableEq, Repr

/-- The text that stands for a fault in a chain of causes. -/
def IoFault.message : IoFault → String
  | .notFound => "<io:NotFound>"
  | .isADirectory => "<io:IsADirectory>"
  | .notADirectory => "<io:NotADirectory>"
  | .alreadyExists => "<io:AlreadyExists>"
  | .notEmpty => "<io:DirectoryNotEmpty>"
  | .busy => "<io:ResourceBusy>"
  | .invalidData => "<io:InvalidData>"
  | .invalidInput => "<io:InvalidInput>"
  | .nameTooLong => "<io:InvalidFilename>"
  | .permissionDenied => "<io:PermissionDenied>"

namespace Path

/-- The longest path in bytes. -/
def maxBytes : Nat := 4095

/-- The longest name of an entry in bytes. -/
def maxNameBytes : Nat := 255

/-- Refuses texts that are no path, whatever there is. -/
def check (p : Path) : Except IoFault Unit :=
  if '\x00' ∈ p.text.toList then .error .invalidInput
  else if p.text.isEmpty then .error .notFound
  else if maxBytes < p.text.utf8ByteSize then .error .nameTooLong
  else .ok ()

/-- Where a path starts: at the root or in the working directory. -/
def start (p : Path) : Location :=
  if isAbsoluteText p.text then Location.root else []

/-- The pieces of a path that are walked: all between its slashes that are not empty. -/
def steps (p : Path) : List String :=
  (Text.splitOn '/' p.text).filter (· != "")

end Path

/-- A location and what is there. -/
structure Place where
  /-- The location. -/
  location : Location
  /-- The entry at the location. -/
  node : Option Node
  /-- The tree below the location. -/
  inner : FileTree

namespace Place

/-- Checks that a place is a directory. -/
def enter (p : Place) : Except IoFault Unit :=
  match p.node with
  | none => .error .notFound
  | some (.file _) => .error .notADirectory
  | some .directory => .ok ()

/-- The place with a name below another one. -/
def down (p : Place) (name : String) : Place where
  location := name :: p.location
  node := if Location.isAnchor (name :: p.location) then some .directory else p.inner.node? name
  inner := p.inner.under name

end Place

namespace FileTree

/-- The place at a location of a tree. -/
def place (t : FileTree) (l : Location) : Place := ⟨l, t.get? l, t.inside l⟩

/-- One step from a directory: a dot stays, two dots go up, and a name goes down. -/
def step (t : FileTree) (p : Place) (piece : String) : Except IoFault Place :=
  match p.enter with
  | .error fault => .error fault
  | .ok () =>
    if piece = "." then .ok p
    else if piece = ".." then .ok (t.place p.location.up)
    else if Path.maxNameBytes < piece.utf8ByteSize then .error .nameTooLong
    else .ok (p.down piece)

/-- Where the pieces of a path lead from a place. -/
def walk (t : FileTree) (p : Place) (pieces : List String) : Except IoFault Place :=
  pieces.foldlM t.step p

/-- Where a path leads to. -/
def reach (t : FileTree) (p : Path) : Except IoFault Place := do
  p.check
  t.walk (t.place p.start) p.steps

/-- The directory that the last step of a path is taken from. -/
def reachAbove (t : FileTree) (p : Path) : Except IoFault Location := do
  p.check
  let above ← t.walk (t.place p.start) p.steps.dropLast
  above.enter
  return above.location

/-- Whether a path leads to a directory. -/
def isDirectory (t : FileTree) (p : Path) : Bool :=
  match t.reach p with
  | .ok found => found.node == some .directory
  | .error _ => false

/-- Whether a path leads to a file.  Behind a slash there is none. -/
def isFile (t : FileTree) (p : Path) : Bool :=
  match t.reach p with
  | .ok found =>
    match found.node with
    | some (.file _) => !p.endsInSlash
    | _ => false
  | .error _ => false

/-- Whether a path leads to anything. -/
def hasEntry (t : FileTree) (p : Path) : Bool :=
  t.isDirectory p || t.isFile p

/-! ### Laws of walking -/

/-- Going down leads to the place at the location below. -/
theorem down_place (t : FileTree) (l : Location) (name : String) :
    (t.place l).down name = t.place (name :: l) := rfl

/-- A step from a place of a tree leads to a place of the tree. -/
theorem step_place {t : FileTree} {l : Location} {piece : String} {q : Place}
    (h : t.step (t.place l) piece = .ok q) : q = t.place q.location := by
  unfold step at h
  split at h
  · simp at h
  · split at h
    · obtain rfl := Except.ok.inj h; rfl
    · split at h
      · obtain rfl := Except.ok.inj h; rfl
      · split at h
        · simp at h
        · obtain rfl := Except.ok.inj h; rfl

/-- A walk from a place of a tree leads to a place of the tree. -/
theorem walk_place {t : FileTree} {l : Location} {pieces : List String} {q : Place}
    (h : t.walk (t.place l) pieces = .ok q) : q = t.place q.location := by
  induction pieces generalizing l with
  | nil => obtain rfl := Except.ok.inj h; rfl
  | cons piece pieces ih =>
    simp only [walk, List.foldlM_cons, bind, Except.bind] at h
    split at h
    · simp at h
    · next r hr =>
      rw [step_place hr] at h
      exact ih h

/-- A walk can be interrupted anywhere. -/
theorem walk_append (t : FileTree) (p : Place) (ps qs : List String) :
    t.walk p (ps ++ qs) = t.walk p ps >>= fun q => t.walk q qs := by
  simp [walk, List.foldlM_append]

/-- A plain name goes down one level. -/
theorem step_of_isPlainName {t : FileTree} {p q : Place} {name : String}
    (h : isPlainName name = true) (hq : t.step p name = .ok q) : q = p.down name := by
  simp only [isPlainName, Bool.and_eq_true, bne_iff_ne, ne_eq] at h
  obtain ⟨⟨⟨-, hdot⟩, hdots⟩, -⟩ := h
  unfold step at hq
  split at hq
  · simp at hq
  · rw [if_neg hdot, if_neg hdots] at hq
    split at hq
    · simp at hq
    · exact (Except.ok.inj hq).symm

/-- Plain names lead straight down. -/
theorem walk_of_isPlainName {t : FileTree} {p q : Place} {names : List String}
    (h : names.all isPlainName = true) (hq : t.walk p names = .ok q) :
    q.location = names.reverse ++ p.location := by
  induction names generalizing p with
  | nil => obtain rfl := Except.ok.inj hq; rfl
  | cons name names ih =>
    simp only [List.all_cons, Bool.and_eq_true] at h
    simp only [walk, List.foldlM_cons, bind, Except.bind] at hq
    split at hq
    · simp at hq
    · next r hr =>
      rw [ih h.2 hq, step_of_isPlainName h.1 hr]
      simp [Place.down]

/-- A directory lies where its path leads to. -/
theorem exists_walk_of_isDirectory {t : FileTree} {p : Path} (h : t.isDirectory p = true) :
    ∃ q, t.walk (t.place p.start) p.steps = .ok q ∧ q.node = some .directory := by
  unfold isDirectory at h
  split at h
  · next q hq =>
    simp only [reach, bind, Except.bind] at hq
    split at hq
    · simp at hq
    · exact ⟨q, hq, by simpa using h⟩
  · simp at h

end FileTree

/-! ### Laws of joining -/

/-- A plain name has no slash. -/
theorem slash_not_mem_of_isPlainName {name : String} (h : isPlainName name = true) :
    '/' ∉ name.toList := by
  simp only [isPlainName, Bool.and_eq_true, Bool.not_eq_true', List.contains_eq_mem,
    decide_eq_false_iff_not] at h
  exact h.2

/-- A plain name is no absolute path. -/
theorem isAbsoluteText_of_isPlainName {name : String} (h : isPlainName name = true) :
    Path.isAbsoluteText name = false := by
  have hmem := slash_not_mem_of_isPlainName h
  cases hn : name.toList with
  | nil => simp [Path.isAbsoluteText, hn]
  | cons c cs =>
    have : c ≠ '/' := fun hc => hmem (by simp [hn, hc])
    simp [Path.isAbsoluteText, hn, this]

namespace Path

/-- A path starts where its beginning starts. -/
theorem start_append {s : String} (t : String) (h : s ≠ "") :
    (⟨s ++ t⟩ : Path).start = (⟨s⟩ : Path).start := by
  have hs : s.toList ≠ [] := fun hs => h (String.toList_injective (by simpa using hs))
  cases hl : s.toList with
  | nil => exact absurd hl hs
  | cons c cs => simp [start, isAbsoluteText, hl]

/-- Joining a relative path keeps the start of a path. -/
theorem start_join_of_relative (p : Path) {part : String} (h : isAbsoluteText part = false) :
    (p.join part).start = p.start := by
  obtain ⟨text⟩ := p
  rw [join, if_neg (by simp [h])]
  by_cases hempty : text = ""
  · subst hempty
    rw [if_pos (by simp)]
    simp only [start, String.empty_append, h]
    rfl
  · by_cases hslash : endsInSlash ⟨text⟩ = true
    · rw [if_pos (by simp [hslash]), start_append part hempty]
    · rw [if_neg (by simp [hempty, hslash]), String.append_assoc, start_append _ hempty]

/-- Joining a plain name keeps the start of a path. -/
theorem start_join (p : Path) {name : String} (h : isPlainName name = true) :
    (p.join name).start = p.start :=
  start_join_of_relative p (isAbsoluteText_of_isPlainName h)

/-- The steps of a path, as lists of characters. -/
theorem steps_eq (p : Path) :
    p.steps = ((Text.splitChars '/' p.text.toList).filter (· != [])).map String.ofList := by
  rw [steps, Text.splitOn, List.filter_map]
  congr 1
  apply List.filter_congr
  intro cs _
  by_cases h : cs = []
  · simp [h]
  · have hs : String.ofList cs ≠ "" := fun hc => h (by simpa using congrArg String.toList hc)
    simp [h, bne, beq_eq_false_iff_ne.2 hs]

/-- Joining a relative path adds its steps. -/
theorem steps_join_of_relative (p : Path) {part : String} (h : isAbsoluteText part = false) :
    (p.join part).steps = p.steps ++ (⟨part⟩ : Path).steps := by
  obtain ⟨text⟩ := p
  rw [join, if_neg (by simp [h])]
  by_cases hempty : text = ""
  · subst hempty
    rw [if_pos (by simp), steps_eq, steps_eq, steps_eq]
    simp [Text.splitChars]
  · by_cases hslash : endsInSlash ⟨text⟩ = true
    · rw [if_pos (by simp [hslash]), steps_eq, steps_eq, steps_eq]
      obtain ⟨cs, hcs⟩ : ∃ cs, text.toList = cs ++ ['/'] := by
        simp only [endsInSlash, beq_iff_eq] at hslash
        exact List.getLast?_eq_some_iff.1 hslash
      simp [hcs, Text.splitChars_append_sep, Text.splitChars]
    · rw [if_neg (by simp [hempty, hslash]), steps_eq, steps_eq, steps_eq]
      simp [Text.splitChars_append_sep]

/-- A plain name is one step. -/
theorem steps_of_isPlainName {name : String} (h : isPlainName name = true) :
    (⟨name⟩ : Path).steps = [name] := by
  have hname : Text.splitChars '/' name.toList = [name.toList] :=
    Text.splitChars_of_not_mem (slash_not_mem_of_isPlainName h)
  have hne : name ≠ "" := by
    simp only [isPlainName, Bool.and_eq_true, bne_iff_ne, ne_eq] at h
    exact h.1.1.1
  simp [steps_eq, hname, hne]

/-- Joining a plain name adds one step. -/
theorem steps_join (p : Path) {name : String} (h : isPlainName name = true) :
    (p.join name).steps = p.steps ++ [name] := by
  rw [steps_join_of_relative p (isAbsoluteText_of_isPlainName h), steps_of_isPlainName h]

end Path

end Boardwright
