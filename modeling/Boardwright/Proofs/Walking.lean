import Boardwright.FileTree.Directories
import Boardwright.FileTree.Files
import Boardwright.Proofs.FallibleSteps

/-!
# Where paths lead

A walk carries a place with it: a location, its entry and the tree below.  Where the walk ends depends
on the names alone, and whether it gets there depends on the entries alone.  Here the two questions
are taken apart, so that walks in different trees can be compared.

* **`Path.destination`**: the location that a path leads to, in any tree.
* **`Passable`**: nothing is in the way of a path, said by the entries of a tree.
* **`walk_eq_ok_iff`**, **`reach_eq_ok_iff`**: a walk in these terms.
* **`passable_congr`**: trees with the same entries have the same walks.
* **`isFile_iff`**, **`list_eq_ok_iff`**, **`file_eq_ok_iff`**, **`read_eq_ok_iff`**,
  **`target_eq_ok_iff`**: what is found at the end of a path, in these terms.
-/

namespace Boardwright

/-- The location that one piece of a path leads to. -/
def Location.next (l : Location) (piece : String) : Location :=
  if piece = "." then l else if piece = ".." then l.up else piece :: l

/-- The location that a path leads to. -/
def Path.destination (p : Path) : Location := p.steps.foldl Location.next p.start

theorem Location.next_of_name {piece : String} (l : Location) (hdot : piece ≠ ".")
    (hdots : piece ≠ "..") : l.next piece = piece :: l := by
  rw [Location.next, if_neg hdot, if_neg hdots]

namespace Path

theorem destination_of_getLast? {p : Path} {name : String} (h : p.steps.getLast? = some name) :
    p.destination = (p.steps.dropLast.foldl Location.next p.start).next name := by
  obtain ⟨before, hsteps⟩ := List.getLast?_eq_some_iff.1 h
  rw [destination, hsteps, List.dropLast_concat, List.foldl_append]
  rfl

theorem destination_join (p : Path) {name : String} (h : isPlainName name = true) :
    (p.join name).destination = name :: p.destination := by
  have hdots : name ≠ "." ∧ name ≠ ".." := by
    simp only [isPlainName, Bool.and_eq_true, bne_iff_ne, ne_eq] at h
    exact ⟨h.1.1.2, h.1.2⟩
  rw [destination, start_join p h, steps_join p h, List.foldl_append]
  exact Location.next_of_name _ hdots.1 hdots.2

end Path

namespace FileTree

open Fallible

variable {t : FileTree} {l : Location} {p : Path} {q : Place} {piece : String} {pieces : List String}

/-! ### One piece -/

/-- A dot, two dots, or a name that is not too long. -/
def PieceFits (piece : String) : Prop :=
  piece = "." ∨ piece = ".." ∨ piece.utf8ByteSize ≤ Path.maxNameBytes

theorem enter_eq_ok_iff : q.enter = .ok () ↔ q.node = some .directory := by
  rw [Place.enter]
  cases q.node with
  | none => simp
  | some node => cases node <;> simp

theorem step_eq_ok_iff :
    t.step (t.place l) piece = .ok q ↔
      t.get? l = some .directory ∧ PieceFits piece ∧ q = t.place (l.next piece) := by
  have henter : (t.place l).enter = .ok () ↔ t.get? l = some .directory := enter_eq_ok_iff
  rw [step, ← henter, PieceFits, Location.next]
  cases (t.place l).enter with
  | error fault => simp
  | ok _ =>
    by_cases hdot : piece = "."
    · simp [hdot, eq_comm]
    · by_cases hdots : piece = ".."
      · simp [hdots, place, eq_comm]
      · by_cases hlong : Path.maxNameBytes < piece.utf8ByteSize
        · have hnot : ¬piece.utf8ByteSize ≤ Path.maxNameBytes := Nat.not_le_of_lt hlong
          simp [hdot, hdots, hlong, hnot]
        · have hshort : piece.utf8ByteSize ≤ Path.maxNameBytes := Nat.le_of_not_lt hlong
          simp [hdot, hdots, hlong, hshort, down_place, eq_comm]

/-! ### All pieces -/

/-- Everything that the pieces of a path pass, from a location on, is a directory. -/
def Passable (t : FileTree) : Location → List String → Prop
  | _, [] => True
  | l, piece :: rest => t.get? l = some .directory ∧ PieceFits piece ∧ t.Passable (l.next piece) rest

theorem walk_eq_ok_iff :
    t.walk (t.place l) pieces = .ok q ↔
      t.Passable l pieces ∧ q = t.place (pieces.foldl Location.next l) := by
  induction pieces generalizing l with
  | nil =>
    show Except.ok (t.place l) = .ok q ↔ True ∧ q = t.place l
    rw [true_and, Except.ok.injEq, eq_comm]
  | cons piece rest ih =>
    rw [walk, foldlM_cons_eq_ok, Passable, List.foldl_cons]
    constructor
    · rintro ⟨next, hstep, hrest⟩
      obtain ⟨hget, hfits, rfl⟩ := step_eq_ok_iff.1 hstep
      obtain ⟨hpassable, rfl⟩ := ih.1 hrest
      exact ⟨⟨hget, hfits, hpassable⟩, rfl⟩
    · rintro ⟨⟨hget, hfits, hpassable⟩, rfl⟩
      exact ⟨_, step_eq_ok_iff.2 ⟨hget, hfits, rfl⟩, ih.2 ⟨hpassable, rfl⟩⟩

theorem passable_congr {s : FileTree} (h : ∀ l, s.get? l = t.get? l) :
    s.Passable l pieces ↔ t.Passable l pieces := by
  induction pieces generalizing l with
  | nil => rfl
  | cons piece rest ih => rw [Passable, Passable, h, ih]

theorem Passable.dropLast (h : t.Passable l pieces) : t.Passable l pieces.dropLast := by
  induction pieces generalizing l with
  | nil => exact h
  | cons piece rest ih =>
    cases rest with
    | nil => trivial
    | cons next rest => exact ⟨h.1, h.2.1, ih h.2.2⟩

/-- The directory that the last piece is taken from is there. -/
theorem Passable.get?_dropLast (h : t.Passable l pieces) (hne : pieces ≠ []) :
    t.get? (pieces.dropLast.foldl Location.next l) = some .directory := by
  induction pieces generalizing l with
  | nil => exact absurd rfl hne
  | cons piece rest ih =>
    cases rest with
    | nil => exact h.1
    | cons next rest => exact ih h.2.2 (by simp)

/-! ### Whole paths -/

theorem reach_eq_ok_iff :
    t.reach p = .ok q ↔
      p.check = .ok () ∧ t.Passable p.start p.steps ∧ q = t.place p.destination := by
  rw [reach, bind_eq_ok_iff]
  simp only [walk_eq_ok_iff]
  constructor
  · rintro ⟨⟨⟩, hcheck, hwalk⟩
    exact ⟨hcheck, hwalk⟩
  · rintro ⟨hcheck, hwalk⟩
    exact ⟨(), hcheck, hwalk⟩

theorem reachAbove_eq_ok_iff :
    t.reachAbove p = .ok l ↔
      p.check = .ok () ∧ t.Passable p.start p.steps.dropLast ∧ t.get? l = some .directory ∧
        l = p.steps.dropLast.foldl Location.next p.start := by
  rw [reachAbove, bind_eq_ok_iff]
  simp only [bind_eq_ok_iff, walk_eq_ok_iff]
  constructor
  · rintro ⟨⟨⟩, hcheck, above, ⟨hpassable, rfl⟩, ⟨⟩, henter, hlocation⟩
    cases hlocation
    exact ⟨hcheck, hpassable, enter_eq_ok_iff.1 henter, rfl⟩
  · rintro ⟨hcheck, hpassable, hget, rfl⟩
    exact ⟨(), hcheck, _, ⟨hpassable, rfl⟩, (), enter_eq_ok_iff.2 hget, rfl⟩

theorem isDirectory_iff :
    t.isDirectory p = true ↔
      p.check = .ok () ∧ t.Passable p.start p.steps ∧ t.get? p.destination = some .directory := by
  rw [isDirectory]
  cases hreach : t.reach p with
  | ok found =>
    obtain ⟨hcheck, hpassable, rfl⟩ := reach_eq_ok_iff.1 hreach
    simp [hcheck, hpassable, place]
  | error fault =>
    -- a path that is not followed to its end leads to no directory
    simp only [Bool.false_eq_true, false_iff]
    rintro ⟨hcheck, hpassable, -⟩
    rw [reach_eq_ok_iff.2 ⟨hcheck, hpassable, rfl⟩] at hreach
    cases hreach

theorem isFile_iff :
    t.isFile p = true ↔
      p.endsInSlash = false ∧ p.check = .ok () ∧ t.Passable p.start p.steps ∧
        ∃ file, t.get? p.destination = some (.file file) := by
  rw [isFile]
  cases hreach : t.reach p with
  | ok found =>
    obtain ⟨hcheck, hpassable, rfl⟩ := reach_eq_ok_iff.1 hreach
    cases hget : t.get? p.destination with
    | none => simp [place, hget]
    | some node => cases node <;> simp [place, hget, hcheck, hpassable]
  | error fault =>
    simp only [Bool.false_eq_true, false_iff]
    rintro ⟨-, hcheck, hpassable, -⟩
    rw [reach_eq_ok_iff.2 ⟨hcheck, hpassable, rfl⟩] at hreach
    cases hreach

theorem list_eq_ok_iff {entries : List (String × Node)} :
    t.list p = .ok entries ↔
      t.isDirectory p = true ∧ entries = (t.inside p.destination).children := by
  rw [list, bind_eq_ok_iff, isDirectory_iff]
  constructor
  · intro h
    obtain ⟨found, hreach, h⟩ := h
    obtain ⟨hcheck, hpassable, rfl⟩ := reach_eq_ok_iff.1 hreach
    obtain ⟨⟨⟩, henter, h⟩ := bind_eq_ok_iff.1 h
    cases h
    exact ⟨⟨hcheck, hpassable, enter_eq_ok_iff.1 henter⟩, rfl⟩
  · intro h
    obtain ⟨⟨hcheck, hpassable, hget⟩, rfl⟩ := h
    refine ⟨_, reach_eq_ok_iff.2 ⟨hcheck, hpassable, rfl⟩, ?_⟩
    exact bind_eq_ok_iff.2 ⟨(), enter_eq_ok_iff.2 hget, rfl⟩

theorem file_eq_ok_iff {file : File} :
    t.file p = .ok file ↔
      p.endsInSlash = false ∧ p.check = .ok () ∧ t.Passable p.start p.steps ∧
        t.get? p.destination = some (.file file) := by
  rw [FileTree.file, bind_eq_ok_iff]
  constructor
  · intro h
    obtain ⟨found, hreach, h⟩ := h
    obtain ⟨hcheck, hpassable, rfl⟩ := reach_eq_ok_iff.1 hreach
    cases hget : (t.place p.destination).node with
    | none =>
      rw [hget] at h
      cases h
    | some node =>
      cases node with
      | directory =>
        rw [hget] at h
        cases h
      | file found =>
        rw [hget] at h
        cases hslash : p.endsInSlash with
        | true => simp [hslash] at h
        | false =>
          simp only [hslash, Bool.false_eq_true, if_false] at h
          cases h
          exact ⟨rfl, hcheck, hpassable, hget⟩
  · intro h
    obtain ⟨hslash, hcheck, hpassable, hget⟩ := h
    refine ⟨_, reach_eq_ok_iff.2 ⟨hcheck, hpassable, rfl⟩, ?_⟩
    simp only [place, hget, hslash, Bool.false_eq_true, if_false]
    rfl

/-- There is a file that is protected against writing. -/
def Locked (t : FileTree) (l : Location) : Prop :=
  ∃ content, t.get? l = some (.file ⟨content, true⟩)

theorem target_eq_ok_iff :
    t.target p = .ok l ↔
      p.endsInSlash = false ∧ p.check = .ok () ∧ t.Passable p.start p.steps ∧
        t.get? p.destination ≠ some .directory ∧ ¬t.Locked p.destination ∧ l = p.destination := by
  rw [target]
  cases hslash : p.endsInSlash with
  | true =>
    simp only [if_true, Bool.true_eq_false, false_and, iff_false]
    intro h
    obtain ⟨_, -, h⟩ := bind_eq_ok_iff.1 h
    cases h
  | false =>
    simp only [Bool.false_eq_true, if_false, true_and]
    rw [bind_eq_ok_iff]
    constructor
    · intro h
      obtain ⟨found, hreach, h⟩ := h
      obtain ⟨hcheck, hpassable, rfl⟩ := reach_eq_ok_iff.1 hreach
      refine ⟨hcheck, hpassable, ?_⟩
      cases hget : t.get? p.destination with
      | none =>
        simp only [place, hget] at h
        cases h
        exact ⟨nofun, fun hlocked => by simp [Locked, hget] at hlocked, rfl⟩
      | some node =>
        simp only [place, hget] at h
        cases node with
        | directory => cases h
        | file file =>
          obtain ⟨content, locked⟩ := file
          cases locked with
          | true => cases h
          | false =>
            cases h
            exact ⟨nofun, fun hlocked => by simp [Locked, hget] at hlocked, rfl⟩
    · intro h
      obtain ⟨hcheck, hpassable, hget, hlocked, rfl⟩ := h
      refine ⟨_, reach_eq_ok_iff.2 ⟨hcheck, hpassable, rfl⟩, ?_⟩
      cases hnode : t.get? p.destination with
      | none =>
        simp only [place, hnode]
        rfl
      | some node =>
        simp only [place, hnode]
        cases node with
        | directory => exact absurd hnode hget
        | file file =>
          obtain ⟨content, locked⟩ := file
          cases locked with
          | true => exact absurd ⟨content, hnode⟩ hlocked
          | false => rfl

end FileTree

end Boardwright
