import Boardwright.FileTree.Directories
import Boardwright.Proofs.Walking

/-!
# What removing a directory removes

A directory is emptied before its entry is removed, and the entry can resist: a path that ends in dots
names no entry, and a path may have led through what was in the directory.  So a removal that fails
can have removed everything but the directory itself.

* **`remove_cases`**: the two trees that can be left.
* **`get?_remove_of_not_isIn`**: nothing outside the directory is lost.
* **`Removable`**, **`remove_unchanged_iff`**: when nothing at all is lost.
-/

namespace Boardwright

/-! ### Paths that end in a name -/

/-- The last piece of a path is a name and not dots. -/
def Path.EndsInName (p : Path) : Prop :=
  ∃ name, p.steps.getLast? = some name ∧ name ≠ "." ∧ name ≠ ".."

theorem Path.ne_slash_of_mem_steps {p : Path} {piece : String} (h : piece ∈ p.steps) :
    piece ≠ "/" := by
  rintro rfl
  rw [Path.steps_eq, List.mem_map] at h
  obtain ⟨cs, hcs, hslash⟩ := h
  have hmem : '/' ∈ cs := by
    rw [← String.toList_ofList (l := cs), hslash]
    decide
  exact Text.not_mem_of_mem_splitChars (List.mem_filter.1 hcs).1 hmem

theorem Location.isAnchor_cons_of_name {name : String} (above : Location) (hdots : name ≠ "..")
    (hslash : name ≠ "/") : Location.isAnchor (name :: above) = false := by
  simp [Location.isAnchor, Location.root, hdots, hslash]

theorem Location.isAnchor_cons_of_plain {name : String} (above : Location)
    (h : isPlainName name = true) : Location.isAnchor (name :: above) = false := by
  apply Location.isAnchor_cons_of_name
  · rintro rfl
    exact absurd h (by decide)
  · rintro rfl
    exact absurd h (by decide)

theorem Path.EndsInName.destination {p : Path} (h : p.EndsInName) :
    ∃ name, p.steps.getLast? = some name ∧ name ≠ "." ∧ name ≠ ".." ∧
      p.destination = name :: p.steps.dropLast.foldl Location.next p.start ∧
      p.destination.isAnchor = false := by
  obtain ⟨name, hlast, hdot, hdots⟩ := h
  have hdestination := Path.destination_of_getLast? hlast
  rw [Location.next_of_name _ hdot hdots] at hdestination
  refine ⟨name, hlast, hdot, hdots, hdestination, ?_⟩
  rw [hdestination]
  exact Location.isAnchor_cons_of_name _ hdots
    (Path.ne_slash_of_mem_steps (List.mem_of_getLast? hlast))

/-- What lies at or below a location that is no anchor lies there or in it. -/
theorem Location.eq_or_isIn_of_suffix {l q : Location} (h : l.isAnchor = false) (hq : l <:+ q) :
    q = l ∨ q.IsIn l := by
  obtain ⟨inner, rfl⟩ := hq
  rcases List.eq_nil_or_concat inner with rfl | ⟨x, name, rfl⟩
  · exact .inl rfl
  · refine .inr ⟨x, name, by simp, ?_⟩
    exact FileTree.isAnchor_append_of_not [name] h

theorem Location.suffix_of_isIn {l q : Location} (h : q.IsIn l) : l <:+ q := by
  obtain ⟨inner, name, rfl, -⟩ := h
  exact ⟨inner ++ [name], by simp⟩

namespace FileTree

open Fallible

variable {t : FileTree} {p : Path}

/-! ### The entry of the directory -/

theorem removeEntry_eq_ok_iff {removed : FileTree} :
    t.removeEntry p = .ok removed ↔
      p.EndsInName ∧ t.reachAbove p = .ok (p.steps.dropLast.foldl Location.next p.start) ∧
        removed = t.erase p.destination := by
  rw [removeEntry, bind_eq_ok_iff]
  constructor
  · rintro ⟨above, habove, h⟩
    cases hlast : p.steps.getLast? with
    | none =>
      rw [hlast] at h
      cases h
    | some name =>
      rw [hlast] at h
      by_cases hdot : name = "."
      · simp only [if_pos hdot] at h
        cases h
      · by_cases hdots : name = ".."
        · simp only [if_neg hdot, if_pos hdots] at h
          cases h
        · simp only [if_neg hdot, if_neg hdots] at h
          cases h
          obtain ⟨-, -, -, rfl⟩ := reachAbove_eq_ok_iff.1 habove
          refine ⟨⟨name, hlast, hdot, hdots⟩, habove, ?_⟩
          rw [Path.destination_of_getLast? hlast, Location.next_of_name _ hdot hdots]
  · rintro ⟨hname, habove, rfl⟩
    obtain ⟨name, hlast, hdot, hdots, hdestination, -⟩ := hname.destination
    refine ⟨_, habove, ?_⟩
    rw [hdestination, hlast]
    simp only [if_neg hdot, if_neg hdots]
    rfl

/-! ### Both steps -/

theorem remove_of_not_isDirectory (h : t.isDirectory p = false) : (t.remove p).1 = t := by
  rw [remove]
  cases hreach : t.reach p with
  | error fault => rfl
  | ok found =>
    cases henter : found.enter with
    | error fault => simp only [henter]
    | ok _ =>
      -- then the path leads to a directory
      obtain ⟨hcheck, hpassable, rfl⟩ := reach_eq_ok_iff.1 hreach
      have hdirectory := isDirectory_iff.2 ⟨hcheck, hpassable, enter_eq_ok_iff.1 henter⟩
      rw [h] at hdirectory
      cases hdirectory

theorem remove_of_isDirectory (h : t.isDirectory p = true) :
    (t.remove p).1 =
      ((t.clear p.destination).removeEntry p).toOption.getD (t.clear p.destination) := by
  obtain ⟨hcheck, hpassable, hget⟩ := isDirectory_iff.1 h
  have hreach := reach_eq_ok_iff.2 ⟨hcheck, hpassable, rfl⟩
  have henter : (t.place p.destination).enter = .ok () := enter_eq_ok_iff.2 hget
  have hlocation : (t.place p.destination).location = p.destination := rfl
  rw [remove, hreach]
  simp only [henter, hlocation]
  cases (t.clear p.destination).removeEntry p with
  | ok removed => rfl
  | error fault => cases fault <;> rfl

/-- A removed directory is empty, and its entry is gone if it has one that can still be reached. -/
theorem remove_cases (h : t.isDirectory p = true) :
    (t.remove p).1 = t.clear p.destination ∨
      p.EndsInName ∧ (t.remove p).1 = (t.clear p.destination).erase p.destination := by
  rw [remove_of_isDirectory h]
  cases hentry : (t.clear p.destination).removeEntry p with
  | error fault => exact .inl rfl
  | ok removed =>
    obtain ⟨hname, -, rfl⟩ := removeEntry_eq_ok_iff.1 hentry
    exact .inr ⟨hname, rfl⟩

theorem get?_remove_of_not_isIn {l : Location} (hin : ¬l.IsIn p.destination)
    (hne : l ≠ p.destination) : (t.remove p).1.get? l = t.get? l := by
  cases hdirectory : t.isDirectory p with
  | false => rw [remove_of_not_isDirectory hdirectory]
  | true =>
    rcases remove_cases hdirectory with hremove | ⟨hname, hremove⟩
    · rw [hremove, get?_clear_of_not_isIn t hin]
    · obtain ⟨-, -, -, -, -, hanchor⟩ := hname.destination
      have hnil : p.destination ≠ [] := by
        intro hnil
        rw [hnil] at hanchor
        cases hanchor
      have hsuffix : ¬p.destination <:+ l := by
        intro hsuffix
        rcases Location.eq_or_isIn_of_suffix hanchor hsuffix with heq | hbelow
        · exact hne heq
        · exact hin hbelow
      rw [hremove, get?_erase_of_not_suffix _ hnil hsuffix, get?_clear_of_not_isIn t hin]

theorem get?_remove_of_isIn {l : Location} (h : t.isDirectory p = true) (hin : l.IsIn p.destination) :
    (t.remove p).1.get? l = none := by
  rcases remove_cases h with hremove | ⟨hname, hremove⟩
  · rw [hremove, get?_clear_of_isIn t hin]
  · obtain ⟨-, -, -, -, -, hanchor⟩ := hname.destination
    rw [hremove, get?_erase_of_suffix _ hanchor (Location.suffix_of_isIn hin)]

/-! ### When something is lost -/

/-- The path leads to a directory that has something in it or an entry to remove. -/
def Removable (t : FileTree) (p : Path) : Prop :=
  t.isDirectory p = true ∧
    ((∃ l : Location, l.IsIn p.destination ∧ t.get? l ≠ none) ∨ p.EndsInName)

/-- The entry of a directory that was empty before is removed. -/
theorem remove_of_empty (h : t.isDirectory p = true) (hname : p.EndsInName)
    (hempty : ∀ l : Location, l.IsIn p.destination → t.get? l = none) :
    (t.remove p).1 = (t.clear p.destination).erase p.destination := by
  -- clearing an empty directory changes no entry, so the path can be followed as before
  have hsame : ∀ l, (t.clear p.destination).get? l = t.get? l := by
    intro l
    by_cases hin : l.IsIn p.destination
    · rw [get?_clear_of_isIn t hin, hempty l hin]
    · exact get?_clear_of_not_isIn t hin
  obtain ⟨hcheck, hpassable, -⟩ := isDirectory_iff.1 h
  have hsteps : p.steps ≠ [] := by
    obtain ⟨name, hlast, -⟩ := hname
    intro hnil
    rw [hnil] at hlast
    cases hlast
  have habove : (t.clear p.destination).reachAbove p
      = .ok (p.steps.dropLast.foldl Location.next p.start) := by
    refine reachAbove_eq_ok_iff.2 ⟨hcheck, ?_, ?_, rfl⟩
    · exact (passable_congr hsame).2 hpassable.dropLast
    · rw [hsame]
      exact hpassable.get?_dropLast hsteps
  rw [remove_of_isDirectory h, removeEntry_eq_ok_iff.2 ⟨hname, habove, rfl⟩]
  rfl

theorem remove_unchanged_iff :
    (∀ l, (t.remove p).1.get? l = t.get? l) ↔ ¬t.Removable p := by
  constructor
  · rintro hsame ⟨hdirectory, ⟨l, hin, hsome⟩ | hname⟩
    · rw [← hsame, get?_remove_of_isIn hdirectory hin] at hsome
      exact hsome rfl
    · have hempty : ∀ l : Location, l.IsIn p.destination → t.get? l = none := by
        intro l hin
        rw [← hsame, get?_remove_of_isIn hdirectory hin]
      have hgone : (t.remove p).1.get? p.destination = none := by
        obtain ⟨-, -, -, -, -, hanchor⟩ := hname.destination
        rw [remove_of_empty hdirectory hname hempty]
        exact get?_erase_of_suffix _ hanchor (List.suffix_refl _)
      rw [hsame, (isDirectory_iff.1 hdirectory).2.2] at hgone
      cases hgone
  · intro hnot l
    cases hdirectory : t.isDirectory p with
    | false => rw [remove_of_not_isDirectory hdirectory]
    | true =>
      by_cases hin : l.IsIn p.destination
      · rw [get?_remove_of_isIn hdirectory hin]
        cases hget : t.get? l with
        | none => rfl
        | some node => exact absurd ⟨hdirectory, .inl ⟨l, hin, by simp [hget]⟩⟩ hnot
      · rcases remove_cases hdirectory with hremove | ⟨hname, -⟩
        · rw [hremove, get?_clear_of_not_isIn t hin]
        · exact absurd ⟨hdirectory, .inr hname⟩ hnot

end FileTree

end Boardwright
