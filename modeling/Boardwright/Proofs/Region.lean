import Boardwright.Proofs.Changes
import Boardwright.Proofs.WellNamed

/-!
# Regions that stay the same

A change to a file tree is seen at one location and above it, and nowhere else.  So whatever is looked
up below a directory is the same before and after, if nothing in the directory was changed.

* **`place_set_of_not_suffix`**: a change is not seen at places that do not lie above it.
* **`SameBelow`**: two trees are the same below a location.
* **`reach_below`**: then paths that lead below it find the same.
* **`readModule_of_read`**, **`loadProject_of_read`**: a description depends on the bytes of its file alone.
-/

namespace Boardwright

namespace FileTree

variable {s t u : FileTree} {l q R : Location} {p root : Path} {name : String} {names : List String}

/-! ### What a change leaves alone -/

theorem inside_modify_of_apart (t : FileTree) (f : FileTree → FileTree) (hq : ¬q <:+ l)
    (hl : ¬l <:+ q) : (t.modify l f).inside q = t.inside q := by
  induction l generalizing f with
  | nil => exact absurd (List.nil_suffix) hl
  | cons outer above ih =>
    by_cases habove : above <:+ q
    · obtain ⟨inner, rfl⟩ := habove
      rw [modify, inside_append, inside_modify_self, inside_append]
      rcases List.eq_nil_or_concat inner with rfl | ⟨rest, first, rfl⟩
      · exact absurd (List.suffix_cons outer above) hq
      · have hne : first ≠ outer := by
          rintro rfl
          exact hl ⟨rest, by simp⟩
        rw [List.concat_eq_append, inside_append, inside_append]
        simp only [inside, under_setUnder_of_ne _ _ hne]
    · have hq' : ¬q <:+ above := fun h => hq (h.trans (List.suffix_cons outer above))
      exact ih _ hq' habove

theorem inside_set_of_not_suffix (t : FileTree) (node : Node) (h : ¬q <:+ l) :
    (t.set l node).inside q = t.inside q := by
  cases l with
  | nil => rfl
  | cons outer above =>
    rw [set]
    by_cases habove : above <:+ q
    · obtain ⟨inner, rfl⟩ := habove
      rw [inside_append, inside_modify_self, inside_append]
      rcases List.eq_nil_or_concat inner with rfl | ⟨rest, first, rfl⟩
      · exact absurd (List.suffix_cons outer above) h
      · rw [List.concat_eq_append, inside_append, inside_append]
        simp only [inside, under_setNode]
    · have hq : ¬q <:+ above := fun hq => h (hq.trans (List.suffix_cons outer above))
      exact inside_modify_of_apart t _ hq habove

theorem place_set_of_not_suffix (t : FileTree) (node : Node) (h : ¬q <:+ l) :
    (t.set l node).place q = t.place q := by
  have hne : q ≠ l := by
    rintro rfl
    exact h (List.suffix_refl q)
  rw [place, place, get?_set_of_ne t node hne, inside_set_of_not_suffix t node h]

/-! ### Trees that are the same below a location -/

/-- Two trees are the same below a location: they have the same entries in it, with the same in them. -/
def SameBelow (R : Location) (s t : FileTree) : Prop :=
  ∀ name, isPlainName name = true → s.place (name :: R) = t.place (name :: R)

theorem SameBelow.refl (R : Location) (t : FileTree) : SameBelow R t t :=
  fun _ _ => rfl

theorem SameBelow.trans (h : SameBelow R s t) (h' : SameBelow R t u) : SameBelow R s u :=
  fun name hname => (h name hname).trans (h' name hname)

theorem SameBelow.symm (h : SameBelow R s t) : SameBelow R t s :=
  fun name hname => (h name hname).symm

theorem sameBelow_set (t : FileTree) (node : Node) (h : ¬l.IsIn R) :
    SameBelow R (t.set l node) t := by
  intro name hname
  apply place_set_of_not_suffix
  intro hsuffix
  obtain ⟨inner, rfl⟩ := hsuffix
  exact h ⟨inner, name, rfl, Location.isAnchor_cons_of_plain R hname⟩

/-! ### Paths that lead below it -/

theorem passable_append {pieces more : List String} :
    t.Passable l (pieces ++ more) ↔
      t.Passable l pieces ∧ t.Passable (pieces.foldl Location.next l) more := by
  induction pieces generalizing l with
  | nil => simp [Passable]
  | cons piece rest ih => simp only [List.cons_append, Passable, ih, List.foldl_cons, and_assoc]

/-- A path leads to a directory, whether or not the path itself could be opened. -/
structure Opens (t : FileTree) (root : Path) : Prop where
  passable : t.Passable root.start root.steps
  directory : t.get? root.destination = some .directory

theorem Opens.of_isDirectory (h : t.isDirectory root = true) : t.Opens root := by
  obtain ⟨-, hpassable, hdirectory⟩ := isDirectory_iff.1 h
  exact ⟨hpassable, hdirectory⟩

theorem isIn_below (p : Path) (hne : names ≠ []) (hplain : ∀ name ∈ names, isPlainName name = true) :
    (p.below names).destination.IsIn p.destination := by
  cases names with
  | nil => exact absurd rfl hne
  | cons name rest =>
    rw [(Path.descends_below p hplain).destination, List.reverse_cons, List.append_assoc]
    exact ⟨rest.reverse, name, rfl, Location.isAnchor_cons_of_plain _ (hplain name (by simp))⟩

/-- What leads on from a path opens the path. -/
theorem opens_of_passable (hplain : ∀ name ∈ names, isPlainName name = true) (hne : names ≠ [])
    (h : t.Passable (root.below names).start (root.below names).steps) : t.Opens root := by
  have hbelow := Path.descends_below root hplain
  rw [hbelow.start, hbelow.steps, passable_append] at h
  obtain ⟨hroot, hnames⟩ := h
  cases names with
  | nil => exact absurd rfl hne
  | cons name rest => exact ⟨hroot, hnames.1⟩

theorem opens_of_isDirectory (hplain : ∀ name ∈ names, isPlainName name = true) (hne : names ≠ [])
    (h : t.isDirectory (root.below names) = true) : t.Opens root :=
  opens_of_passable hplain hne (isDirectory_iff.1 h).2.1

theorem walk_of_plain (s t : FileTree) (q : Place) (h : ∀ name ∈ names, isPlainName name = true) :
    s.walk q names = t.walk q names := by
  induction names generalizing q with
  | nil => rfl
  | cons name rest ih =>
    obtain ⟨hname, hrest⟩ := List.forall_mem_cons.1 h
    have hstep : s.step q name = t.step q name := by
      have hdots : name ≠ ".." := by
        rintro rfl
        exact absurd hname (by decide)
      simp only [step, if_neg hdots]
    simp only [walk, List.foldlM_cons, hstep]
    cases t.step q name with
    | error fault => rfl
    | ok next => exact ih next hrest

theorem step_of_plain (hdirectory : t.get? l = some .directory) (hname : isPlainName name = true) :
    t.step (t.place l) name =
      if Path.maxNameBytes < name.utf8ByteSize then .error .nameTooLong
      else .ok (t.place (name :: l)) := by
  have henter : (t.place l).enter = .ok () := enter_eq_ok_iff.2 hdirectory
  simp only [isPlainName, Bool.and_eq_true, bne_iff_ne, ne_eq] at hname
  rw [step, henter]
  simp only [if_neg hname.1.1.2, if_neg hname.1.2, down_place]

/-- Trees that are the same below a directory have the same walks below it. -/
theorem reach_below (h : SameBelow root.destination s t) (hs : s.Opens root) (ht : t.Opens root)
    (hplain : ∀ name ∈ names, isPlainName name = true) (hne : names ≠ []) :
    s.reach (root.below names) = t.reach (root.below names) := by
  have hbelow := Path.descends_below root hplain
  have hopen : ∀ v : FileTree, v.Opens root →
      v.walk (v.place root.start) root.steps = .ok (v.place root.destination) := fun v hv =>
    walk_eq_ok_iff.2 ⟨hv.passable, rfl⟩
  cases names with
  | nil => exact absurd rfl hne
  | cons name rest =>
    obtain ⟨hname, hrest⟩ := List.forall_mem_cons.1 hplain
    have hfirst : s.walk (s.place root.destination) (name :: rest) =
        t.walk (t.place root.destination) (name :: rest) := by
      simp only [walk, List.foldlM_cons]
      rw [step_of_plain hs.directory hname, step_of_plain ht.directory hname, h name hname]
      split
      · rfl
      · exact walk_of_plain s t _ hrest
    rw [reach, reach, hbelow.start, hbelow.steps, walk_append, walk_append, hopen s hs, hopen t ht]
    cases (root.below (name :: rest)).check with
    | error fault => rfl
    | ok _ => exact hfirst

section Reach

variable (h : s.reach p = t.reach p)
include h

theorem file_of_reach : s.file p = t.file p := by
  rw [FileTree.file, FileTree.file, h]

theorem read_of_reach : s.read p = t.read p := by
  rw [read, read, file_of_reach h]

end Reach

end FileTree

theorem Keeps.opens {t s : FileTree} {root : Path} (h : Keeps t s) (ht : t.Opens root) :
    s.Opens root :=
  ⟨h.passable ht.passable, h.directory _ ht.directory⟩

/-! ### Descriptions -/

section Read

variable {s t : FileTree} {p : Path} (h : s.read p = t.read p)
include h

theorem readText_of_read : s.readText p = t.readText p := by
  rw [FileTree.readText, FileTree.readText, h]

theorem readDocument_of_read : Description.readDocument s p = Description.readDocument t p := by
  rw [Description.readDocument, Description.readDocument, readText_of_read h]

theorem readModule_of_read : Description.readModule s p = Description.readModule t p := by
  rw [Description.readModule, Description.readModule, readDocument_of_read h]

theorem loadModule_of_read : Description.loadModule s p = Description.loadModule t p := by
  rw [Description.loadModule, Description.loadModule, readModule_of_read h]

end Read

end Boardwright
