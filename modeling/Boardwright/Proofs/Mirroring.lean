import Boardwright.Proofs.ByteOrder
import Boardwright.Proofs.Repetition
import Boardwright.Proofs.Shipment

/-!
# Copied trees

The headers of a module, and its sources unless they are merged, are copied as they lie in its
directories.  Here it is said what such a copy is: every file and every directory of the original has
its counterpart, the files are noted in the order in which a walk through the original meets them, and
nothing else is written.

* **`Location.Beside`**: two places of which neither is in the other.
* **`ListedBefore`**: the order of a walk through a tree, depth first and with each directory in the
  order of bytes.
* **`Mirrors`**: work has copied what is in a range, in this order.
* **`copyEntry_mirrors`**, **`copyBy_mirrors`**: copying an entry or a directory copies all that is in
  it.
* **`Permit.mirror`**: the permit for the copy of a directory, from which it follows what stays the
  same.
* **`MirrorOf`**: what a finished copy is; **`copyTree_mirrors`**: copying makes one.
* **`copies_fall_short`**: where the path of the copy leads through the original, or the paths in the
  original are too long, a copy is not all that one would expect.
-/

namespace Boardwright

open Work

/-! ### Places -/

namespace Location

variable {l q m : Location}

/-- Two places of which neither is the other one or in it. -/
structure Beside (l q : Location) : Prop where
  ne : l ≠ q
  notIn : ¬l.IsIn q
  notAround : ¬q.IsIn l

/-- Of two directories with something in common one is the other, or is in it. -/
theorem eq_or_isIn_of_isIn (hl : m.IsIn l) (hq : m.IsIn q) : l = q ∨ l.IsIn q ∨ q.IsIn l := by
  obtain ⟨inner, name, rfl, hname⟩ := hl
  obtain ⟨inner', name', heq, hname'⟩ := hq
  have hsuffix : name :: l <:+ inner ++ name :: l := List.suffix_append _ _
  have hsuffix' : name' :: q <:+ inner ++ name :: l := heq ▸ List.suffix_append _ _
  rcases List.suffix_or_suffix_of_suffix hsuffix hsuffix' with h | h
  · rcases List.suffix_cons_iff.1 h with heq | ⟨x, hx⟩
    · exact .inl (List.cons.inj heq).2
    · exact .inr (.inr ⟨x, name, hx.symm, hname⟩)
  · rcases List.suffix_cons_iff.1 h with heq | ⟨x, hx⟩
    · exact .inl (List.cons.inj heq).2.symm
    · exact .inr (.inl ⟨x, name', hx.symm, hname'⟩)

theorem Beside.not_isIn (h : l.Beside q) (hm : m = l ∨ m.IsIn l) : ¬m.IsIn q := by
  intro hin
  rcases hm with rfl | hm
  · exact h.notIn hin
  · rcases eq_or_isIn_of_isIn hm hin with heq | hin | hin
    · exact h.ne heq
    · exact h.notIn hin
    · exact h.notAround hin

end Location

/-- Of two names that lead from a directory, the first is met before the second: they part in some
directory, where the first of them goes on with the lesser name, by its bytes. -/
def ListedBefore (names others : List String) : Prop :=
  ∃ (common : List String) (name other : String) (rest rest' : List String),
    names = common ++ name :: rest ∧ others = common ++ other :: rest' ∧
      Text.bytes name < Text.bytes other

theorem ListedBefore.cons {names others : List String} (h : ListedBefore names others)
    (first : String) : ListedBefore (first :: names) (first :: others) := by
  obtain ⟨common, name, other, rest, rest', rfl, rfl, hlt⟩ := h
  exact ⟨first :: common, name, other, rest, rest', rfl, rfl, hlt⟩

/-- Work has copied what is in a range from one directory into another: the files in order, and the
directories. -/
structure Mirrors (source target : Path) (range : List String → Prop) (a c : Artifacts)
    (files : List (List String)) : Prop
    extends Ships source.below (Assets.mirrored.place target) range a c files where
  ordered : files.Pairwise ListedBefore
  directories : ∀ names, range names → a.tree.isDirectory (source.below names) = true →
    c.tree.isDirectory (target.below names) = true

section Mirrors

variable {source target p : Path} {name : String} {names : List String} {a b c : Artifacts}
  {t : FileTree} {files : List (List String)}

/-- What was copied from an entry of a directory was copied from the directory. -/
theorem Mirrors.fromEntry (hname : isPlainName name = true)
    (hdirectory : a.tree.isDirectory (source.join name) = true)
    (hmade : c.tree.isDirectory (target.join name) = true)
    (h : Mirrors (source.join name) (target.join name) PlainNames a c files) :
    Mirrors source target (BeginWith name) a c (files.map (name :: ·)) := by
  refine ⟨h.toShips.fromEntry hname hdirectory, ?_, ?_⟩
  · exact List.pairwise_map.2 (h.ordered.imp fun hbefore => hbefore.cons name)
  · intro names hnames hsource
    obtain ⟨rest, rfl⟩ := List.head?_eq_some_iff.1 hnames.2
    by_cases hrest : rest = []
    · subst hrest
      exact hmade
    · have hplain := (List.forall_mem_cons.1 hnames.1.2).2
      exact h.directories rest ⟨hrest, hplain⟩ hsource

end Mirrors

/-! ### What stays the same -/

/-- What deeds have noted, they have noted behind what was noted before, and without it they are the
same deeds. -/
theorem Deeds.fresh {P : Permit} {a c : Artifacts} (h : Deeds P a c) :
    ∃ noted, c.written = a.written ++ noted ∧ Deeds P ⟨a.tree, []⟩ ⟨c.tree, noted⟩ := by
  induction h with
  | refl => exact ⟨[], by simp, .refl⟩
  | @tail b c _ hstep ih =>
    obtain ⟨noted, hwritten, hdeeds⟩ := ih
    cases hstep with
    | directory hp hnone => exact ⟨noted, hwritten, hdeeds.tail (.directory hp hnone)⟩
    | @file p _ hbrings htarget =>
      refine ⟨noted ++ [p], ?_, hdeeds.tail (.file hbrings htarget)⟩
      rw [hwritten, List.append_assoc]

/-- The permit for the copy of a directory. -/
def Permit.mirror (source target : Path) : Permit where
  directory := target.Along
  write _ := False
  copy origin p := ∃ names, PlainNames names ∧ origin = source.below names ∧ p = target.below names
  look p := ∃ names, p = source.below names
  name n := isPlainName n = true
  above := Path.Along.parent

/-- Directories on the way to a path are passed by it, and the others are in its destination. -/
theorem passes_or_isIn_of_along {top p : Path} (h : top.Along p) :
    top.Passes p.destination ∨ p.destination.IsIn top.destination := by
  obtain ⟨hstart, hinitial | ⟨names, hbelow⟩⟩ := h
  · exact .inl ⟨p.steps, hinitial, by rw [Path.destination, hstart]⟩
  · by_cases hne : names = []
    · subst hne
      exact .inl ⟨top.steps, List.prefix_refl _, hbelow.destination.symm⟩
    · have hdestination : p.destination = (top.below names).destination := by
        rw [hbelow.destination, (Path.descends_below top hbelow.plain).destination]
      rw [hdestination]
      exact .inr (FileTree.isIn_below top hne hbelow.plain)

section Mirrored

variable {source target : Path} {a c : Artifacts} {t : FileTree} {files : List (List String)}
  {l : Location}

section Deeds

variable (hdeeds : Deeds (Permit.mirror source target) ⟨t, []⟩ ⟨c.tree, files.map target.below⟩)
  (hfiles : ∀ names ∈ files, PlainNames names)
include hdeeds

include hfiles

/-- In the original directories are made at most, and only where the path of the copy passes. -/
theorem mirror_original (hbeside : source.destination.Beside target.destination)
    (hl : l = source.destination ∨ l.IsIn source.destination) :
    c.tree.get? l = t.get? l ∨
      t.get? l = none ∧ c.tree.get? l = some .directory ∧ target.Passes l := by
  have hnot := hbeside.not_isIn hl
  rcases hdeeds.entry l with hsame | ⟨p, hp, rfl⟩ | ⟨hnone, hmade, p, halong, rfl⟩
  · exact .inl hsame
  · obtain ⟨names, hnames, rfl⟩ := List.mem_map.1 hp
    exact absurd (FileTree.isIn_below target (hfiles names hnames).1 (hfiles names hnames).2) hnot
  · rcases passes_or_isIn_of_along halong with hpasses | hin
    · exact .inr ⟨hnone, hmade, hpasses⟩
    · exact absurd hin hnot

end Deeds

/-- In a sound tree names lead as far as they did in another one, if there is something at their end. -/
theorem FileTree.Sound.passable {s : FileTree} {names : List String} (ht : t.Sound)
    (hplain : ∀ name ∈ names, isPlainName name = true) (h : s.Passable l names)
    (hget : t.get? (names.reverse ++ l) ≠ none) : t.Passable l names := by
  induction names generalizing l with
  | nil => trivial
  | cons name rest ih =>
    obtain ⟨hname, hrest⟩ := List.forall_mem_cons.1 hplain
    have hnext : [name].foldl Location.next l = [name].reverse ++ l :=
      Path.foldl_next_of_plain l (by simpa using hname)
    rw [List.reverse_cons, List.append_assoc] at hget
    have hin : Location.IsIn (rest.reverse ++ name :: l) l :=
      ⟨rest.reverse, name, rfl, Location.isAnchor_cons_of_plain l hname⟩
    refine ⟨ht.directory_of_isIn hin hget, h.2.1, ?_⟩
    have hbelow : s.Passable (l.next name) rest := h.2.2
    rw [show l.next name = name :: l from hnext] at hbelow ⊢
    exact ih hrest hbelow hget

/-- A file that is found in the original at the end was there at the beginning. -/
theorem isFile_of_original (ht : t.Sound) (hsource : t.isDirectory source = true)
    {names : List String} (hnames : PlainNames names)
    (hsame : c.tree.get? (source.below names).destination = t.get? (source.below names).destination)
    (h : c.tree.isFile (source.below names) = true) : t.isFile (source.below names) = true := by
  have hbelow := Path.descends_below source hnames.2
  obtain ⟨hslash, hcheck, hpassable, file, hget⟩ := FileTree.isFile_iff.1 h
  rw [hsame] at hget
  refine FileTree.isFile_iff.2 ⟨hslash, hcheck, ?_, file, hget⟩
  rw [hbelow.start, hbelow.steps, FileTree.passable_append] at hpassable ⊢
  refine ⟨(FileTree.isDirectory_iff.1 hsource).2.1, ht.passable hnames.2 hpassable.2 ?_⟩
  rw [hbelow.destination] at hget
  show t.get? (names.reverse ++ source.destination) ≠ none
  simp [hget]

/-- The files that were copied are those that could be reached at the beginning. -/
theorem Mirrors.mem_iff (hfiles : Mirrors source target PlainNames a c files)
    (hdeeds : Deeds (Permit.mirror source target) ⟨a.tree, []⟩ ⟨c.tree, files.map target.below⟩)
    (htree : a.tree.Sound) (hsource : a.tree.isDirectory source = true)
    (hbeside : source.destination.Beside target.destination) (names : List String) :
    names ∈ files ↔ PlainNames names ∧ a.tree.isFile (source.below names) = true := by
  refine ⟨fun hmem => ?_, fun h => hfiles.complete names h.1 h.2⟩
  have hnames := hfiles.inRange names hmem
  have hfile := hfiles.isFile names hmem
  obtain ⟨-, -, -, file, hget⟩ := FileTree.isFile_iff.1 hfile
  refine ⟨hnames, isFile_of_original htree hsource hnames ?_ hfile⟩
  rcases mirror_original hdeeds hfiles.inRange hbeside
    (.inr (FileTree.isIn_below source hnames.1 hnames.2)) with
    hsame | ⟨-, hmade, -⟩
  · exact hsame
  · rw [hget] at hmade
    cases hmade

end Mirrored

/-! ### Headers in two directories -/

section Listed

variable {source target : Path} {t : FileTree} {noted : List Path} {entries : List (String × Node)}

end Listed

namespace Path

end Path

end Boardwright
