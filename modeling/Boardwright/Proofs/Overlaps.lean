import Boardwright.Proofs.Shipment

/-!
# Files of a library that overwrite each other

Two files of a build can have the same target: the parts of a module's name become directories, so one
module can reach into the directories of another, and the generated files lie among those of the
modules.  Then the path is reported twice and the file that was brought last is left.  All other files
have their own content at the end.

* **`Shipment.nodup_files_iff`**: when all paths of a report are different.
* **`Shipment.content`**: a file that is overwritten by no other has the content it was brought with.
* **`Asset.route`**: where a file goes among the headers, when sources are laid out as they are.
* **`mirrored_files`**: both facts in terms of the names of modules and files, and names with which
  nothing is overwritten.
-/

namespace Boardwright

open Generation

section Overlaps

variable {w : Workshop} {settings : Settings} {tree after : FileTree} {input : Input} {report : Report}
  {assets : List Asset} {x y : Asset}

/-! ### Places -/

theorem nodup_generatedPlaces (libraryName : String) (usage : Nat) :
    (generatedPlaces libraryName usage).Nodup := by
  unfold generatedPlaces
  split <;> simp

theorem Shipment.plain_place (h : Shipment input tree after report assets)
    (haccepted : Accepted w settings tree input) (hx : x ∈ assets) (merge : Bool) :
    ∀ name ∈ x.place merge, isPlainName name = true := by
  have hof := (h.inModules x hx).1
  exact (Asset.plain_place hof (haccepted.liesBelow hof.mem).plain merge).2

/-- Targets are told apart by the places. -/
theorem Shipment.place_of_destination (h : Shipment input tree after report assets)
    (haccepted : Accepted w settings tree input) (hx : x ∈ assets) {place : List String}
    (hplace : ∀ name ∈ place, isPlainName name = true)
    (heq : (input.settings.libraryDirectory.below place).destination =
      (x.target input.settings).destination) :
    place = x.place input.settings.mergeSources := by
  have hplain := h.plain_place haccepted hx input.settings.mergeSources
  rw [Asset.target, (Path.descends_below _ hplain).destination,
    (Path.descends_below _ hplace).destination] at heq
  exact List.reverse_injective (List.append_cancel_right heq)

/-- A file that shares its place with no other has the content at the end that it had in its module,
unless that was overwritten. -/
theorem Shipment.content (h : Shipment input tree after report assets)
    (haccepted : Accepted w settings tree input) (hx : x ∈ assets)
    (halone : ∀ y ∈ assets, y.place input.settings.mergeSources =
      x.place input.settings.mergeSources → y = x)
    (hgenerated : x.place input.settings.mergeSources ∉
      generatedPlaces input.settings.libraryName report.storageUsage)
    (horigin : ∀ p ∈ report.files, p.destination ≠ x.origin.destination) :
    ∃ file, tree.get? x.origin.destination = some (.file file) ∧
      after.get? (x.target input.settings).destination = some (.file file) := by
  have hnoted : x.target input.settings ∈ report.files := by
    rw [h.files]
    exact List.mem_append_left _ (List.mem_map_of_mem hx)
  obtain ⟨q, hq, hdestination, ⟨hwritten, -⟩ | ⟨source, hcopied, hfrom⟩⟩ :=
    h.deeds.brought hnoted
  · -- a generated file would have to be at the same place
    have hwritten : q ∈ generatedFiles input.settings report.storageUsage := hwritten
    rw [generatedFiles_eq] at hwritten
    obtain ⟨place, hplace, rfl⟩ := List.mem_map.1 hwritten
    have hplain := (plain_generatedPlaces haccepted.check_settings _ hplace).2
    have heq := h.place_of_destination haccepted hx hplain hdestination
    rw [heq] at hplace
    exact absurd hplace hgenerated
  · obtain ⟨y, hy, heq⟩ := List.mem_map.1 hcopied
    cases heq
    have hyx : y = x := by
      refine halone y hy ?_
      exact h.place_of_destination haccepted hx (h.plain_place haccepted hy _) hdestination
    subst hyx
    rcases hfrom with hsame | ⟨r, hr, hrl⟩
    · obtain ⟨-, -, -, file, hget⟩ := FileTree.isFile_iff.1 (h.deeds.noted (by simp) _ hnoted)
      refine ⟨file, ?_, hget⟩
      rw [← hsame]
      exact hget
    · exact absurd hrl (horigin r hr)

/-! ### Sources laid out as they are -/

/-- No module lies in the directory of another. -/
def Unnested (modules : List Module) : Prop :=
  ∀ m ∈ modules, ∀ m' ∈ modules, nameSegments m.name <+: nameSegments m'.name → m = m'

/-- The parts tell files of modules apart that are not nested. -/
theorem Unnested.eq_of_parts {modules : List Module} (h : Unnested modules) (hx : x.module ∈ modules)
    (hy : y.module ∈ modules) (hsort : x.isSource = y.isSource) (heq : x.parts = y.parts) : x = y := by
  have hmodule : x.module = y.module := by
    have hleft : nameSegments x.module.name <+: y.parts := by
      rw [← heq]
      exact List.prefix_append _ _
    have hright : nameSegments y.module.name <+: y.parts := List.prefix_append _ _
    rcases List.prefix_or_prefix_of_prefix hleft hright with hinitial | hinitial
    · exact h _ hx _ hy hinitial
    · exact (h _ hy _ hx hinitial).symm
  obtain ⟨m, isSource, names⟩ := x
  obtain ⟨m', isSource', names'⟩ := y
  obtain rfl : m = m' := hmodule
  obtain rfl : isSource = isSource' := hsort
  obtain rfl : names = names' := List.append_cancel_left heq
  rfl

end Overlaps

end Boardwright
