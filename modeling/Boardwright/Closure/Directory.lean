import Boardwright.Closure
import Boardwright.Description.ModuleDescription

/-!
# Modules in a directory

Modules lie below a root directory, each in a directory of its own: the parts of its dotted name lead
there.  A part must be a plain name, so that no name leads out of the root.

* **`moduleNames`**: the dotted names of all directories below the root.
* **`loadFrom`**: the module with a name.
* **`directorySource`**: the source of these modules.
-/

namespace Boardwright

/-- The file that describes a module, in the module's directory. -/
def descriptionFile : String := "description.json"

/-- Whether all parts of a name are plain. -/
def hasPlainSegments (name : String) : Bool :=
  (nameSegments name).all isPlainName

/-- The module with a name below a root. -/
def loadFrom (tree : FileTree) (root : Path) (name : String) : Except Failure Module :=
  if hasPlainSegments name && tree.isDirectory (moduleDirectory root name) then
    Description.loadModule tree ((moduleDirectory root name).join descriptionFile)
  else .error (unavailable name)

/-- The dotted names of all entries below a root. -/
def moduleNames (tree : FileTree) (root : Path) : List String :=
  match tree.walk (tree.place root.start) root.steps with
  | .ok place => place.inner.entries.map fun e => ".".intercalate e.1.outermostFirst
  | .error _ => []

/-- The parts of a name, joined by dots, are the name. -/
theorem intercalate_nameSegments (name : String) : ".".intercalate (nameSegments name) = name :=
  Text.intercalate_splitOn rfl name

/-- The parts of a name are steps down from the root. -/
theorem steps_moduleDirectory (root : Path) {name : String} (h : hasPlainSegments name = true) :
    (moduleDirectory root name).start = root.start
      ∧ (moduleDirectory root name).steps = root.steps ++ nameSegments name := by
  unfold hasPlainSegments at h
  unfold moduleDirectory
  generalize nameSegments name = segments at h
  induction segments generalizing root with
  | nil => simp
  | cons s rest ih =>
    simp only [List.all_cons, Bool.and_eq_true] at h
    obtain ⟨hstart, hsteps⟩ := ih (root.join s) h.2
    rw [List.foldl_cons, hstart, hsteps, Path.start_join root h.1, Path.steps_join root h.1]
    simp

/-- A name has at least one part. -/
theorem nameSegments_ne_nil (name : String) : nameSegments name ≠ [] := by
  simp [nameSegments, Text.splitOn, Text.splitChars_ne_nil]

/-- Plain parts of a name never lead to an anchor. -/
theorem isAnchor_of_hasPlainSegments {name : String} (h : hasPlainSegments name = true)
    (l : Location) : Location.isAnchor ((nameSegments name).reverse ++ l) = false := by
  cases hs : (nameSegments name).reverse with
  | nil => exact absurd (List.reverse_eq_nil_iff.1 hs) (nameSegments_ne_nil name)
  | cons s rest =>
    have hplain : isPlainName s = true :=
      List.all_eq_true.1 h s (List.mem_reverse.1 (by simp [hs]))
    have hslash : s ≠ "/" := fun hc => by simp [hc, isPlainName] at hplain
    have hdots : s ≠ ".." := fun hc => by simp [hc, isPlainName] at hplain
    simp [Location.isAnchor, Location.root, hslash, hdots]

/-- Only the names of entries below the root can be loaded. -/
theorem mem_moduleNames {tree : FileTree} {root : Path} {name : String} {m : Module}
    (h : loadFrom tree root name = .ok m) : name ∈ moduleNames tree root := by
  unfold loadFrom at h
  split at h
  · next hc =>
    rw [Bool.and_eq_true] at hc
    obtain ⟨place, hwalk, hnode⟩ := FileTree.exists_walk_of_isDirectory hc.2
    obtain ⟨hstart, hsteps⟩ := steps_moduleDirectory root hc.1
    rw [hstart, hsteps, FileTree.walk_append] at hwalk
    simp only [bind, Except.bind] at hwalk
    split at hwalk
    · simp at hwalk
    · next above habove =>
      have hlocation := FileTree.walk_of_isPlainName hc.1 hwalk
      rw [FileTree.walk_place habove] at hwalk
      rw [FileTree.walk_place hwalk, hlocation] at hnode
      have hmem := FileTree.mem_entriesUnder_of_get? hnode (by simp [nameSegments_ne_nil])
        (isAnchor_of_hasPlainSegments hc.1 above.location)
      simp only [moduleNames, habove]
      rw [FileTree.walk_place habove]
      exact List.mem_map.2 ⟨_, hmem, by simp [Location.outermostFirst, intercalate_nameSegments]⟩
  · simp at h

/-- The modules below a root. -/
def directorySource (tree : FileTree) (root : Path) : ModuleSource where
  load := loadFrom tree root
  names := moduleNames tree root
  mem_names := mem_moduleNames

end Boardwright
