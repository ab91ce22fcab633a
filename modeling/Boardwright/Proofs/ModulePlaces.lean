import Boardwright.Proofs.Region

/-!
# Names of modules lead below the root

The segments of a module's name are joined to the root one by one.  Joining does not look at what it
joins: an absolute part would take the place of the root, and two dots would lead out of it.  That
neither happens is left to the check of the segments, and here the check and the joining are brought
together.

* **`Path.parts`**: a path as it is compared with others, without the slashes and dots that do not
  count.
* **`parts_eq_singleton_iff`**: a text that is a single part of a path, and spelled like it, is a plain
  name.
* **`parts_below`**: plain names that are joined to a path are parts behind its parts.
* **`LeadsBelow`**: the directory that a name leads to, and that nothing but this directory is read.
* **`loadFrom_stays_below`**: every name is refused or leads below the root, and different names lead to
  different directories.
-/

namespace Boardwright

namespace Path

variable {p : Path} {name : String} {names : List String}

/-! ### Parts of paths -/

/-- A part of a path. -/
inductive Part where
  /-- The root, at the beginning of an absolute path. -/
  | root
  /-- A dot at the beginning of a relative path. -/
  | here
  /-- Two dots. -/
  | up
  /-- A name. -/
  | name (text : String)
  deriving DecidableEq

/-- The part that a step of a path is.  A dot behind other steps is none. -/
def Part.ofStep? (step : String) : Option Part :=
  if step = "." then none else if step = ".." then some .up else some (.name step)

/-- The parts of a path.  Slashes that are repeated or stand at the end do not count, and dots only at
the beginning. -/
def parts (p : Path) : List Part :=
  (if isAbsoluteText p.text then [.root] else if p.steps.head? = some "." then [.here] else [])
    ++ p.steps.filterMap Part.ofStep?

theorem ofStep?_of_isPlainName (h : isPlainName name = true) : Part.ofStep? name = some (.name name) := by
  simp only [isPlainName, Bool.and_eq_true, bne_iff_ne, ne_eq] at h
  rw [Part.ofStep?, if_neg h.1.1.2, if_neg h.1.2]

theorem eq_of_ofStep?_eq_name {step : String} (h : Part.ofStep? step = some (.name name)) :
    step = name ∧ name ≠ "." ∧ name ≠ ".." := by
  unfold Part.ofStep? at h
  split at h
  · cases h
  · split at h
    · cases h
    next hdot hdots =>
      cases h
      exact ⟨rfl, hdot, hdots⟩

/-- A step of a path is not empty and has no slash in it. -/
theorem of_mem_steps {step : String} (h : step ∈ p.steps) : step ≠ "" ∧ '/' ∉ step.toList := by
  rw [← filter_pieces, List.mem_filter, bne_iff_ne] at h
  exact ⟨h.2, mem_pieces_slash h.1⟩

/-- A text is a single part of a path, and spelled like it, exactly when it is a plain name. -/
theorem parts_eq_singleton_iff : (⟨name⟩ : Path).parts = [.name name] ↔ isPlainName name = true := by
  constructor
  · intro h
    have hmem : Part.name name ∈ (⟨name⟩ : Path).steps.filterMap Part.ofStep? := by
      have hpart : Part.name name ∈ (⟨name⟩ : Path).parts := by simp [h]
      rcases List.mem_append.1 hpart with hlead | hsteps
      · -- neither the root nor a dot is a name
        split at hlead
        · simp at hlead
        · split at hlead
          · simp at hlead
          · simp at hlead
      · exact hsteps
    obtain ⟨step, hstep, hname⟩ := List.mem_filterMap.1 hmem
    obtain ⟨rfl, hdot, hdots⟩ := eq_of_ofStep?_eq_name hname
    obtain ⟨hempty, hslash⟩ := of_mem_steps hstep
    simp [isPlainName, hempty, hdot, hdots, hslash]
  · intro h
    have hdot : name ≠ "." := by
      rintro rfl
      exact absurd h (by decide)
    simp [parts, steps_of_isPlainName h, isAbsoluteText_of_isPlainName h, ofStep?_of_isPlainName h, hdot]

theorem isAbsoluteText_join (p : Path) (h : isPlainName name = true) :
    isAbsoluteText (p.join name).text = isAbsoluteText p.text := by
  have hstart := start_join p h
  unfold start at hstart
  cases habsolute : isAbsoluteText p.text with
  | true =>
    rw [habsolute, if_pos rfl] at hstart
    by_contra hnot
    rw [if_neg hnot] at hstart
    cases hstart
  | false =>
    rw [habsolute, if_neg Bool.false_ne_true] at hstart
    rw [← Bool.not_eq_true]
    intro hjoined
    rw [if_pos hjoined] at hstart
    cases hstart

theorem parts_join (p : Path) (h : isPlainName name = true) :
    (p.join name).parts = p.parts ++ [.name name] := by
  have hdot : name ≠ "." := by
    rintro rfl
    exact absurd h (by decide)
  have hhead : (p.steps ++ [name]).head? = some "." ↔ p.steps.head? = some "." := by
    cases p.steps with
    | nil => simp [hdot]
    | cons step rest => simp
  simp only [parts, isAbsoluteText_join p h, steps_join p h, hhead, List.filterMap_append,
    List.filterMap_cons, List.filterMap_nil, ofStep?_of_isPlainName h, List.append_assoc]

theorem parts_below (p : Path) (h : ∀ name ∈ names, isPlainName name = true) :
    (p.below names).parts = p.parts ++ names.map .name := by
  induction names generalizing p with
  | nil => rw [below_nil, List.map_nil, List.append_nil]
  | cons name rest ih =>
    obtain ⟨hname, hrest⟩ := List.forall_mem_cons.1 h
    rw [below_cons, ih (p.join name) hrest, parts_join p hname, List.map_cons, List.append_assoc,
      List.singleton_append]

end Path

/-! ### Where the name of a module leads -/

variable {root : Path} {name other : String}

theorem hasPlainSegments_iff :
    hasPlainSegments name = true ↔ ∀ segment ∈ nameSegments name, isPlainName segment = true :=
  List.all_eq_true

theorem isPlainName_iff {s : String} :
    isPlainName s = true ↔ s ≠ "" ∧ '/' ∉ s.toList ∧ s ≠ "." ∧ s ≠ ".." := by
  simp only [isPlainName, Bool.and_eq_true, bne_iff_ne, ne_eq, Bool.not_eq_true', List.contains_eq_mem,
    decide_eq_false_iff_not]
  tauto

theorem nameSegments_injective (h : nameSegments name = nameSegments other) : name = other := by
  rw [← intercalate_nameSegments name, h, intercalate_nameSegments]

/-- The name of a module that is not there. -/
def Unavailable (tree : FileTree) (root : Path) (name : String) : Prop :=
  loadFrom tree root name = .error (.compilation ("Unavailable module " ++ name))

/-- The segments of a name lead to a directory below the root, segment by segment.  If it is no
directory, no file is read; if it is one, only what is in it counts. -/
structure LeadsBelow (root : Path) (name : String) : Prop where
  text : (moduleDirectory root name).text = root.text ++ root.glue ++ "/".intercalate (nameSegments name)
  parts : (moduleDirectory root name).parts = root.parts ++ (nameSegments name).map .name
  destination : (moduleDirectory root name).destination = (nameSegments name).reverse ++ root.destination
  absent : ∀ tree : FileTree, tree.isDirectory (moduleDirectory root name) = false →
    Unavailable tree root name
  confined : ∀ s t : FileTree, s.isDirectory (moduleDirectory root name) = true →
    t.isDirectory (moduleDirectory root name) = true →
    FileTree.SameBelow (moduleDirectory root name).destination s t →
    loadFrom s root name = loadFrom t root name

theorem unavailable_of_not_plain (h : hasPlainSegments name = false) (tree : FileTree) (root : Path) :
    Unavailable tree root name := by
  rw [Unavailable, loadFrom, h, Bool.false_and, if_neg Bool.false_ne_true]
  rfl

theorem unavailable_of_not_directory {tree : FileTree}
    (h : tree.isDirectory (moduleDirectory root name) = false) : Unavailable tree root name := by
  rw [Unavailable, loadFrom, h, Bool.and_false, if_neg Bool.false_ne_true]
  rfl

/-- A description is looked for in the directory of its module and nowhere else. -/
theorem loadFrom_of_sameBelow {s t : FileTree} (hs : s.isDirectory (moduleDirectory root name) = true)
    (ht : t.isDirectory (moduleDirectory root name) = true)
    (h : FileTree.SameBelow (moduleDirectory root name).destination s t) :
    loadFrom s root name = loadFrom t root name := by
  have hdescription : ∀ part ∈ [descriptionFile], isPlainName part = true := by decide
  have hreach := FileTree.reach_below h (.of_isDirectory hs) (.of_isDirectory ht) hdescription
    (List.cons_ne_nil _ _)
  rw [Path.below_cons, Path.below_nil] at hreach
  rw [loadFrom, loadFrom, hs, ht, loadModule_of_read (FileTree.read_of_reach hreach)]

theorem leadsBelow (root : Path) (h : hasPlainSegments name = true) : LeadsBelow root name := by
  have hplain := hasPlainSegments_iff.1 h
  have hbelow : moduleDirectory root name = root.below (nameSegments name) := rfl
  refine ⟨?_, ?_, ?_, fun _ h => unavailable_of_not_directory h,
    fun _ _ hs ht h => loadFrom_of_sameBelow hs ht h⟩
  · have hrelative : Path.isAbsoluteText (modulePath name) = false := by
      rw [modulePath_eq]
      apply Path.isAbsoluteText_intercalate
      · exact fun segment hsegment => (isPlainName_iff.1 (hplain segment hsegment)).2.1
      · intro hempty
        exact (isPlainName_iff.1 (hplain "" (List.mem_of_head? hempty))).1 rfl
    rw [hbelow, ← join_modulePath root h, Path.join_of_relative root hrelative, modulePath_eq]
  · rw [hbelow, Path.parts_below root hplain]
  · rw [hbelow, (Path.descends_below root hplain).destination]

theorem parts_modulePath (h : hasPlainSegments name = true) :
    (⟨modulePath name⟩ : Path).parts = (nameSegments name).map .name := by
  have hjoin : (⟨""⟩ : Path).join (modulePath name) = ⟨modulePath name⟩ := by
    rw [Path.join]
    split
    · rfl
    · simp
  rw [← hjoin, join_modulePath _ h, Path.parts_below _ (hasPlainSegments_iff.1 h)]
  rfl

/-- **Names of modules stay below the root.**  A name is refused in every tree, unless each of its
segments is a single part of a path.  Then no segment is empty, a dot, two dots or has a slash in it,
and the name leads to a directory below the root, the only one that is read.  Different names of this
sort lead to different directories, and their relative paths are different. -/
theorem loadFrom_stays_below (root : Path) :
    (∀ name, hasPlainSegments name = true ↔
      ∀ segment ∈ nameSegments name, (⟨segment⟩ : Path).parts = [.name segment]) ∧
    (∀ name, hasPlainSegments name = false → ∀ tree, Unavailable tree root name) ∧
    (∀ name, hasPlainSegments name = true →
      (∀ segment ∈ nameSegments name,
        segment ≠ "" ∧ '/' ∉ segment.toList ∧ segment ≠ "." ∧ segment ≠ "..") ∧
      LeadsBelow root name) ∧
    ∀ name other, hasPlainSegments name = true → hasPlainSegments other = true → name ≠ other →
      (moduleDirectory root name).parts ≠ (moduleDirectory root other).parts ∧
      (moduleDirectory root name).destination ≠ (moduleDirectory root other).destination ∧
      (⟨modulePath name⟩ : Path).parts ≠ (⟨modulePath other⟩ : Path).parts := by
  refine ⟨fun name => ?_, fun name h tree => unavailable_of_not_plain h tree root, fun name h => ?_, ?_⟩
  · simp only [hasPlainSegments_iff, Path.parts_eq_singleton_iff]
  · exact ⟨fun segment hsegment => isPlainName_iff.1 (hasPlainSegments_iff.1 h segment hsegment),
      leadsBelow root h⟩
  · intro name other h h' hne
    have hsegments : nameSegments name ≠ nameSegments other := fun heq => hne (nameSegments_injective heq)
    have hparts : (nameSegments name).map Path.Part.name ≠ (nameSegments other).map Path.Part.name :=
      fun heq => hsegments (List.map_injective_iff.2 (fun a b hab => Path.Part.name.inj hab) heq)
    refine ⟨?_, ?_, ?_⟩
    · rw [(leadsBelow root h).parts, (leadsBelow root h').parts]
      exact fun heq => hparts (List.append_cancel_left heq)
    · rw [(leadsBelow root h).destination, (leadsBelow root h').destination]
      exact fun heq => hsegments (List.reverse_injective (List.append_cancel_right heq))
    · rw [parts_modulePath h, parts_modulePath h']
      exact hparts

/-- A directory with one module. -/
def utilsTree : FileTree :=
  (((FileTree.empty.set ["mods"] .directory).set ["acp", "mods"] .directory).set
    ["utils", "acp", "mods"] .directory).set ["description.json", "utils", "acp", "mods"]
      (.file "\x7b\"library\": \x7b\"name\": \"acp.utils\"\x7d\x7d".toUTF8)

/-- The same beside a description that no name leads to. -/
def utilsTreeWithSecret : FileTree :=
  (utilsTree.set ["secret"] .directory).set ["description.json", "secret"]
    (.file "\x7b\"library\": \x7b\"name\": \"secret\"\x7d\x7d".toUTF8)

theorem loadFrom_stays_below_mods :
    (moduleDirectory ⟨"mods/"⟩ "acp.utils").destination = ["utils", "acp", "mods"] ∧
      loadFrom utilsTreeWithSecret ⟨"mods/"⟩ "acp.utils" = loadFrom utilsTree ⟨"mods/"⟩ "acp.utils" ∧
      (∀ name ∈ ["../secret", "acp/../../secret", "acp./secret", "acp..utils", "acp./", ""],
        Unavailable utilsTreeWithSecret ⟨"mods/"⟩ name) ∧
      (moduleDirectory ⟨"mods/"⟩ "acp.utils").destination ≠
        (moduleDirectory ⟨"mods/"⟩ "acp").destination := by
  obtain ⟨-, hrefused, hbelow, hdistinct⟩ := loadFrom_stays_below ⟨"mods/"⟩
  obtain ⟨-, hutils⟩ := hbelow "acp.utils" (by decide)
  have hplace : (moduleDirectory ⟨"mods/"⟩ "acp.utils").destination = ["utils", "acp", "mods"] := by
    rw [hutils.destination]
    decide
  refine ⟨hplace, ?_, ?_, ?_⟩
  · apply hutils.confined
    · decide +kernel
    · decide +kernel
    rw [hplace]
    have hshort : ∀ l : Location, l.length < 4 → ¬l.IsIn ["utils", "acp", "mods"] := by
      rintro l hl ⟨inner, first, rfl, -⟩
      simp only [List.length_append, List.length_cons, List.length_nil] at hl
      omega
    exact (FileTree.sameBelow_set _ _ (hshort _ (by decide))).trans
      (FileTree.sameBelow_set _ _ (hshort _ (by decide)))
  · have hnone : ∀ name ∈ ["../secret", "acp/../../secret", "acp./secret", "acp..utils", "acp./", ""],
        hasPlainSegments name = false := by decide
    exact fun name hname => hrefused name (hnone name hname) _
  · exact (hdistinct "acp.utils" "acp" (by decide) (by decide) (by decide)).2.1

end Boardwright
