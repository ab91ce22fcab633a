import Boardwright.Proofs.Library

/-!
# Where a build leaves traces

The paths of a library are joined from names that come from the settings, from descriptions and from
directories of modules.  All of them are plain, so nothing leads out of the directory of the library: a
build writes files below it, and outside it makes no more than the directories that its path passes.

* **`Path.Passes`**: a path passes a location on its way.
* **`suffix_of_passes`**: without two dots these are the locations above its destination.
* **`Touched`**: what a run has written or made.
* **`Confined`**: what a run may do outside a library, and what it must have done below it.
* **`build_confined`**: every build is confined.
-/

namespace Boardwright

open Generation

/-- The path passes the location: some of its steps, from the first on, lead there. -/
def Path.Passes (p : Path) (l : Location) : Prop :=
  ∃ before, before <+: p.steps ∧ before.foldl Location.next p.start = l

theorem suffix_foldl_next {pieces : List String} (h : ".." ∉ pieces) (l : Location) :
    l <:+ pieces.foldl Location.next l := by
  induction pieces generalizing l with
  | nil => exact List.suffix_refl l
  | cons piece rest ih =>
    simp only [List.mem_cons, not_or] at h
    refine List.IsSuffix.trans ?_ (ih h.2 (l.next piece))
    by_cases hdot : piece = "."
    · rw [Location.next, if_pos hdot]
    · rw [Location.next_of_name l hdot (Ne.symm h.1)]
      exact List.suffix_cons piece l

/-- Without two dots a path passes nothing but locations above its destination. -/
theorem suffix_of_passes {p : Path} {l : Location} (h : p.Passes l) (hdots : ".." ∉ p.steps) :
    l <:+ p.destination := by
  obtain ⟨before, ⟨after, hsteps⟩, rfl⟩ := h
  rw [Path.destination, ← hsteps, List.foldl_append]
  apply suffix_foldl_next
  intro hafter
  apply hdots
  rw [← hsteps]
  exact List.mem_append_right _ hafter

/-- What a run may do to files.  Outside the directory of the library it may make directories where
nothing was and where it is `allowed`, and does nothing else.  A run that succeeds reports files below
that directory, and all other files there are as they were. -/
structure Confined (library : Location) (allowed : Location → Prop) (before after : FileTree)
    (result : Except Failure Report) : Prop where
  outside : ∀ l, ¬library <:+ l → after.get? l = before.get? l ∨
    before.get? l = none ∧ after.get? l = some .directory ∧ allowed l
  reported : ∀ report, result = .ok report → ∀ p ∈ report.files,
    after.isFile p = true ∧ ∃ inner, inner ≠ [] ∧ p.destination = inner ++ library
  others : ∀ report, result = .ok report → ∀ l, library <:+ l →
    (∀ p ∈ report.files, p.destination ≠ l) →
      ∀ file, after.get? l = some (.file file) ↔ before.get? l = some (.file file)

/-- What a run from `tree` to `fin` has written or made. -/
def Touched (tree : FileTree) (fin : Artifacts) (l : Location) : Prop :=
  (∃ p ∈ fin.written, p.destination = l) ∨
    tree.get? l = none ∧ fin.tree.get? l = some .directory

section Confinement

variable {w : Workshop} {settings : Settings} {tree : FileTree} {input : Input} {library : Location}
  {allowed : Location → Prop}

theorem confined_of_unchanged (tree : FileTree) (f : Failure) :
    Confined library allowed tree tree (.error f) :=
  ⟨fun _ _ => .inl rfl, nofun, nofun⟩

theorem Confined.mono {wider : Location → Prop} {after : FileTree} {result : Except Failure Report}
    (h : Confined library allowed tree after result) (hwider : ∀ l, allowed l → wider l) :
    Confined library wider tree after result := by
  refine ⟨fun l hl => ?_, h.reported, h.others⟩
  rcases h.outside l hl with hsame | ⟨hnone, hmade, hallowed⟩
  · exact .inl hsame
  · exact .inr ⟨hnone, hmade, hwider l hallowed⟩

/-- A directory that the permit of a build allows lies below the directory of the library, unless the
output directory passes it. -/
theorem passes_of_along {p : Path} (hcheck : settings.check = .ok ())
    (h : settings.libraryDirectory.Along p)
    (hl : ¬settings.libraryDirectory.destination <:+ p.destination) :
    settings.outputRoot.Passes p.destination := by
  have hname := Settings.isPlainName_libraryName hcheck
  have hsteps : settings.libraryDirectory.steps = settings.outputRoot.steps ++ [settings.libraryName] :=
    Path.steps_join _ hname
  have hstart : settings.libraryDirectory.start = settings.outputRoot.start := Path.start_join _ hname
  obtain ⟨hp, hinitial | ⟨names, hbelow⟩⟩ := h
  · rw [hsteps, List.prefix_concat_iff] at hinitial
    rcases hinitial with hall | hbefore
    · -- all steps: this is the directory of the library
      refine absurd ?_ hl
      rw [Path.destination, Path.destination, hp, hall, hsteps]
    · exact ⟨p.steps, hbefore, by rw [Path.destination, hp, hstart]⟩
  · rw [hbelow.destination] at hl
    exact absurd (List.suffix_append _ _) hl

theorem carryOut_confined (htree : tree.WellNamed) (hcheck : input.settings.check = .ok ())
    (hmodules : ∀ m ∈ input.modules.values, hasPlainSegments m.name = true) :
    Confined input.settings.libraryDirectory.destination input.settings.outputRoot.Passes tree
      (carryOut input tree).1 (carryOut input tree).2 := by
  obtain ⟨a, hdeeds, hafter, hfiles⟩ :=
    carryOut_deeds (library_admits hcheck hmodules) (library_guards input) htree
  -- whatever is noted lies below the directory of the library
  have hbelow : ∀ p ∈ a.written, ∃ inner, inner ≠ [] ∧
      p.destination = inner ++ input.settings.libraryDirectory.destination := by
    intro p hp
    have hplace : ∃ place, place ≠ [] ∧ (∀ name ∈ place, isPlainName name = true) ∧
        p = input.settings.libraryDirectory.below place := by
      rcases hdeeds.permitted hp with hnone | hwrite | ⟨source, hcopy⟩
      · simp at hnone
      · exact library_write_below hcheck hwrite
      · exact library_copy_below hmodules hcopy
    obtain ⟨place, hne, hplain, rfl⟩ := hplace
    refine ⟨place.reverse, by simpa using hne, ?_⟩
    exact (Path.descends_below _ hplain).destination
  rw [hafter]
  refine ⟨?_, ?_, ?_⟩
  · intro l hl
    rcases hdeeds.entry l with hsame | ⟨p, hp, rfl⟩ | ⟨hnone, hmade, p, hdirectory, rfl⟩
    · exact .inl hsame
    · obtain ⟨inner, -, hdestination⟩ := hbelow p hp
      rw [hdestination] at hl
      exact absurd (List.suffix_append _ _) hl
    · exact .inr ⟨hnone, hmade, passes_of_along hcheck hdirectory hl⟩
  · intro report hreport p hp
    rw [hfiles report hreport] at hp
    exact ⟨hdeeds.noted (by simp) p hp, hbelow p hp⟩
  · intro report hreport l _ hl content
    rcases hdeeds.entry l with hsame | ⟨p, hp, hpl⟩ | ⟨hnone, hmade, -⟩
    · rw [hsame]
    · rw [← hfiles report hreport] at hp
      exact absurd hpl (hl p hp)
    · rw [hnone, hmade]
      simp

theorem build_passes (w : Workshop) (settings : Settings) (htree : tree.WellNamed) :
    Confined settings.libraryDirectory.destination settings.outputRoot.Passes tree
      (build w settings tree).1 (build w settings tree).2 := by
  by_cases haccepted : ∃ input, Accepted w settings tree input
  · obtain ⟨input, haccepted⟩ := haccepted
    rw [build_of_accepted haccepted, ← haccepted.settings_eq]
    exact carryOut_confined htree haccepted.check_settings fun m hm => (haccepted.liesBelow hm).plain
  · obtain ⟨f, hbuild⟩ := build_of_not_accepted (not_exists.1 haccepted)
    rw [hbuild]
    exact confined_of_unchanged tree f

/-- **Builds are confined.**  Whatever the outcome, nothing outside the directory of the library is
touched, except that directories are made which the path of the output directory passes.  If there are no
two dots in that path, these are directories above the library. -/
theorem build_confined (w : Workshop) (settings : Settings) (htree : tree.WellNamed) :
    Confined settings.libraryDirectory.destination settings.outputRoot.Passes tree
        (build w settings tree).1 (build w settings tree).2 ∧
      (".." ∉ settings.outputRoot.steps →
        Confined settings.libraryDirectory.destination
          (· <:+ settings.libraryDirectory.destination) tree
          (build w settings tree).1 (build w settings tree).2) := by
  have hconfined := build_passes w settings htree
  refine ⟨hconfined, fun hdots => ?_⟩
  cases hcheck : settings.check with
  | error f =>
    -- nothing was accepted, and nothing has changed
    have hnone : ∀ input, ¬Accepted w settings tree input := by
      intro input haccepted
      rw [haccepted.checked] at hcheck
      cases hcheck
    obtain ⟨f, hbuild⟩ := build_of_not_accepted hnone
    rw [hbuild]
    exact confined_of_unchanged tree f
  | ok _ =>
    refine hconfined.mono fun l hl => ?_
    rw [Settings.destination_libraryDirectory hcheck]
    exact (suffix_of_passes hl hdots).trans (List.suffix_cons _ _)

end Confinement

/-! ### A detour -/

/-- A directory with a project that needs no modules. -/
def bareProject : FileTree :=
  .ofEntries
    [(["project.json"],
        .file "\x7b\"project\": \x7b\"platform\": \"ArduinoUno\"\x7d\x7d".toUTF8),
      (["modules"], .directory)]

/-- Settings whose output directory is reached by way of another one. -/
def detour : Settings where
  projectFile := ⟨"project.json"⟩
  outputRoot := ⟨"out/b/.."⟩
  libraryName := "Demo"

theorem bareProject_wellNamed : bareProject.WellNamed :=
  FileTree.wellNamed_ofEntries (by decide)

theorem detour_build :
    (build ⟨⟨"modules"⟩, .standard, 0⟩ detour bareProject).2.isOk = true ∧
      (build ⟨⟨"modules"⟩, .standard, 0⟩ detour bareProject).1.get? ["b", "out"] =
        some .directory := by
  decide +kernel

theorem build_confined_detour :
    (build ⟨⟨"modules"⟩, .standard, 0⟩ detour bareProject).2.isOk = true ∧
      Confined ["Demo", "out"] detour.outputRoot.Passes bareProject
        (build ⟨⟨"modules"⟩, .standard, 0⟩ detour bareProject).1
        (build ⟨⟨"modules"⟩, .standard, 0⟩ detour bareProject).2 :=
  ⟨detour_build.1, (build_confined _ detour bareProject_wellNamed).1⟩

/-- Two dots in the path of the output directory: a directory is made beside the library. -/
theorem detour_leaves_directory :
    bareProject.WellNamed ∧ ¬Confined detour.libraryDirectory.destination
      (· <:+ detour.libraryDirectory.destination) bareProject
      (build ⟨⟨"modules"⟩, .standard, 0⟩ detour bareProject).1
      (build ⟨⟨"modules"⟩, .standard, 0⟩ detour bareProject).2 := by
  refine ⟨bareProject_wellNamed, fun hconfined => ?_⟩
  have hlibrary : detour.libraryDirectory.destination = ["Demo", "out"] := by decide
  rw [hlibrary] at hconfined
  rcases hconfined.outside ["b", "out"] (by decide) with hsame | ⟨-, -, habove⟩
  · rw [detour_build.2] at hsame
    exact absurd hsame (by decide)
  · exact absurd habove (by decide)

end Boardwright
