import Boardwright.Build
import Boardwright.Proofs.Preparation
import Boardwright.Proofs.Walking

/-!
# The stages of a build

A build checks everything it can check, then makes the directories of the library and copies the files
of the modules, then prepares all generated files, and only then writes them.  A failure belongs to one
of these stages, and what it leaves behind is what the stages before it have done.

* **`isPlainName_libraryName`**: an accepted name of a library is the name of an entry.
* **`Accepted`**: everything that is checked before a file is touched.
* **`accepted_iff`**: the checks of a build, in the order in which they are made, say the same.
* **`carryOut_eq_ok_iff`**: a build that succeeds has passed all stages.
* **`FailsAt`**: the stages at which a build can fail, each with the tree that is left.
* **`build_failsAt`**: every failure belongs to one of them.
* **`build_staged`**: no file is touched unless everything is accepted, and a failure of the first phases
  leaves no generated file.
-/

namespace Boardwright

open Fallible Generation

/-! ### Checks -/

namespace Settings

theorem check_eq_ok_iff {s : Settings} :
    s.check = .ok () ↔
      Text.isBlankText s.libraryName = false ∧
        ∀ c ∈ s.libraryName.toList, c.isAlphanum = true ∨ c = ' ' := by
  rw [check]
  cases hblank : Text.isBlankText s.libraryName with
  | true => simp
  | false =>
    simp only [Bool.false_eq_true, if_false, true_and]
    split
    next hall => simpa [List.all_eq_true] using hall
    next hall => simpa [List.all_eq_true] using hall

theorem isPlainName_libraryName {s : Settings} (h : s.check = .ok ()) :
    isPlainName s.libraryName = true := by
  obtain ⟨hblank, hchars⟩ := check_eq_ok_iff.1 h
  have hnot : ∀ c, c = '.' ∨ c = '/' → c ∉ s.libraryName.toList := by
    rintro c (rfl | rfl) hc
    · exact absurd (hchars _ hc) (by decide)
    · exact absurd (hchars _ hc) (by decide)
  have hempty : s.libraryName ≠ "" := by
    intro hname
    rw [hname] at hblank
    cases hblank
  have hdot : s.libraryName ≠ "." := by
    intro hname
    exact hnot '.' (.inl rfl) (by rw [hname]; decide)
  have hdots : s.libraryName ≠ ".." := by
    intro hname
    exact hnot '.' (.inl rfl) (by rw [hname]; decide)
  have hslash : '/' ∉ s.libraryName.toList := hnot '/' (.inr rfl)
  simp [isPlainName, hempty, hdot, hdots, hslash]

theorem destination_libraryDirectory {s : Settings} (h : s.check = .ok ()) :
    s.libraryDirectory.destination = s.libraryName :: s.outputRoot.destination :=
  Path.destination_join _ (isPlainName_libraryName h)

end Settings

theorem Conformance.checkNamesFrom_eq_ok_iff {seen : List String} {components : List Component} :
    checkNamesFrom seen components = .ok () ↔
      (components.map (·.name)).Nodup ∧ ∀ c ∈ components, c.name ∉ seen := by
  induction components generalizing seen with
  | nil => simp [checkNamesFrom]
  | cons c rest ih =>
    rw [checkNamesFrom, List.map_cons, List.nodup_cons, List.forall_mem_cons]
    by_cases hseen : c.name ∈ seen
    · simp [hseen]
    · rw [if_neg hseen, ih]
      simp only [List.mem_cons, not_or, List.mem_map, not_exists, not_and]
      constructor
      · rintro ⟨hnodup, hrest⟩
        exact ⟨⟨fun d hd => (hrest d hd).1, hnodup⟩, hseen, fun d hd => (hrest d hd).2⟩
      · rintro ⟨⟨hfresh, hnodup⟩, -, hrest⟩
        exact ⟨hnodup, fun d hd => ⟨hfresh d hd, hrest d hd⟩⟩

theorem Conformance.checkNames_eq_ok_iff {components : List Component} :
    checkNames components = .ok () ↔ (components.map (·.name)).Nodup := by
  rw [checkNames, checkNamesFrom_eq_ok_iff]
  simp

/-- Everything that is checked before a file is touched, and what the generators get from it. -/
structure Accepted (w : Workshop) (settings : Settings) (tree : FileTree) (input : Input) : Prop where
  checked : settings.check = .ok ()
  loaded : Description.loadProject tree settings.projectFile = .ok input.project
  board : w.boards.find? input.project.platform = some input.board
  names : (input.project.components.map (·.name)).Nodup
  modules : (closure (directorySource tree w.modulesRoot) input.project.referencedModules).result
    = .ok input.modules
  components : ∀ c ∈ input.project.components,
    Conformance.checkComponent input.board input.modules c = .ok ()
  imports : Conformance.checkImports input.modules input.project = .ok ()
  settings_eq : input.settings = settings
  chance_eq : input.chance = w.chance

variable {w : Workshop} {settings : Settings} {tree : FileTree} {input : Input} {project : Project}

theorem openProject_eq_ok_iff :
    openProject settings tree = .ok project ↔
      settings.check = .ok () ∧ Description.loadProject tree settings.projectFile = .ok project := by
  rw [openProject, bind_eq_ok_iff]
  simp only [mapError_eq_ok_iff]
  constructor
  · rintro ⟨⟨⟩, hcheck, hload⟩
    exact ⟨hcheck, hload⟩
  · rintro ⟨hcheck, hload⟩
    exact ⟨(), hcheck, hload⟩

theorem accepted_iff :
    Accepted w settings tree input ↔
      openProject settings tree = .ok input.project ∧
        plan w.boards w.chance (directorySource tree w.modulesRoot) settings input.project
          = .ok input := by
  rw [openProject_eq_ok_iff, plan, bind_eq_ok_iff]
  constructor
  · intro h
    refine ⟨⟨h.checked, h.loaded⟩, (), h.checked, ?_⟩
    simp only [h.board, bind_eq_ok_iff, mapError_eq_ok_iff]
    refine ⟨(), Conformance.checkNames_eq_ok_iff.2 h.names, input.modules, h.modules,
      (), forM_eq_ok_iff.2 h.components, (), h.imports, ?_⟩
    rw [← h.settings_eq, ← h.chance_eq]
    rfl
  · rintro ⟨⟨hcheck, hload⟩, ⟨⟩, -, hrest⟩
    obtain ⟨_, project, _, _, _⟩ := input
    cases hboard : w.boards.find? project.platform with
    | none =>
      rw [hboard] at hrest
      cases hrest
    | some board =>
      rw [hboard] at hrest
      simp only [bind_eq_ok_iff, mapError_eq_ok_iff] at hrest
      obtain ⟨⟨⟩, hnames, modules, hmodules, ⟨⟩, hcomponents, ⟨⟩, himports, hinput⟩ := hrest
      cases hinput
      exact ⟨hcheck, hload, hboard, Conformance.checkNames_eq_ok_iff.1 hnames, hmodules,
        forM_eq_ok_iff.1 hcomponents, himports, rfl, rfl⟩

theorem project_of_plan {boards : Board.Registry} {chance : Nat} {source : ModuleSource}
    (h : plan boards chance source settings project = .ok input) : input.project = project := by
  obtain ⟨⟨⟩, -, h⟩ := bind_eq_ok_iff.1 h
  split at h
  · cases h
  · simp only [bind_eq_ok_iff] at h
    obtain ⟨⟨⟩, -, modules, -, ⟨⟩, -, ⟨⟩, -, h⟩ := h
    cases h
    rfl

theorem build_of_accepted (h : Accepted w settings tree input) :
    build w settings tree = carryOut input tree := by
  obtain ⟨hopen, hplan⟩ := accepted_iff.1 h
  simp only [build, hopen, buildProject, hplan]

theorem Accepted.check_settings (h : Accepted w settings tree input) : input.settings.check = .ok () := by
  rw [h.settings_eq]
  exact h.checked

theorem build_of_not_accepted (h : ∀ input, ¬Accepted w settings tree input) :
    ∃ f, build w settings tree = (tree, .error f) := by
  rw [build]
  cases hopen : openProject settings tree with
  | error f => exact ⟨f, rfl⟩
  | ok project =>
    simp only [buildProject]
    cases hplan : plan w.boards w.chance (directorySource tree w.modulesRoot) settings project with
    | error f => exact ⟨f, rfl⟩
    | ok input =>
      -- the project that is planned for is the one that was loaded
      have hproject : input.project = project := project_of_plan hplan
      rw [← hproject] at hopen hplan
      exact absurd (accepted_iff.2 ⟨hopen, hplan⟩) (h input)

/-- What was built was accepted. -/
theorem exists_accepted {after : FileTree} {report : Report}
    (h : build w settings tree = (after, .ok report)) : ∃ input, Accepted w settings tree input := by
  by_contra hnone
  obtain ⟨f, hbuild⟩ := build_of_not_accepted (not_exists.1 hnone)
  rw [hbuild] at h
  cases h

/-! ### Files -/

/-- The first phases of the standard generators, from the state that a build starts with. -/
def firstPhases (input : Input) :
    State × Except Failure (List (Generator State Artifacts × Template.Replacements)) :=
  (standardPipeline input).preparation { privateNamespace := defaultNamespace }

/-- The stages at which a build can fail, each with the tree that is left. -/
inductive FailsAt (w : Workshop) (settings : Settings) (tree : FileTree) (f : Failure) :
    FileTree → Prop where
  /-- Something is not accepted. -/
  | check : (∀ input, ¬Accepted w settings tree input) → FailsAt w settings tree f tree
  /-- A directory is not made or a file of a module is not copied. -/
  | library {input : Input} {a : Artifacts} : Accepted w settings tree input →
      prepareLibrary input ⟨tree, []⟩ = (a, .error f) → FailsAt w settings tree f a.tree
  /-- A first phase fails. -/
  | prepare {input : Input} {a : Artifacts} : Accepted w settings tree input →
      prepareLibrary input ⟨tree, []⟩ = (a, .ok ()) → (firstPhases input).2 = .error f →
      FailsAt w settings tree f a.tree
  /-- All first phases succeed, and a second phase fails. -/
  | generate {input : Input} {a b : Artifacts} {s : State}
      {prepared : List (Generator State Artifacts × Template.Replacements)} :
      Accepted w settings tree input → prepareLibrary input ⟨tree, []⟩ = (a, .ok ()) →
      firstPhases input = (s, .ok prepared) → generateAll s prepared a = (b, .error f) →
      FailsAt w settings tree f b.tree

section Files

variable {a : Artifacts} {f : Failure}

theorem carryOut_of_library_error (h : prepareLibrary input ⟨tree, []⟩ = (a, .error f)) :
    carryOut input tree = (a.tree, .error f) := by
  unfold carryOut
  rw [h]

theorem carryOut_of_preparation_error (hlibrary : prepareLibrary input ⟨tree, []⟩ = (a, .ok ()))
    (hprepare : (firstPhases input).2 = .error f) : carryOut input tree = (a.tree, .error f) := by
  rw [firstPhases] at hprepare
  have hrun := Pipeline.run_of_preparation_error hprepare a
  unfold carryOut
  rw [hlibrary]
  simp only [hrun]

theorem carryOut_eq_of_prepared {s : State}
    {prepared : List (Generator State Artifacts × Template.Replacements)}
    (hlibrary : prepareLibrary input ⟨tree, []⟩ = (a, .ok ()))
    (hprepare : firstPhases input = (s, .ok prepared)) :
    carryOut input tree = ((generateAll s prepared a).1.tree,
      (generateAll s prepared a).2.map fun _ =>
        ⟨input.modules.keys, s.storageUsage, (generateAll s prepared a).1.written⟩) := by
  rw [firstPhases] at hprepare
  have hrun := Pipeline.run_of_preparation hprepare a
  unfold carryOut
  rw [hlibrary]
  simp only [hrun]
  cases generateAll s prepared a with
  | mk b outcome => cases outcome <;> rfl

theorem carryOut_of_prepared {s : State}
    {prepared : List (Generator State Artifacts × Template.Replacements)}
    (hlibrary : prepareLibrary input ⟨tree, []⟩ = (a, .ok ()))
    (hprepare : firstPhases input = (s, .ok prepared)) :
    (carryOut input tree).1 = (generateAll s prepared a).1.tree ∧
      ((carryOut input tree).2 = .error f → (generateAll s prepared a).2 = .error f) := by
  rw [carryOut_eq_of_prepared hlibrary hprepare]
  cases generateAll s prepared a with
  | mk b outcome =>
    cases outcome with
    | error f' => simp [Except.map]
    | ok _ => simp [Except.map]

/-- A build that succeeds has passed all stages, and reports what they have done. -/
theorem carryOut_eq_ok_iff {after : FileTree} {report : Report} :
    carryOut input tree = (after, .ok report) ↔
      ∃ (b : Artifacts) (s : State)
        (prepared : List (Generator State Artifacts × Template.Replacements)),
        prepareLibrary input ⟨tree, []⟩ = (b, .ok ()) ∧ firstPhases input = (s, .ok prepared) ∧
          generateAll s prepared b = (⟨after, report.files⟩, .ok ()) ∧
            report.modules = input.modules.keys ∧ report.storageUsage = s.storageUsage := by
  constructor
  · intro h
    cases hlibrary : prepareLibrary input ⟨tree, []⟩ with
    | mk b outcome =>
      cases outcome with
      | error f =>
        rw [carryOut_of_library_error hlibrary] at h
        cases h
      | ok _ =>
        cases hprepare : firstPhases input with
        | mk s result =>
          cases result with
          | error f =>
            rw [carryOut_of_preparation_error hlibrary (by rw [hprepare])] at h
            cases h
          | ok prepared =>
            rw [carryOut_eq_of_prepared hlibrary hprepare] at h
            cases hgenerate : generateAll s prepared b with
            | mk c outcome =>
              rw [hgenerate] at h
              cases outcome with
              | error f => cases h
              | ok _ =>
                cases h
                exact ⟨b, s, prepared, rfl, rfl, hgenerate, rfl, rfl⟩
  · intro h
    obtain ⟨b, s, prepared, hlibrary, hprepare, hgenerate, hmodules, husage⟩ := h
    rw [carryOut_eq_of_prepared hlibrary hprepare, hgenerate, ← hmodules, ← husage]
    rfl

end Files

theorem build_failsAt {f : Failure} (h : (build w settings tree).2 = .error f) :
    FailsAt w settings tree f (build w settings tree).1 := by
  by_cases haccepted : ∃ input, Accepted w settings tree input
  · obtain ⟨input, haccepted⟩ := haccepted
    rw [build_of_accepted haccepted] at h ⊢
    cases hlibrary : prepareLibrary input ⟨tree, []⟩ with
    | mk a outcome =>
      cases outcome with
      | error f' =>
        rw [carryOut_of_library_error hlibrary] at h ⊢
        cases h
        exact .library haccepted hlibrary
      | ok _ =>
        cases hprepare : firstPhases input with
        | mk s result =>
          cases result with
          | error f' =>
            have hfailed : (firstPhases input).2 = .error f' := by rw [hprepare]
            rw [carryOut_of_preparation_error hlibrary hfailed] at h ⊢
            cases h
            exact .prepare haccepted hlibrary hfailed
          | ok prepared =>
            obtain ⟨htree, herror⟩ := carryOut_of_prepared hlibrary hprepare
            rw [htree]
            exact .generate haccepted hlibrary hprepare (Prod.ext rfl (herror h))
  · obtain ⟨f', hbuild⟩ := build_of_not_accepted (not_exists.1 haccepted)
    rw [hbuild]
    exact .check (not_exists.1 haccepted)

/-- **Failures are staged.**  A build that changes anything has passed all checks.  If a first phase
fails, the tree is the one with the directories and the files of the modules alone.  Every failure
belongs to one of the stages. -/
theorem build_staged (w : Workshop) (settings : Settings) (tree : FileTree) :
    ((build w settings tree).1 ≠ tree → ∃ input, Accepted w settings tree input) ∧
    (∀ input a f, Accepted w settings tree input →
      prepareLibrary input ⟨tree, []⟩ = (a, .ok ()) → (firstPhases input).2 = .error f →
        build w settings tree = (a.tree, .error f)) ∧
    ∀ f, (build w settings tree).2 = .error f →
      FailsAt w settings tree f (build w settings tree).1 := by
  refine ⟨?_, ?_, fun f hf => build_failsAt hf⟩
  · intro hchanged
    by_contra hnone
    obtain ⟨f, hbuild⟩ := build_of_not_accepted (not_exists.1 hnone)
    rw [hbuild] at hchanged
    exact hchanged rfl
  · intro input a f haccepted hlibrary hprepare
    rw [build_of_accepted haccepted, carryOut_of_preparation_error hlibrary hprepare]

/-- A directory with a project that stores a text.  Texts have no place in permanent storage. -/
def storedText : FileTree :=
  FileTree.empty
    |>.set ["p.json"] (.file ("\x7b\"project\": \x7b\"platform\": \"ArduinoUno\", \"eeprom\": "
      ++ "\x7b\"items\": [\x7b\"name\": \"greeting\", \"type\": \"string\"\x7d]\x7d\x7d\x7d").toUTF8)
    |>.set ["modules"] .directory

/-- What the generators get from it. -/
def storedTextInput : Input where
  settings := { projectFile := ⟨"p.json"⟩, outputRoot := ⟨"out"⟩, libraryName := "Blink" }
  project := { platform := "ArduinoUno", storage := [{ name := "greeting", type := "string" }] }
  board := ⟨"ArduinoUno", 14, 6, 2, 1, 9⟩
  modules := .empty

theorem storedText_accepted :
    Accepted ⟨⟨"modules"⟩, .standard, 0⟩ storedTextInput.settings storedText storedTextInput := by
  refine ⟨?_, ?_, ?_, ?_, rfl, nofun, rfl, rfl, rfl⟩
  · decide +kernel
  · decide +kernel
  · decide +kernel
  · decide +kernel

theorem storedText_unprepared : ∃ f, (firstPhases storedTextInput).2 = .error f := by
  rw [firstPhases, Pipeline.preparation, scheduled_standardPipeline]
  exact ⟨_, rfl⟩

theorem storedText_library :
    ∃ a, prepareLibrary storedTextInput ⟨storedText, []⟩ = (a, .ok ()) ∧
      a.tree.get? ["Blink", "out"] = some .directory := by
  refine ⟨(prepareLibrary storedTextInput ⟨storedText, []⟩).1, Prod.ext rfl ?_, ?_⟩
  · decide +kernel
  · decide +kernel

theorem build_staged_storedText :
    ∃ a f, Accepted ⟨⟨"modules"⟩, .standard, 0⟩ storedTextInput.settings storedText storedTextInput ∧
      prepareLibrary storedTextInput ⟨storedText, []⟩ = (a, .ok ()) ∧
        (firstPhases storedTextInput).2 = .error f ∧
          build ⟨⟨"modules"⟩, .standard, 0⟩ storedTextInput.settings storedText = (a.tree, .error f) ∧
            a.tree ≠ storedText := by
  obtain ⟨a, hlibrary, hmade⟩ := storedText_library
  obtain ⟨f, hprepare⟩ := storedText_unprepared
  refine ⟨a, f, storedText_accepted, hlibrary, hprepare, ?_, ?_⟩
  · exact (build_staged _ _ _).2.1 storedTextInput a f storedText_accepted hlibrary hprepare
  · intro hsame
    rw [hsame] at hmade
    revert hmade
    decide +kernel

end Boardwright
