import Boardwright.Closure.Directory
import Boardwright.Description.ProjectDescription
import Boardwright.Proofs.Closure
import Boardwright.Proofs.Lines
import Boardwright.Proofs.LoadedModules

/-!
# Loaded projects resolve completely

A closure is asked for names without the blanks around them, but the modules in it are looked up by the
names as a project has them.  That no look-up fails for its blanks is decided where the project and the
modules are loaded: all names that they can lead to are proper.

* **`Description.description?`**: the description that a project is loaded from.
* **`ModuleSource.LoadsDescriptions`**: a source whose modules are loaded from descriptions.
* **`proper_of_reachable`**: all names that a closure asks such a source for are proper.
* **`loadProject_resolves`**: the modules that a loaded project names.
-/

namespace Boardwright

open Fallible
open Text (Proper)

variable {source : ModuleSource} {seeds : List String} {p : Project} {name : String}

/-! ### Names in a project -/

namespace Description

theorem component_yields (entry : ComponentEntry) :
    Yields IsConfiguration (fun c => Proper c.type) (component entry) := by
  rw [component]
  split
  · exact .error rfl
  · exact .error rfl
  next htype => exact .ok (Text.proper_of_nonBlank? htype)

theorem libraryImport_yields (entry : String) :
    Yields IsConfiguration Proper (libraryImport entry) := by
  rw [libraryImport]
  split
  next hname => exact .ok (Text.proper_of_nonBlank? hname)
  · exact .error rfl

/-- The description of a project that a file holds. -/
def description? (tree : FileTree) (path : Path) : Option ProjectEntry :=
  match readDocument tree path with
  | .ok (tag, body) => if tag = "project" then ProjectEntry.ofValue? body else none
  | .error _ => none

theorem loadProject_eq_ok_iff {tree : FileTree} {path : Path} :
    loadProject tree path = .ok p ↔ ∃ entry, description? tree path = some entry ∧ project entry = .ok p := by
  rw [loadProject, within, mapError_eq_ok_iff, readProject, description?]
  cases readDocument tree path with
  | error fault => simp [Except.mapError, bind, Except.bind]
  | ok document =>
    obtain ⟨tag, body⟩ := document
    by_cases htag : tag = "project"
    · cases hentry : ProjectEntry.ofValue? body with
      | none => simp [Except.mapError, bind, Except.bind, htag, shaped, hentry]
      | some entry => simp [Except.mapError, bind, Except.bind, htag, shaped, hentry]
    · simp [Except.mapError, bind, Except.bind, htag]

theorem proper_of_loadProject {tree : FileTree} {path : Path} (h : loadProject tree path = .ok p) :
    (∀ c ∈ p.components, Proper c.type) ∧ ∀ name ∈ p.libraryImports, Proper name := by
  obtain ⟨entry, -, h⟩ := loadProject_eq_ok_iff.1 h
  simp only [project, bind_eq_ok_iff] at h
  obtain ⟨_, -, _, -, imports, himports, _, -, components, hcomponents, h⟩ := h
  cases h
  exact ⟨(Yields.mapM component_yields _).result components hcomponents,
    (Yields.mapM libraryImport_yields _).result imports himports⟩

end Description

theorem Project.mem_referencedModules :
    name ∈ p.referencedModules ↔ (∃ c ∈ p.components, c.type = name) ∨ name ∈ p.libraryImports := by
  rw [referencedModules, Text.mem_dedupLines, List.mem_append, List.mem_map]

theorem proper_of_mem_referencedModules {tree : FileTree} {path : Path}
    (h : Description.loadProject tree path = .ok p) (hname : name ∈ p.referencedModules) :
    Proper name := by
  obtain ⟨hcomponents, himports⟩ := Description.proper_of_loadProject h
  rcases Project.mem_referencedModules.1 hname with ⟨c, hc, rfl⟩ | himport
  · exact hcomponents c hc
  · exact himports name himport

/-! ### Names in a closure -/

/-- All modules of the source are loaded from descriptions. -/
def ModuleSource.LoadsDescriptions (source : ModuleSource) : Prop :=
  ∀ name m, source.load name = .ok m → ∃ tree path, Description.loadModule tree path = .ok m

theorem directorySource_loadsDescriptions (tree : FileTree) (root : Path) :
    (directorySource tree root).LoadsDescriptions := by
  intro name m h
  have hload : loadFrom tree root name = .ok m := h
  rw [loadFrom] at hload
  split at hload
  · exact ⟨tree, _, hload⟩
  · cases hload

theorem proper_of_reachable (hsource : source.LoadsDescriptions) (hseeds : ∀ seed ∈ seeds, Proper seed)
    (h : source.Reachable seeds name) : Proper name := by
  induction h with
  | seed hseed =>
    obtain ⟨seed, hmem, rfl⟩ := List.mem_map.1 hseed
    rw [(hseeds seed hmem).trim_eq]
    exact hseeds seed hmem
  | required _ hload hneeded _ =>
    obtain ⟨tree, path, hmodule⟩ := hsource _ _ hload
    exact (Description.wellFormed_of_loadModule hmodule).requires _ hneeded

theorem closure_ne_emptyName (hsource : source.LoadsDescriptions) (hseeds : ∀ seed ∈ seeds, Proper seed) :
    (closure source seeds).result ≠ .error .emptyName := by
  intro h
  have hreach := (closure_rounds source seeds).reachable_of_emptyName (pending_start source seeds) h
  exact (proper_of_reachable hsource hseeds hreach).nonempty rfl

/-- No other fault has the message of an empty name. -/
theorem message_ne_of_ne_emptyName {f : ClosureFault} (h : f ≠ .emptyName) :
    f.toFailure.message ≠ "Module name cannot be empty." := by
  have hfirst : ∀ name : String, "Invalid description file of module " ++ name ≠
      "Module name cannot be empty." := by
    intro name hsame
    have hhead := congrArg (fun s : String => s.toList.head?) hsame
    simp at hhead
  cases f with
  | emptyName => exact absurd rfl h
  | unloadable name cause => exact hfirst name
  | misnamed name => exact hfirst name

/-- A seed without blanks around it is in a closure under its own name. -/
theorem exists_of_mem_seeds {modules : ModuleMap} (h : (closure source seeds).result = .ok modules)
    (hname : name ∈ seeds) (hproper : Proper name) :
    ∃ m, modules.get? name = some m ∧ source.load name = .ok m ∧ m.name = name := by
  have hend := (closure_rounds source seeds).pending_of_ok (pending_start source seeds) h
  have hseed : name ∈ seeds.map Text.trim := List.mem_map.2 ⟨name, hname, hproper.trim_eq⟩
  obtain ⟨m, hm⟩ := Dict.mem_keys_iff.1 (hend.mem_keys_iff.2 (.seed hseed))
  have hprovides := hend.backs name m hm
  exact ⟨m, hm, hprovides.load, hprovides.named⟩

/-- **Loaded projects resolve completely.**  Whatever a file holds: if a project is loaded from it, the
modules it names are the types of its components and its imports, each once, and all these names are
proper.  So a closure that succeeds has each of them under the very name that the project has for it;
and where the modules are loaded from descriptions too, as they are below a directory, no closure fails
for an empty name. -/
theorem loadProject_resolves {tree : FileTree} {path : Path}
    (h : Description.loadProject tree path = .ok p) :
    p.referencedModules.Nodup ∧ (∀ name ∈ p.referencedModules, Proper name) ∧
      (∀ name, name ∈ p.referencedModules ↔
        (∃ c ∈ p.components, c.type = name) ∨ name ∈ p.libraryImports) ∧
      (∀ (source : ModuleSource) modules, (closure source p.referencedModules).result = .ok modules →
        (∀ c ∈ p.components, ∃ m, modules.get? c.type = some m ∧ source.load c.type = .ok m ∧
          m.name = c.type) ∧
        ∀ name ∈ p.libraryImports, ∃ m, modules.get? name = some m ∧ source.load name = .ok m ∧
          m.name = name) ∧
      (∀ source : ModuleSource, source.LoadsDescriptions → ∀ f,
        (closure source p.referencedModules).result = .error f →
          f ≠ .emptyName ∧ f.toFailure.message ≠ "Module name cannot be empty.") ∧
      ∀ modulesTree root, (directorySource modulesTree root).LoadsDescriptions := by
  have hproper : ∀ name ∈ p.referencedModules, Proper name :=
    fun name hname => proper_of_mem_referencedModules h hname
  refine ⟨Text.nodup_dedupLines _, hproper, fun name => Project.mem_referencedModules, ?_, ?_,
    directorySource_loadsDescriptions⟩
  · intro source modules hclosure
    have hfound : ∀ name ∈ p.referencedModules, ∃ m, modules.get? name = some m ∧
        source.load name = .ok m ∧ m.name = name :=
      fun name hname => exists_of_mem_seeds hclosure hname (hproper name hname)
    constructor
    · intro c hc
      exact hfound c.type (Project.mem_referencedModules.2 (.inl ⟨c, hc, rfl⟩))
    · intro name hname
      exact hfound name (Project.mem_referencedModules.2 (.inr hname))
  · intro source hsource f hf
    have hne : f ≠ .emptyName := by
      rintro rfl
      exact closure_ne_emptyName hsource hproper hf
    exact ⟨hne, message_ne_of_ne_emptyName hne⟩

/-- A project that names a component type and, twice, a library, with blanks around the names; and these
modules. -/
def spacedProject : FileTree :=
  FileTree.empty
    |>.set ["p.json"] (.file ("\x7b\"project\": \x7b\"program\": \x7b\"imports\": [\"a \", \" a\"]\x7d, "
      ++ "\"components\": [\x7b\"type\": \"\u3000t\", \"name\": \"c\"\x7d]\x7d\x7d").toUTF8)
    |>.set ["m"] .directory
    |>.set ["a", "m"] .directory
    |>.set ["description.json", "a", "m"] (.file "\x7b\"library\": \x7b\"name\": \"a\"\x7d\x7d".toUTF8)
    |>.set ["t", "m"] .directory
    |>.set ["description.json", "t", "m"]
      (.file "\x7b\"component-type\": \x7b\"name\": \" t\"\x7d\x7d".toUTF8)

theorem loadProject_resolves_spaced :
    ∃ p, Description.loadProject spacedProject ⟨"p.json"⟩ = .ok p ∧ p.libraryImports = ["a", "a"] ∧
      p.referencedModules = ["t", "a"] ∧ ∃ modules,
        (closure (directorySource spacedProject ⟨"m"⟩) p.referencedModules).result = .ok modules ∧
        (∀ c ∈ p.components, ∃ m, modules.get? c.type = some m) ∧
        (∀ name ∈ p.libraryImports, ∃ m, modules.get? name = some m) ∧
        ∃ f, (closure (directorySource spacedProject ⟨"none"⟩) p.referencedModules).result = .error f ∧
          f ≠ .emptyName := by
  have hload : Description.loadProject spacedProject ⟨"p.json"⟩ =
      .ok { components := [⟨"t", "c", "", .empty, .empty⟩], libraryImports := ["a", "a"] } := by
    decide +kernel
  have hclosed : ((closure (directorySource spacedProject ⟨"m"⟩) ["t", "a"]).result.toOption).isSome
      = true := by
    decide +kernel
  have hmissing : ((closure (directorySource spacedProject ⟨"none"⟩) ["t", "a"]).result.toOption).isSome
      = false := by
    decide +kernel
  obtain ⟨-, -, -, hresolves, hfails, hsource⟩ := loadProject_resolves hload
  cases hresult : (closure (directorySource spacedProject ⟨"m"⟩) ["t", "a"]).result with
  | error f =>
    rw [hresult] at hclosed
    cases hclosed
  | ok modules =>
    obtain ⟨hcomponents, himports⟩ := hresolves _ modules hresult
    refine ⟨_, hload, rfl, rfl, modules, hresult, ?_, ?_, ?_⟩
    · intro c hc
      obtain ⟨m, hm, -⟩ := hcomponents c hc
      exact ⟨m, hm⟩
    · intro name hname
      obtain ⟨m, hm, -⟩ := himports name hname
      exact ⟨m, hm⟩
    · cases hnone : (closure (directorySource spacedProject ⟨"none"⟩) ["t", "a"]).result with
      | ok found =>
        rw [hnone] at hmissing
        cases hmissing
      | error f => exact ⟨f, hnone, (hfails _ (hsource _ _) f hnone).1⟩

end Boardwright
