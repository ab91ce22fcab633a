import Boardwright.Failure
import Boardwright.Module

/-!
# Closures of modules

A project names some modules, and modules name others.  The closure loads all of them in layers: first
the modules that the project names, then those that the loaded modules need and that are not loaded
yet, and so on.  Within a layer names are taken in order, and every name is loaded once.

* **`ModuleSource`**: where modules come from; only finitely many names can be loaded.
* **`ClosureFault`**: why a closure cannot be completed.
* **`loadLayer`**, **`nextLayer`**: one layer, and the names of the one after it.
* **`collectionSource`**: modules that are held in a dictionary.
* **`closure`**: the names in the order they were loaded, and the modules or a fault.
-/

namespace Boardwright

/-- Where modules come from. -/
structure ModuleSource where
  /-- The module with a name. -/
  load : String → Except Failure Module
  /-- All names under which a module can be found, and perhaps others. -/
  names : List String
  /-- There are no other names under which a module can be found. -/
  mem_names : ∀ {name : String} {m : Module}, load name = .ok m → name ∈ names

/-- The failure to find a module. -/
def unavailable (name : String) : Failure :=
  .compilation s!"Unavailable module {name}"

/-- A key with a value is one of the keys. -/
theorem Dict.mem_keys_of_get? {α : Type} {d : Dict α} {k : String} {v : α} (h : d.get? k = some v) :
    k ∈ d.keys := by
  have found : ∀ l : List (String × α), findValue? k l = some v → k ∈ l.map (·.1) := by
    intro l
    induction l with
    | nil => simp [findValue?]
    | cons e rest ih =>
      intro hl
      by_cases he : k = e.1
      · simp [he]
      · exact List.mem_cons_of_mem _ (ih (by simpa [findValue?, he] using hl))
  exact found d.entries h

/-- The module with a name in a dictionary, or the failure that is held in its place. -/
def loadHeld (held : Dict (Except Failure Module)) (name : String) : Except Failure Module :=
  match held.get? name with
  | some found => found
  | none => .error (unavailable name)

/-- The modules of a dictionary. -/
def collectionSource (held : Dict (Except Failure Module)) : ModuleSource where
  load := loadHeld held
  names := held.keys
  mem_names := by
    intro name m h
    unfold loadHeld at h
    split at h
    · rename_i found hf
      exact Dict.mem_keys_of_get? hf
    · exact absurd h (by simp)

/-- Why a closure cannot be completed. -/
inductive ClosureFault where
  /-- A module with an empty name is needed. -/
  | emptyName
  /-- A module cannot be loaded. -/
  | unloadable (name : String) (cause : Failure)
  /-- A module is described under another name than the one it was found by. -/
  | misnamed (name : String)
  deriving DecidableEq, Repr

/-- The failure that a fault leads to. -/
def ClosureFault.toFailure : ClosureFault → Failure
  | .emptyName => .compilation "Module name cannot be empty."
  | .unloadable name cause =>
    (Failure.compilation s!"Invalid description file of module {name}").causedBy cause
  | .misnamed name =>
    (Failure.compilation s!"Invalid description file of module {name}").because
      [s!"Invalid name of module in module description: {name}"]

/-- The module with a name, which must be its own. -/
def ModuleSource.fetch (source : ModuleSource) (name : String) : Except ClosureFault Module :=
  match source.load name with
  | .error f => .error (.unloadable name f)
  | .ok m => if m.name = name then .ok m else .error (.misnamed name)

/-- A closure, or a part of one: the names in the order they were loaded, and the modules loaded so far
or a fault. -/
structure Loading where
  /-- The names that were loaded, the one that failed included. -/
  loads : List String
  /-- The modules, or why loading stopped. -/
  result : Except ClosureFault ModuleMap

/-- Loads the names of a layer, one after the other. -/
def loadLayer (source : ModuleSource) : List String → ModuleMap → Loading
  | [], modules => ⟨[], .ok modules⟩
  | name :: rest, modules =>
    if name.isEmpty then ⟨[], .error .emptyName⟩
    else
      match source.fetch name with
      | .error f => ⟨[name], .error f⟩
      | .ok m =>
        let after := loadLayer source rest (modules.insert name m)
        ⟨name :: after.loads, after.result⟩

/-- Names in order, each once. -/
def sortedNames (names : List String) : List String :=
  (Dict.ofList (names.map fun n => (n, ()))).keys

/-- The names that the modules of a layer need and that are not loaded. -/
def nextLayer (modules : ModuleMap) (layer : List String) : List String :=
  let needed := layer.flatMap fun name => ((modules.get? name).map (·.requires)).getD []
  sortedNames (needed.filter fun name => !modules.contains name)

/-- Loads layers until nothing is needed any more.  A layer that is not empty loads a new name, so there
are at most as many of them as there are names in the source. -/
def loadLayers (source : ModuleSource) : Nat → List String → ModuleMap → Loading
  | _, [], modules => ⟨[], .ok modules⟩
  | 0, _ :: _, modules => ⟨[], .ok modules⟩
  | rounds + 1, name :: rest, modules =>
    let loading := loadLayer source (name :: rest) modules
    match loading.result with
    | .error f => ⟨loading.loads, .error f⟩
    | .ok modules =>
      let after := loadLayers source rounds (nextLayer modules (name :: rest)) modules
      ⟨loading.loads ++ after.loads, after.result⟩

/-- The modules that are needed for the given names. -/
def closure (source : ModuleSource) (seeds : List String) : Loading :=
  loadLayers source (source.names.length + 1) (sortedNames (seeds.map Text.trim)) .empty

end Boardwright
