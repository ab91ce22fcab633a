import Boardwright.Proofs.LoadedProjects

/-!
# What a loaded project keeps of its description

The properties and events of a component, and the events of the program, are loaded into dictionaries by
their names without the blanks around them.  Two entries of a description can have the same name then.
Such a description is loaded like any other, and of the entries with one name the last one is kept.

* **`ProjectEntry.KeptIn`**: all entries of a description are in a project.
* **`ProjectEntry.LastKeptIn`**: of the entries with one name the last one is in a project, and nothing
  else.
* **`ProjectEntry.Unambiguous`**: entries with one name say the same.
* **`loadProject_keeps_iff`**: nothing is lost if and only if a description is unambiguous.
-/

namespace Boardwright.Description

open Fallible

variable {tree : FileTree} {path : Path} {entry : ProjectEntry} {p : Project}

/-! ### Components -/

namespace ComponentEntry

/-- The values of properties, by names without the blanks around them. -/
def values (e : ComponentEntry) : List (String × String) :=
  e.properties.map fun x => (Text.trim x.1, x.2.toText)

/-- The handlers of events, by names without the blanks around them.  Blank handlers do not count. -/
def handlers (e : ComponentEntry) : List (String × String) :=
  e.events.filterMap fun x => (Text.nonBlank? x.2).map fun handler => (Text.trim x.1, handler)

/-- All entries of a component are in the component. -/
structure KeptIn (e : ComponentEntry) (c : Component) : Prop where
  properties : ∀ x ∈ e.properties, c.properties.get? (Text.trim x.1) = some x.2.toText
  events : ∀ x ∈ e.events, Text.isBlankText x.2 = false →
    c.events.get? (Text.trim x.1) = some (Text.trim x.2)

/-- Of the entries of a component with one name the last one is in the component, and nothing else. -/
structure LastKeptIn (e : ComponentEntry) (c : Component) : Prop where
  properties : ∀ name value, c.properties.get? name = some value ↔ Dict.LastIn e.values name value
  events : ∀ name handler, c.events.get? name = some handler ↔ Dict.LastIn e.handlers name handler

/-- Entries of a component with one name say the same. -/
structure Unambiguous (e : ComponentEntry) : Prop where
  properties : ∀ x ∈ e.properties, ∀ y ∈ e.properties, Text.trim x.1 = Text.trim y.1 →
    x.2.toText = y.2.toText
  events : ∀ x ∈ e.events, Text.isBlankText x.2 = false → ∀ y ∈ e.events, Text.isBlankText y.2 = false →
    Text.trim x.1 = Text.trim y.1 → Text.trim x.2 = Text.trim y.2

variable {e : ComponentEntry} {c : Component}

theorem forall_mem_handlers {P : String × String → Prop} :
    (∀ pair ∈ e.handlers, P pair) ↔
      ∀ x ∈ e.events, Text.isBlankText x.2 = false → P (Text.trim x.1, Text.trim x.2) := by
  rw [handlers, List.forall_mem_filterMap]
  refine forall₂_congr fun x _ => ?_
  cases hblank : Text.isBlankText x.2 with
  | true => simp [Text.nonBlank?_of_blank hblank]
  | false => simp [Text.nonBlank?_of_not_blank (s := x.2) (by simp [hblank])]

/-- The properties and events of a component are loaded from its entries. -/
theorem dictionaries_of_component (h : component e = .ok c) :
    c.properties = Dict.ofList e.values ∧ c.events = Dict.ofList e.handlers := by
  rw [component] at h
  split at h
  · cases h
  · cases h
  · cases h
    exact ⟨rfl, rfl⟩

theorem lastKeptIn_of_component (h : component e = .ok c) : e.LastKeptIn c := by
  obtain ⟨hproperties, hevents⟩ := dictionaries_of_component h
  refine ⟨fun name value => ?_, fun name handler => ?_⟩
  · rw [hproperties, Dict.get?_ofList_eq_some_iff]
  · rw [hevents, Dict.get?_ofList_eq_some_iff]

theorem keptIn_iff_unambiguous (h : component e = .ok c) : e.KeptIn c ↔ e.Unambiguous := by
  obtain ⟨hproperties, hevents⟩ := dictionaries_of_component h
  have hvalues := Dict.forall_get?_ofList_iff (l := e.values)
  have hhandlers := Dict.forall_get?_ofList_iff (l := e.handlers)
  rw [← hproperties] at hvalues
  rw [← hevents] at hhandlers
  simp only [values, List.forall_mem_map] at hvalues
  simp only [forall_mem_handlers] at hhandlers
  exact ⟨fun hkept => ⟨hvalues.1 hkept.properties, hhandlers.1 hkept.events⟩,
    fun hclear => ⟨hvalues.2 hclear.properties, hhandlers.2 hclear.events⟩⟩

end ComponentEntry

/-! ### Programs -/

/-- The handlers of the events of the program, by names without the blanks around them. -/
def ProgramEntry.handlers (e : ProgramEntry) : List (String × String) :=
  e.events.map fun x => (Text.trim x.name, Text.trim x.handler)

/-- The events of the program are loaded one by one. -/
theorem handlers_of_mapM {e : ProgramEntry} {events : List (String × String)}
    (h : e.events.mapM programEvent = .ok events) : events = e.handlers := by
  have hone : ∀ x pair, programEvent x = .ok pair →
      [pair] = [(Text.trim x.name, Text.trim x.handler)] := by
    intro x pair hx
    rw [programEvent] at hx
    split at hx
    · cases hx
    · cases hx
    next hname hhandler =>
      cases hx
      rw [Text.eq_trim_of_nonBlank? hname, Text.eq_trim_of_nonBlank? hhandler]
  have hall := flatMap_of_mapM_eq_ok hone h
  rwa [List.flatMap_singleton', ← List.map_eq_flatMap] at hall

/-! ### Projects -/

namespace ProjectEntry

/-- All entries of a description are in the project. -/
structure KeptIn (entry : ProjectEntry) (p : Project) : Prop where
  components : ∀ (i : ℕ) (e : ComponentEntry), entry.components[i]? = some e →
    ∃ c, p.components[i]? = some c ∧ e.KeptIn c
  programEvents : ∀ x ∈ entry.program.events,
    p.programEvents.get? (Text.trim x.name) = some (Text.trim x.handler)

/-- Of the entries of a description with one name the last one is in the project, and nothing else. -/
structure LastKeptIn (entry : ProjectEntry) (p : Project) : Prop where
  length : p.components.length = entry.components.length
  components : ∀ (i : ℕ) (e : ComponentEntry), entry.components[i]? = some e →
    ∃ c, p.components[i]? = some c ∧ e.LastKeptIn c
  programEvents : ∀ name handler,
    p.programEvents.get? name = some handler ↔ Dict.LastIn entry.program.handlers name handler

/-- Entries of a description with one name say the same. -/
structure Unambiguous (entry : ProjectEntry) : Prop where
  components : ∀ e ∈ entry.components, e.Unambiguous
  programEvents : ∀ x ∈ entry.program.events, ∀ y ∈ entry.program.events,
    Text.trim x.name = Text.trim y.name → Text.trim x.handler = Text.trim y.handler

end ProjectEntry

/-- The parts of a project that are made from entries with names. -/
structure MadeFrom (entry : ProjectEntry) (p : Project) : Prop where
  components : entry.components.mapM component = .ok p.components
  programEvents : p.programEvents = Dict.ofList entry.program.handlers

theorem madeFrom_of_project (h : project entry = .ok p) : MadeFrom entry p := by
  simp only [project, bind_eq_ok_iff] at h
  obtain ⟨_, -, events, hevents, _, -, _, -, components, hcomponents, h⟩ := h
  cases h
  exact ⟨hcomponents, by rw [handlers_of_mapM hevents]⟩

theorem MadeFrom.lastKeptIn (h : MadeFrom entry p) : entry.LastKeptIn p := by
  refine ⟨length_of_mapM_eq_ok h.components, ?_, ?_⟩
  · intro i e he
    obtain ⟨c, hc, hget⟩ := exists_getElem?_of_mapM_eq_ok h.components he
    exact ⟨c, hget, ComponentEntry.lastKeptIn_of_component hc⟩
  · intro name handler
    rw [h.programEvents, Dict.get?_ofList_eq_some_iff]

theorem MadeFrom.keptIn_iff (h : MadeFrom entry p) : entry.KeptIn p ↔ entry.Unambiguous := by
  have hevents := Dict.forall_get?_ofList_iff (l := entry.program.handlers)
  rw [← h.programEvents] at hevents
  simp only [ProgramEntry.handlers, List.forall_mem_map] at hevents
  constructor
  · intro hkept
    refine ⟨?_, hevents.1 hkept.programEvents⟩
    intro e he
    obtain ⟨i, hi⟩ := List.mem_iff_getElem?.1 he
    obtain ⟨c, hc, hget⟩ := exists_getElem?_of_mapM_eq_ok h.components hi
    obtain ⟨c', hget', hc'⟩ := hkept.components i e hi
    obtain rfl : c' = c := Option.some.inj (hget'.symm.trans hget)
    exact (ComponentEntry.keptIn_iff_unambiguous hc).1 hc'
  · intro hclear
    refine ⟨?_, hevents.2 hclear.programEvents⟩
    intro i e hi
    obtain ⟨c, hc, hget⟩ := exists_getElem?_of_mapM_eq_ok h.components hi
    have he := hclear.components e (List.mem_of_getElem? hi)
    exact ⟨c, hget, (ComponentEntry.keptIn_iff_unambiguous hc).2 he⟩

/-- **What a loaded project keeps.**  A file from which a project is loaded holds a description.  By
their names without the blanks around them, the last of the entries with one name is in the project; so
all entries are in it if and only if entries with one name say the same. -/
theorem loadProject_keeps_iff (h : loadProject tree path = .ok p) :
    ∃ entry, description? tree path = some entry ∧ entry.LastKeptIn p ∧
      (entry.KeptIn p ↔ entry.Unambiguous) := by
  obtain ⟨entry, hentry, hproject⟩ := loadProject_eq_ok_iff.1 h
  have hmade := madeFrom_of_project hproject
  exact ⟨entry, hentry, hmade.lastKeptIn, hmade.keptIn_iff⟩

/-! ### An ambiguous description -/

deriving instance DecidableEq for ProgramEventEntry, ProgramEntry, StoredItemEntry, StorageEntry,
  ComponentEntry, ProjectEntry

/-- A file with two values for one property, and two handlers for one event of a component and of the
program. -/
def ambiguousProject : FileTree :=
  FileTree.empty.set ["p.json"] (.file ("\x7b\"project\":\x7b\"program\":\x7b\"events\":"
    ++ "[\x7b\"name\":\"OnStart\",\"handler\":\"first\"\x7d,"
    ++ "\x7b\"name\":\"OnStart \",\"handler\":\"second\"\x7d]\x7d,"
    ++ "\"components\":[\x7b\"type\":\"t\",\"name\":\"c\","
    ++ "\"properties\":\x7b\" pin\":12,\"pin\":13\x7d,"
    ++ "\"events\":\x7b\"Changed\":\"seen\",\"Changed \":\"heard\"\x7d\x7d]\x7d\x7d").toUTF8)

/-- The component in its description. -/
def ambiguousComponent : ComponentEntry :=
  ⟨"t", "c", "", [(" pin", .int 12), ("pin", .int 13)], [("Changed", "seen"), ("Changed ", "heard")]⟩

/-- The description in it. -/
def ambiguousEntry : ProjectEntry where
  platform := ""
  program := { events := [⟨"OnStart", "first"⟩, ⟨"OnStart ", "second"⟩] }
  storage := {}
  components := [ambiguousComponent]

/-- The project that is loaded from it. -/
def loadedProject : Project where
  components := [⟨"t", "c", "", .ofList [("pin", "13")], .ofList [("Changed", "heard")]⟩]
  programEvents := .ofList [("OnStart", "second")]

theorem description?_ambiguousProject :
    description? ambiguousProject ⟨"p.json"⟩ = some ambiguousEntry := by
  decide +kernel

theorem loadProject_ambiguousProject : loadProject ambiguousProject ⟨"p.json"⟩ = .ok loadedProject :=
  loadProject_eq_ok_iff.2 ⟨ambiguousEntry, description?_ambiguousProject, by decide +kernel⟩

/-- A project is loaded from an ambiguous description, and the entries that come first are not in it. -/
theorem overwritten_entries_lost :
    description? ambiguousProject ⟨"p.json"⟩ = some ambiguousEntry ∧
      loadProject ambiguousProject ⟨"p.json"⟩ = .ok loadedProject ∧
      ¬ambiguousEntry.KeptIn loadedProject := by
  refine ⟨description?_ambiguousProject, loadProject_ambiguousProject, ?_⟩
  intro hkept
  have hlost := hkept.programEvents ⟨"OnStart", "first"⟩ (by decide)
  exact absurd hlost (by decide)

theorem loadProject_keeps_last :
    loadProject ambiguousProject ⟨"p.json"⟩ = .ok loadedProject ∧
      ∃ entry, description? ambiguousProject ⟨"p.json"⟩ = some entry ∧ entry.LastKeptIn loadedProject ∧
        (entry.KeptIn loadedProject ↔ entry.Unambiguous) :=
  ⟨loadProject_ambiguousProject, loadProject_keeps_iff loadProject_ambiguousProject⟩

end Boardwright.Description
