import Boardwright.Description.ModuleDescription
import Boardwright.Proofs.Blank
import Boardwright.Proofs.Contract

/-!
# Loaded modules are well formed

A description may have blanks around its texts, leave texts empty and repeat names.  Of a module that is
loaded none of this is left: some texts are trimmed, some are dropped where they are blank, and for
others the module is refused.  Which of it happens to a text is decided where it is read; whether names
are blank or repeated is decided later, by the contract of component types.

* **`Module.WellFormed`**, **`ComponentType.WellFormed`**, ...: what holds of the parts of a loaded
  module.
* **`binding_yields`**, **`object_yields`**, ...: what each part of a description is read into, and that
  it is only refused as a fault of the description.
* **`loadModule_wellFormed`**: loaded modules.
-/

namespace Boardwright

open Text (Trimmed Proper)

/-! ### Well-formed parts of a module -/

/-- A proper type, and a proper name where there is one. -/
structure Parameter.WellFormed (p : Parameter) : Prop where
  type : Proper p.type
  name : ∀ name ∈ p.name, Proper name

/-- An object with proper headers, a proper class and calls of proper methods. -/
structure Instance.WellFormed (i : Instance) : Prop where
  includes : ∀ file ∈ i.includes, Proper file
  classType : Proper i.classType
  init : ∀ call ∈ i.init, Proper call.method
  loop : ∀ call ∈ i.loop, Proper call.method

/-- A proper name, and a binding to a proper target where there is one. -/
structure Property.WellFormed (p : Property) : Prop where
  name : Proper p.name
  binding : ∀ b ∈ p.binding, Proper b.target

/-- A proper name, with well-formed parameters and a proper result and target where there are any. -/
structure Event.WellFormed (e : Event) : Prop where
  name : Proper e.name
  parameters : ∀ p ∈ e.parameters, p.WellFormed
  result : ∀ type ∈ e.result, Proper type
  binding : ∀ b ∈ e.binding, Proper b.target

/-- A proper method, with well-formed parameters and a proper result, name and target where there are
any. -/
structure MethodWrapper.WellFormed (w : MethodWrapper) : Prop where
  method : Proper w.method
  parameters : ∀ p ∈ w.parameters, p.WellFormed
  result : ∀ type ∈ w.result, Proper type
  publishedAs : ∀ name ∈ w.publishedAs, Proper name
  binding : ∀ b ∈ w.binding, Proper b.target

/-- What a timing refers to is one of the names, and is not to be taken for a number. -/
def Timing.RefersTo (names : List String) (timing : Timing) : Prop :=
  ∀ name, timing = .property name → name ∈ names ∧ Text.int64? name = none

/-- A proper method, with timings that refer only to the names and a proper target where there is one.
-/
structure Looper.WellFormed (names : List String) (l : Looper) : Prop where
  method : Proper l.method
  interval : l.interval.RefersTo names
  initialDelay : l.initialDelay.RefersTo names
  idBinding : ∀ b ∈ l.idBinding, Proper b.target

/-- Declarations that are well formed and fit together. -/
structure ComponentType.WellFormed (t : ComponentType) : Prop where
  view : ∀ v ∈ t.view, v.WellFormed ∧ v.init = none ∧ v.loop = none
  controller : ∀ c ∈ t.controller, c.WellFormed
  viewBinding : ∀ b ∈ t.viewBinding, Proper b.target ∧ t.view.isSome = true ∧ t.controller.isSome = true
  properties : ∀ p ∈ t.properties, p.WellFormed
  properties_nodup : (t.properties.map (·.name)).Nodup
  events : ∀ e ∈ t.events, e.WellFormed
  events_nodup : (t.events.map (·.name)).Nodup
  loopers : ∀ l ∈ t.loopers, l.WellFormed (t.properties.map (·.name))
  methodWrappers : ∀ w ∈ t.methodWrappers, w.WellFormed

/-- What a module provides is well formed. -/
def Module.Content.WellFormed : Module.Content → Prop
  | .componentType t => t.WellFormed
  | .library includes => ∀ file ∈ includes, Proper file

/-- A module with proper names and headers and a well-formed content. -/
structure Module.WellFormed (m : Module) : Prop where
  name : Proper m.name
  requires : ∀ name ∈ m.requires, Proper name
  platformIncludes : ∀ file ∈ m.platformIncludes, Proper file
  content : m.content.WellFormed

namespace Description

open Fallible

/-- A failure that is the fault of a description. -/
def IsConfiguration (f : Failure) : Prop :=
  f.kind = .configuration

/-! ### Texts -/

theorem proper_of_mem_nonBlankTexts {texts : List String} {s : String} (h : s ∈ nonBlankTexts texts) :
    Proper s := by
  obtain ⟨text, -, htext⟩ := List.mem_filterMap.1 h
  exact Text.proper_of_nonBlank? htext

theorem proper_of_mem_bind_nonBlank? {text : Option String} {s : String}
    (h : s ∈ text.bind Text.nonBlank?) : Proper s := by
  obtain ⟨t, -, ht⟩ := Option.bind_eq_some_iff.1 h
  exact Text.proper_of_nonBlank? ht

theorem within_yields {α : Type} {good : α → Prop} {x : Except Failure α} (message : String)
    (h : Yields IsConfiguration good x) : Yields IsConfiguration good (within message x) :=
  .mapError h.result fun _ => rfl

/-! ### Bindings, objects and parameters -/

theorem binding_yields (entry : BindingEntry) :
    Yields IsConfiguration (fun b => Proper b.target) (binding entry) := by
  have hkind : Yields IsConfiguration (fun _ => True) (Binding.Kind.read entry.kind) := by
    rw [Binding.Kind.read]
    split
    · exact .ok trivial
    · split
      · exact .ok trivial
      · exact .error rfl
  refine hkind.bind fun kind _ => ?_
  split
  next htarget => exact .ok (Text.proper_of_nonBlank? htarget)
  · exact .error rfl

theorem binding?_yields (entry : Option BindingEntry) :
    Yields IsConfiguration (fun b? => ∀ b ∈ b?, Proper b.target) (binding? entry) := by
  cases entry with
  | none => exact .ok (by simp)
  | some entry =>
    rw [binding?]
    exact (binding_yields entry).map fun b hb => by simpa using hb

theorem proper_of_mem_call? {entry : Option CallEntry} {call : MethodCall} (h : call ∈ call? entry) :
    Proper call.method := by
  obtain ⟨e, -, he⟩ := Option.bind_eq_some_iff.1 h
  obtain ⟨method, hmethod, rfl⟩ := Option.map_eq_some_iff.1 he
  exact Text.proper_of_nonBlank? hmethod

theorem object_yields (entry : InstanceEntry) :
    Yields IsConfiguration Instance.WellFormed (object entry) := by
  rw [object]
  split
  · exact .error rfl
  next htype =>
    refine .ok ⟨?_, Text.proper_of_nonBlank? htype, ?_, ?_⟩
    · intro file hfile
      exact proper_of_mem_nonBlankTexts hfile
    · intro call hcall
      exact proper_of_mem_call? hcall
    · intro call hcall
      exact proper_of_mem_call? hcall

theorem view?_yields (entry : Option InstanceEntry) :
    Yields IsConfiguration (fun view => ∀ v ∈ view, v.WellFormed) (view? entry) := by
  cases entry with
  | none => exact .ok (by simp)
  | some entry =>
    rw [view?]
    exact (within_yields _ (object_yields entry)).map fun v hv => by simpa using hv

theorem controller?_yields (entry : Option ControllerEntry) :
    Yields IsConfiguration (fun r => (∀ c ∈ r.1, c.WellFormed) ∧ ∀ b ∈ r.2, Proper b.target)
      (controller? entry) := by
  cases entry with
  | none => exact .ok (by simp)
  | some entry =>
    refine within_yields _ ((binding?_yields _).bind fun b hb => (object_yields _).bind fun c hc => ?_)
    exact .ok ⟨by simpa using hc, hb⟩

/-- A name that was given is trimmed before it is dropped where it is blank. -/
theorem make_yields (type : String) (name : Option String) :
    Yields IsConfiguration Parameter.WellFormed (Parameter.make type (name.map Text.trim)) := by
  rw [Parameter.make]
  split
  · exact .error rfl
  next htype =>
    refine .ok ⟨?_, ?_⟩
    · refine ⟨Text.trimmed_trim type, ?_⟩
      intro hempty
      exact htype (Text.isEmpty_trim_iff.1 (String.isEmpty_iff.2 hempty))
    · intro s hs
      obtain ⟨hname, hblank⟩ := Option.filter_eq_some_iff.1 hs
      obtain ⟨given, -, rfl⟩ := Option.map_eq_some_iff.1 hname
      exact (Text.trimmed_trim given).proper (by simpa using hblank)

theorem parameters_yields (entries : List ParameterEntry) :
    Yields IsConfiguration (fun ps => ∀ p ∈ ps, p.WellFormed) (parameters entries) := by
  have hentry : ∀ p : ParameterEntry, Yields IsConfiguration Parameter.WellFormed
      (Parameter.make p.type (p.name.map Text.trim)) := fun p => make_yields p.type p.name
  exact .mapM hentry entries

/-! ### Declarations before the contract is checked -/

theorem property_yields (entry : PropertyEntry) :
    Yields IsConfiguration (fun p => Trimmed p.name ∧ ∀ b ∈ p.binding, Proper b.target)
      (property entry) := by
  have hpredefined : Yields IsConfiguration (fun _ => True)
      (predefined? (Text.trim entry.name) entry.value) := by
    cases entry.value with
    | none => exact .ok trivial
    | some value =>
      have hread : Yields IsConfiguration (fun _ => True)
          (within ("Unknown value type of property " ++ Text.trim entry.name ++ ": " ++ value.kind)
            (Predefined.read value.kind value.value.toText)) :=
        .mapError (fun _ _ => trivial) fun _ => rfl
      rw [predefined?]
      exact hread.map fun _ _ => trivial
  refine hpredefined.bind fun _ _ => (within_yields _ (binding?_yields _)).bind fun b hb => ?_
  exact .ok ⟨Text.trimmed_trim _, hb⟩

theorem event_yields (entry : EventEntry) :
    Yields IsConfiguration (fun e => Trimmed e.name ∧ (∀ p ∈ e.parameters, p.WellFormed) ∧
      (∀ type ∈ e.result, Proper type) ∧ ∀ b ∈ e.binding, Proper b.target) (event entry) := by
  refine (within_yields _ (parameters_yields _)).bind fun ps hps =>
    (within_yields _ (binding?_yields _)).bind fun b hb => .ok ⟨Text.trimmed_trim _, hps, ?_, hb⟩
  intro type htype
  exact proper_of_mem_bind_nonBlank? htype

/-- A text that can be read as a number is not taken for the name of a property. -/
theorem int64?_of_timing {value : Option Json.Scalar} {name : String}
    (h : timing value = .property name) : Text.int64? name = none := by
  have hread : ∀ text, Timing.read text = .property name → Text.int64? name = none := by
    intro text htext
    simp only [Timing.read] at htext
    split at htext
    · cases htext
    · split at htext
      · cases htext
      next hnumber =>
        cases htext
        exact hnumber
  unfold timing at h
  split at h
  · cases h
  · cases h
  · exact hread _ h

theorem looper_yields (entry : LooperEntry) :
    Yields IsConfiguration (fun l => Trimmed l.method ∧
      (∀ name, l.interval = .property name → Text.int64? name = none) ∧
      (∀ name, l.initialDelay = .property name → Text.int64? name = none) ∧
      ∀ b ∈ l.idBinding, Proper b.target) (looper entry) := by
  refine within_yields _ ((binding?_yields _).bind fun b hb => .ok ⟨Text.trimmed_trim _, ?_, ?_, hb⟩)
  · intro name hname
    exact int64?_of_timing hname
  · intro name hname
    exact int64?_of_timing hname

theorem methodWrapper_yields (entry : WrapperEntry) :
    Yields IsConfiguration MethodWrapper.WellFormed (methodWrapper entry) := by
  refine within_yields _ ?_
  split
  · exact .error rfl
  next hmethod =>
    refine (parameters_yields _).bind fun ps hps => (binding?_yields _).bind fun b hb =>
      .ok ⟨Text.proper_of_nonBlank? hmethod, hps, ?_, ?_, hb⟩
    · intro type htype
      exact proper_of_mem_bind_nonBlank? htype
    · intro name hname
      exact proper_of_mem_bind_nonBlank? hname

/-! ### Component types -/

theorem componentType_yields (entry : ComponentTypeEntry) :
    Yields IsConfiguration ComponentType.WellFormed (componentType entry) := by
  refine (view?_yields _).bind fun view hview => (controller?_yields _).bind fun r hr => ?_
  obtain ⟨controller, viewBinding⟩ := r
  obtain ⟨hcontroller, hbinding⟩ := hr
  refine (Yields.mapM property_yields _).bind fun properties hproperties =>
    (Yields.mapM event_yields _).bind fun events hevents =>
    (Yields.mapM looper_yields _).bind fun loopers hloopers =>
    (Yields.mapM methodWrapper_yields _).bind fun wrappers hwrappers => ?_
  -- what is trimmed, and kept as it is by the contract only if it is not blank, is proper
  refine Yields.bind (Yields.mapError (fun _ h => ComponentType.check_eq_ok_iff.1 h) fun _ => rfl)
    fun _ hcontract => .ok ?_
  constructor
  · intro v hv
    exact ⟨hview v hv, (hcontract.view v hv).2⟩
  · exact hcontroller
  · intro b hb
    exact ⟨hbinding b hb, hcontract.viewBinding (Option.isSome_of_mem hb)⟩
  · intro p hp
    exact ⟨(hproperties p hp).1.proper (hcontract.properties p hp), (hproperties p hp).2⟩
  · exact hcontract.properties_nodup
  · intro e he
    exact ⟨(hevents e he).1.proper (hcontract.events e he), (hevents e he).2.1, (hevents e he).2.2.1,
      (hevents e he).2.2.2⟩
  · exact hcontract.events_nodup
  · intro l hl
    obtain ⟨hmethod, hinterval, hdelay, hid⟩ := hloopers l hl
    obtain ⟨hblank, hdeclared, hdeclared'⟩ := hcontract.loopers l hl
    refine ⟨hmethod.proper hblank, ?_, ?_, hid⟩
    · intro name hname
      exact ⟨List.mem_map.2 (ComponentType.declares_iff.1 hdeclared name hname), hinterval name hname⟩
    · intro name hname
      exact ⟨List.mem_map.2 (ComponentType.declares_iff.1 hdeclared' name hname), hdelay name hname⟩
  · exact hwrappers

/-! ### Modules -/

theorem shaped_yields {α : Type} (tag : String) (shape : Json.Value → Option α) (body : Json.Value) :
    Yields IsConfiguration (fun _ => True) (shaped tag shape body) := by
  rw [shaped]
  split
  · exact .ok trivial
  · exact .error rfl

theorem moduleContent_yields (tag : String) (body : Json.Value) :
    Yields IsConfiguration (fun r => r.2.WellFormed) (moduleContent tag body) := by
  rw [moduleContent]
  split
  · exact (shaped_yields _ _ _).bind fun entry _ => (componentType_yields entry).bind fun t ht => .ok ht
  split
  · refine (shaped_yields _ _ _).bind fun entry _ => .ok ?_
    intro file hfile
    exact proper_of_mem_nonBlankTexts hfile
  · exact .error rfl

theorem platformIncludes_yields (entry : PlatformLibraryEntry) :
    Yields IsConfiguration (fun files => ∀ file ∈ files, Proper file) (platformIncludes entry) := by
  rw [platformIncludes]
  split
  · exact .ok fun file hfile => proper_of_mem_nonBlankTexts hfile
  · exact .ok fun file hfile => proper_of_mem_nonBlankTexts hfile
  · exact .error rfl

theorem readDocument_yields (tree : FileTree) (path : Path) :
    Yields IsConfiguration (fun _ => True) ((readDocument tree path).mapError DocumentFault.toFailure) :=
  .mapError (fun _ _ => trivial) fun _ => rfl

theorem readModule_yields (tree : FileTree) (path : Path) :
    Yields IsConfiguration Module.WellFormed (readModule tree path) := by
  refine (readDocument_yields tree path).bind fun document _ => ?_
  obtain ⟨tag, body⟩ := document
  refine (moduleContent_yields tag body).bind fun r hcontent => ?_
  obtain ⟨header, content⟩ := r
  dsimp only
  split
  · exact .error rfl
  next name hname =>
    refine (Yields.mapM platformIncludes_yields _).bind fun includes hincludes =>
      .ok ⟨Text.proper_of_nonBlank? hname, ?_, ?_, hcontent⟩
    · intro required hrequired
      exact proper_of_mem_nonBlankTexts hrequired
    · intro file hfile
      obtain ⟨files, hfiles, hfile⟩ := List.mem_flatten.1 hfile
      exact hincludes files hfiles file hfile

theorem wellFormed_of_loadModule {tree : FileTree} {path : Path} {m : Module}
    (h : loadModule tree path = .ok m) : m.WellFormed := by
  rw [loadModule, within, mapError_eq_ok_iff] at h
  exact (readModule_yields tree path).result m h

/-- **Loaded modules are well formed.**  Whatever a file holds: if a module is loaded from it, all
names, headers and types of the module are proper, names that must differ do, and its declarations fit
together.  Otherwise the failure is the fault of the description, and so is its cause. -/
theorem loadModule_wellFormed (tree : FileTree) (path : Path) :
    (∀ m, loadModule tree path = .ok m → m.WellFormed) ∧
      ∀ f, loadModule tree path = .error f → f.kind = .configuration ∧
        ∃ cause : Failure, cause.kind = .configuration ∧ f.chain =
          ("Loading of description of a module from file " ++ path.text ++ " failed.") :: cause.chain := by
  refine ⟨fun m hm => wellFormed_of_loadModule hm, ?_⟩
  intro f hf
  rw [loadModule, within] at hf
  cases hcase : readModule tree path with
  | ok m =>
    rw [hcase] at hf
    cases hf
  | error cause =>
    rw [hcase] at hf
    cases hf
    exact ⟨rfl, cause, (readModule_yields tree path).blamed cause hcase, rfl⟩

/-- Descriptions of a component type with blanks of several kinds around its texts, and of one with a
name that is repeated when the blanks around it are gone. -/
def spacedDescriptions : FileTree :=
  FileTree.empty
    |>.set ["lamp.json"] (.file ("\x7b\"component-type\": \x7b\"name\": \"\u3000m.lamp\u00a0\", "
      ++ "\"properties\": [\x7b\"name\": \" T\"\x7d], "
      ++ "\"loopers\": [\x7b\"method\": \"f \", \"interval\": \"T \"\x7d]\x7d\x7d").toUTF8)
    |>.set ["twice.json"] (.file ("\x7b\"component-type\": \x7b\"name\": \"m.twice\", "
      ++ "\"properties\": [\x7b\"name\": \"Pin\"\x7d, \x7b\"name\": \" Pin\"\x7d]\x7d\x7d").toUTF8)

theorem loadModule_wellFormed_spaced :
    (∃ m, loadModule spacedDescriptions ⟨"lamp.json"⟩ = .ok m ∧
      (m.name, m.componentType?.map (·.loopers)) =
        ("m.lamp", some [⟨"f", .property "T", .unset, none⟩]) ∧ m.WellFormed) ∧
    ∃ f, loadModule spacedDescriptions ⟨"twice.json"⟩ = .error f ∧
      "Duplicated property name (Pin)." ∈ f.chain ∧ f.kind = .configuration := by
  constructor
  · have hloaded : (loadModule spacedDescriptions ⟨"lamp.json"⟩).toOption.map
        (fun m => (m.name, m.componentType?.map (·.loopers))) =
          some ("m.lamp", some [⟨"f", .property "T", .unset, none⟩]) := by
      decide +kernel
    cases hload : loadModule spacedDescriptions ⟨"lamp.json"⟩ with
    | error f =>
      rw [hload] at hloaded
      cases hloaded
    | ok m =>
      rw [hload] at hloaded
      exact ⟨m, rfl, Option.some.inj hloaded, (loadModule_wellFormed _ _).1 m hload⟩
  · have hrefused : (match loadModule spacedDescriptions ⟨"twice.json"⟩ with
        | .ok _ => false
        | .error f => decide ("Duplicated property name (Pin)." ∈ f.chain)) = true := by
      decide +kernel
    cases hload : loadModule spacedDescriptions ⟨"twice.json"⟩ with
    | ok m =>
      rw [hload] at hrefused
      cases hrefused
    | error f =>
      rw [hload] at hrefused
      exact ⟨f, rfl, of_decide_eq_true hrefused, ((loadModule_wellFormed _ _).2 f hload).1⟩

end Description

end Boardwright
