import Boardwright.Proofs.Repetition

/-!
# Only effective values count

A component sets values of properties, but what counts is the effective value: a fixed value of the type
counts whatever is set, and a default counts where nothing is set.  Here two configurations of a
component are compared that have the same effective values.  No check and no generator can tell them
apart.

* **`Component.configured`**, **`Input.configured`**: another configuration of a component.
* **`Interchangeable`**: configurations that set only declared properties, with the same effective
  values.
* **`componentCode_configured`**, **`headerView_configured`**: what is generated for one component.
* **`standardPipeline_of_forall₂`**: what is generated for all components.
* **`effective_values_count`**: checks and runs have the same results.
-/

namespace Boardwright

/-! ### Steps with the same results -/

namespace Fallible

variable {α β ε : Type}

theorem mapM_of_forall₂ {f g : α → Except ε β} {l l' : List α}
    (h : List.Forall₂ (fun a b => f a = g b) l l') : l.mapM f = l'.mapM g := by
  induction h with
  | nil => rfl
  | cons hhead _ ih => rw [List.mapM_cons, List.mapM_cons, hhead, ih]

theorem mapM_congr {f g : α → Except ε β} {l : List α} (h : ∀ a ∈ l, f a = g a) :
    l.mapM f = l.mapM g :=
  mapM_of_forall₂ (List.forall₂_same.2 h)

theorem forM_congr {f g : α → Except ε Unit} {l : List α} (h : ∀ a ∈ l, f a = g a) :
    l.forM f = l.forM g := by
  induction l with
  | nil => rfl
  | cons a l ih =>
    obtain ⟨ha, hl⟩ := List.forall_mem_cons.1 h
    show (f a >>= fun _ => l.forM f) = (g a >>= fun _ => l.forM g)
    rw [ha, ih hl]

end Fallible

/-! ### Configurations -/

/-- The component with other values of properties. -/
def Component.configured (c : Component) (properties : Dict String) : Component :=
  { c with properties := properties }

namespace Component

variable (c : Component) (properties : Dict String)

@[simp] theorem configured_type : (c.configured properties).type = c.type := rfl

@[simp] theorem configured_name : (c.configured properties).name = c.name := rfl

end Component

/-- The project in which the component with the number `i` sets other values of properties. -/
def Project.configured (p : Project) (i : Nat) (properties : Dict String) : Project :=
  { p with components := p.components.modify i fun c => c.configured properties }

namespace Generation

open Fallible

/-- The input with another configuration of the component with the number `i`. -/
def Input.configured (input : Input) (i : Nat) (properties : Dict String) : Input :=
  { input with project := input.project.configured i properties }

/-- The values that count for a type are the same. -/
def SameEffect (t : ComponentType) (c c' : Component) : Prop :=
  ∀ p ∈ t.properties, effectiveValue c' p = effectiveValue c p

section OneComponent

variable {input : Input} {c : Component} {t : ComponentType} {other : Dict String}

/-! ### What is generated for one component -/

theorem propertyLiteral?_configured (h : SameEffect t c (c.configured other)) {p : Property}
    (hp : p ∈ t.properties) : propertyLiteral? (c.configured other) p = propertyLiteral? c p := by
  rw [propertyLiteral?, propertyLiteral?, h p hp]

theorem replacements_configured (h : SameEffect t c (c.configured other)) (published : Published) :
    replacements published (c.configured other) t = replacements published c t := by
  have hliterals : propertyLiterals (c.configured other) t = propertyLiterals c t := by
    apply List.filterMap_congr
    intro p hp
    rw [propertyLiteral?_configured h hp]
  rw [replacements, replacements, hliterals]
  rfl

theorem propertyLines_configured (h : SameEffect t c (c.configured other)) (object : String) :
    propertyLines object (c.configured other) t = propertyLines object c t := by
  have hlines : t.properties.mapM (propertyLine object (c.configured other)) =
      t.properties.mapM (propertyLine object c) := by
    apply mapM_congr
    intro p hp
    rw [propertyLine, propertyLine, propertyLiteral?_configured h hp]
    rfl
  rw [propertyLines, propertyLines, hlines]

/-- A timing looks up the first property with a name, and so one that is declared. -/
theorem resolveTiming_configured (h : SameEffect t c (c.configured other)) (timing : Timing) :
    resolveTiming timing (c.configured other) t = resolveTiming timing c t := by
  cases timing with
  | unset => rfl
  | millis n => rfl
  | property name =>
    simp only [resolveTiming]
    cases hp : t.property? name with
    | none => rfl
    | some p =>
      have hname : p.name = name := by simpa using List.find?_some hp
      have hvalue : p.effective ((c.configured other).properties.get? name) =
          p.effective (c.properties.get? name) := by
        have hsame := h p (List.mem_of_find?_eq_some hp)
        rw [effectiveValue, effectiveValue, hname] at hsame
        exact hsame
      simp only [hvalue]

theorem looperRecords_configured (h : SameEffect t c (c.configured other)) (object : String) :
    looperRecords object (c.configured other) t = looperRecords object c t := by
  apply mapM_congr
  intro l _
  rw [LooperRecord.resolve, LooperRecord.resolve, resolveTiming_configured h, resolveTiming_configured h]
  rfl

theorem componentCode_configured (h : SameEffect t c (c.configured other)) (ns : String)
    (published : Published) (n : Numbers) :
    componentCode ns published n (c.configured other) t = componentCode ns published n c t := by
  have hview : ∀ published, viewCodeOf published (c.configured other) t = viewCodeOf published c t := by
    intro published
    simp only [viewCodeOf, viewCode, replacements_configured h, Component.configured_type,
      Component.configured_name]
  have heventLine : ∀ object, eventLine object (c.configured other) = eventLine object c :=
    fun _ => rfl
  have heventHandler : eventHandler (c.configured other) = eventHandler c := rfl
  have hviewLine : ∀ object, viewLine object (c.configured other) t = viewLine object c t :=
    fun _ => rfl
  have hcontroller : ∀ controller,
      controllerCode ns published n (c.configured other) t controller =
        controllerCode ns published n c t controller := by
    intro controller
    simp only [controllerCode, looperRecords_configured h, propertyLines_configured h,
      replacements_configured h, heventLine, heventHandler, hviewLine, Component.configured_type,
      Component.configured_name]
  simp only [componentCode, hview, hcontroller]

theorem headerView_configured
    (h : ∀ t, input.componentType c = .ok t → SameEffect t c (c.configured other))
    (published : Published) :
    headerView input published (c.configured other) = headerView input published c := by
  have htype : input.componentType (c.configured other) = input.componentType c := rfl
  cases ht : input.componentType c with
  | error f => simp only [headerView, htype, ht, bind, Except.bind]
  | ok t =>
    have hclass : ∀ view : Instance, classOf view (replacements published (c.configured other) t) =
        classOf view (replacements published c t) := by
      intro view
      rw [replacements_configured (h t ht)]
    simp only [headerView, htype, ht, bind, Except.bind]
    cases t.view with
    | none => rfl
    | some view =>
      simp only [hclass]
      rfl

/-! ### Checks of one component -/

/-- Configurations that set only declared properties and have the same effective values. -/
structure Interchangeable (t : ComponentType) (one other : Dict String) : Prop where
  one_declared : ∀ name ∈ one.keys, (t.property? name).isSome = true
  other_declared : ∀ name ∈ other.keys, (t.property? name).isSome = true
  effective : ∀ p ∈ t.properties, p.effective (other.get? p.name) = p.effective (one.get? p.name)

theorem Interchangeable.sameEffect (h : Interchangeable t c.properties other) :
    SameEffect t c (c.configured other) :=
  h.effective

theorem checkConfiguration_configured (h : Interchangeable t c.properties other) (board : Board) :
    Conformance.checkConfiguration board t (c.configured other) =
      Conformance.checkConfiguration board t c := by
  have hproperties : t.properties.forM (Conformance.checkProperty board (c.configured other)) =
      t.properties.forM (Conformance.checkProperty board c) := by
    apply forM_congr
    intro p hp
    rw [Conformance.checkProperty, Conformance.checkProperty, h.sameEffect p hp]
    rfl
  have hkeys : ∀ d : Dict String, (∀ name ∈ d.keys, (t.property? name).isSome = true) →
      (d.keys.forM fun name => if (t.property? name).isSome then Except.ok ()
        else .error (ConformanceFault.unknownProperty name c.name)) = .ok () := by
    intro d hd
    rw [forM_eq_ok_iff]
    intro name hname
    rw [if_pos (hd name hname)]
  have hone := hkeys c.properties h.one_declared
  have hother := hkeys other h.other_declared
  simp only [Conformance.checkConfiguration, Component.configured] at hproperties ⊢
  rw [hproperties, hone, hother]

theorem checkComponent_configured
    (h : ∀ t, input.componentType c = .ok t → Interchangeable t c.properties other) :
    Conformance.checkComponent input.board input.modules (c.configured other) =
      Conformance.checkComponent input.board input.modules c := by
  simp only [Conformance.checkComponent, Component.configured_type]
  cases ht : (input.modules.get? c.type).bind Module.componentType? with
  | none => rfl
  | some t => exact checkConfiguration_configured (h t (componentType_eq_ok_iff.2 ht)) input.board

end OneComponent

/-! ### What is generated for all components -/

/-- The second component is another configuration of the first, with the same effective values. -/
def Reconfigured (input : Input) (c c' : Component) : Prop :=
  ∃ other, c' = c.configured other ∧ ∀ t, input.componentType c = .ok t → SameEffect t c c'

section AllComponents

variable {input : Input} {cs cs' : List Component}

theorem componentsCode_of_forall₂ (h : List.Forall₂ (Reconfigured input) cs cs') (ns : String)
    (published : Published) (n : Numbers) :
    componentsCode input ns cs' published n = componentsCode input ns cs published n := by
  induction h generalizing published n with
  | nil => rfl
  | @cons c c' rest rest' hc _ ih =>
    obtain ⟨other, rfl, hsame⟩ := hc
    have htype : input.componentType (c.configured other) = input.componentType c := rfl
    rw [componentsCode, componentsCode, htype]
    cases ht : input.componentType c with
    | error f => rfl
    | ok t => simp only [componentCode_configured (hsame t ht), ih]

/-- A function that cannot tell a component from its other configuration. -/
theorem mapM_of_reconfigured {β : Type} {f : Component → Except Failure β}
    (h : List.Forall₂ (Reconfigured input) cs cs')
    (hf : ∀ c other, (∀ t, input.componentType c = .ok t → SameEffect t c (c.configured other)) →
      f (c.configured other) = f c) : cs'.mapM f = cs.mapM f := by
  apply mapM_of_forall₂
  refine List.Forall₂.flip (List.Forall₂.imp ?_ h)
  intro c c' hc
  obtain ⟨other, rfl, hsame⟩ := hc
  exact hf c other hsame

/-- The input with other components. -/
def Input.withComponents (input : Input) (cs : List Component) : Input :=
  { input with project := { input.project with components := cs } }

theorem prepareCore_of_forall₂ (h : List.Forall₂ (Reconfigured input) input.project.components cs')
    (s : State) : prepareCore (input.withComponents cs') s = prepareCore input s := by
  have hcode : ∀ ns cs published n,
      componentsCode (input.withComponents cs') ns cs published n =
        componentsCode input ns cs published n := by
    intro ns cs published n
    induction cs generalizing published n with
    | nil => rfl
    | cons c rest ih =>
      have htype : (input.withComponents cs').componentType c = input.componentType c := rfl
      simp only [componentsCode, htype, ih]
  have hcomponents : (input.withComponents cs').project.components = cs' := rfl
  simp only [prepareCore, hcode, hcomponents, componentsCode_of_forall₂ h]
  rfl

theorem headerOutput_of_forall₂ (h : List.Forall₂ (Reconfigured input) input.project.components cs')
    (s : State) : headerOutput (input.withComponents cs') s = headerOutput input s := by
  have hviews : cs'.mapM (headerView (input.withComponents cs') s.published) =
      input.project.components.mapM (headerView input s.published) :=
    mapM_of_reconfigured h fun c other hsame => headerView_configured hsame s.published
  simp only [headerOutput]
  rw [← hviews]
  rfl

theorem sketchOutput_of_forall₂ (h : List.Forall₂ (Reconfigured input) input.project.components cs')
    (s : State) : sketchOutput (input.withComponents cs') s = sketchOutput input s := by
  have hsummary : cs'.mapM (componentSummary (input.withComponents cs')) =
      input.project.components.mapM (componentSummary input) :=
    mapM_of_reconfigured h fun c other _ => rfl
  have hstubs : cs'.mapM (componentStubs (input.withComponents cs')) =
      input.project.components.mapM (componentStubs input) :=
    mapM_of_reconfigured h fun c other _ => rfl
  simp only [sketchOutput, objectSummary, stubs]
  rw [← hsummary, ← hstubs]
  rfl

theorem standardPipeline_of_forall₂
    (h : List.Forall₂ (Reconfigured input) input.project.components cs') :
    standardPipeline (input.withComponents cs') = standardPipeline input := by
  have hcore : coreSource (input.withComponents cs') = coreSource input := by
    have hprepare := funext (prepareCore_of_forall₂ h)
    simp only [coreSource, hprepare]
    rfl
  have hheader : projectHeader (input.withComponents cs') = projectHeader input := by
    simp only [projectHeader, headerOutput_of_forall₂ h]
    rfl
  have hsketch : exampleSketch (input.withComponents cs') = exampleSketch input := by
    simp only [exampleSketch, sketchOutput_of_forall₂ h]
    rfl
  have hsettings : (input.withComponents cs').settings = input.settings := rfl
  simp only [standardPipeline, hcore, hheader, hsketch, coreHeader, storageClasses, libraryManifest,
    hsettings]

theorem reconfigured_refl (input : Input) (c : Component) : Reconfigured input c c :=
  ⟨c.properties, rfl, fun _ _ _ _ => rfl⟩

theorem forall₂_modify {i : Nat} {f : Component → Component}
    (h : ∀ c, cs[i]? = some c → Reconfigured input c (f c)) :
    List.Forall₂ (Reconfigured input) cs (cs.modify i f) := by
  induction cs generalizing i with
  | nil =>
    rw [List.modify_nil]
    exact .nil
  | cons c rest ih =>
    cases i with
    | zero =>
      rw [List.modify_zero_cons]
      exact .cons (h c rfl) (List.forall₂_same.2 fun c _ => reconfigured_refl input c)
    | succ i =>
      rw [List.modify_succ_cons]
      exact .cons (reconfigured_refl input c) (ih h)

end AllComponents

/-! ### One component among others -/

/-- Neither the check of the component with the number `i` nor a run shows whether it is configured by
its own properties or by others.  The version of the layout may be left to another chance. -/
structure Indistinguishable (input : Input) (i : Nat) (c : Component) (other : Dict String) : Prop where
  check : Conformance.checkComponent input.board input.modules (c.configured other) =
    Conformance.checkComponent input.board input.modules c
  preparation : ∀ chance s,
    (standardPipeline { input.configured i other with chance := chance }).preparation s =
      (standardPipeline input).preparation s
  run : ∀ chance s a,
    (standardPipeline { input.configured i other with chance := chance }).run s a =
      (standardPipeline input).run s a

section OneAmongOthers

variable {input : Input} {i : Nat} {c : Component} {t : ComponentType} {other : Dict String}

theorem indistinguishable_of_interchangeable (hc : input.project.components[i]? = some c)
    (hversion : Storage.VersionMode.read input.project.layoutVersion ≠ .ok .random)
    (h : ∀ t, input.componentType c = .ok t → Interchangeable t c.properties other) :
    Indistinguishable input i c other := by
  have hcomponents : List.Forall₂ (Reconfigured input) input.project.components
      (input.project.configured i other).components := by
    apply forall₂_modify
    intro c' hc'
    rw [hc] at hc'
    cases hc'
    exact ⟨other, rfl, fun t ht => (h t ht).sameEffect⟩
  have hpipeline : ∀ chance, standardPipeline { input.configured i other with chance := chance } =
      standardPipeline input := by
    intro chance
    rw [standardPipeline_chance (input.configured i other) chance (.inr hversion)]
    exact standardPipeline_of_forall₂ hcomponents
  refine ⟨checkComponent_configured h, ?_, ?_⟩
  · intro chance s
    rw [hpipeline]
  · intro chance s a
    rw [hpipeline]

/-- Setting a declared property is no difference, if it makes none to its own effective value. -/
theorem interchangeable_insert {p : Property} {v : String}
    (hnames : (t.properties.map (·.name)).Nodup) (hp : p ∈ t.properties)
    (hdeclared : ∀ name ∈ c.properties.keys, (t.property? name).isSome = true)
    (hvalue : p.effective (some v) = p.effective (c.properties.get? p.name)) :
    Interchangeable t c.properties (c.properties.insert p.name v) := by
  refine ⟨hdeclared, ?_, ?_⟩
  · intro name hname
    rcases Dict.mem_keys_insert.1 hname with rfl | hname
    · rw [ComponentType.property?, List.find?_isSome]
      exact ⟨p, hp, beq_self_eq_true _⟩
    · exact hdeclared name hname
  · intro q hq
    by_cases heq : q.name = p.name
    · obtain rfl := List.inj_on_of_nodup_map hnames hq hp heq
      rw [Dict.get?_insert_self, hvalue]
    · rw [Dict.get?_insert_of_ne _ _ heq]

/-- **Only effective values count.**  Two configurations of a component are indistinguishable if they
set only declared properties and have the same effective values.  In particular it makes no difference
what is set for a fixed property, or whether a default is set where it counts anyway. -/
theorem effective_values_count (hc : input.project.components[i]? = some c)
    (hversion : Storage.VersionMode.read input.project.layoutVersion ≠ .ok .random) :
    (∀ other, (∀ t, input.componentType c = .ok t → Interchangeable t c.properties other) →
      Indistinguishable input i c other) ∧
    ∀ t, input.componentType c = .ok t → (t.properties.map (·.name)).Nodup →
      (∀ name ∈ c.properties.keys, (t.property? name).isSome = true) → ∀ p ∈ t.properties,
        (∀ fixed v, p.predefined = some (.fixed fixed) →
          Indistinguishable input i c (c.properties.insert p.name v)) ∧
        (∀ default, p.predefined = some (.fallback default) → c.properties.get? p.name = none →
          Indistinguishable input i c (c.properties.insert p.name default)) := by
  refine ⟨fun other h => indistinguishable_of_interchangeable hc hversion h, ?_⟩
  intro t ht hnames hdeclared p hp
  have hinsert : ∀ v, p.effective (some v) = p.effective (c.properties.get? p.name) →
      Indistinguishable input i c (c.properties.insert p.name v) := by
    intro v hvalue
    apply indistinguishable_of_interchangeable hc hversion
    rw [forall_componentType_iff ht]
    exact interchangeable_insert hnames hp hdeclared hvalue
  constructor
  · intro fixed v hfixed
    apply hinsert
    simp only [Property.effective, hfixed]
  · intro default hdefault hnone
    apply hinsert
    simp only [Property.effective, hdefault, hnone]

end OneAmongOthers

/-- A type with a fixed pin and a default for the time between two calls. -/
def presetType : ComponentType where
  controller := some { classType := "Blinker" }
  properties :=
    [{ name := "Pin", type := "int", predefined := some (.fixed "13"),
       binding := some ⟨.attribute, "pin"⟩ },
     { name := "Period", type := "string", predefined := some (.fallback "250") }]
  loopers := [{ method := "blink", interval := .property "Period" }]

/-- A component that sets nothing. -/
def preset : Component where
  type := "m.preset"
  name := "led"

/-- A project with this component. -/
def presetInput : Input where
  settings := { projectFile := ⟨"p.xml"⟩, outputRoot := ⟨"out"⟩, libraryName := "Blink" }
  project := { components := [preset] }
  board := ⟨"Arduino", 14, 6, 2, 1, 9⟩
  modules := Dict.empty.insert "m.preset" ⟨"m.preset", ⟨"m/preset"⟩, [], [], .componentType presetType⟩

theorem effective_values_count_preset :
    presetInput.project.components[0]? = some preset ∧
      Storage.VersionMode.read presetInput.project.layoutVersion ≠ .ok .random ∧
      (∀ t, presetInput.componentType preset = .ok t → Interchangeable t preset.properties
        ((Dict.empty.insert "Pin" "7").insert "Period" "250")) ∧
      Indistinguishable presetInput 0 preset ((Dict.empty.insert "Pin" "7").insert "Period" "250") := by
  have hc : presetInput.project.components[0]? = some preset := rfl
  have hversion : Storage.VersionMode.read presetInput.project.layoutVersion ≠ .ok .random := by
    decide +kernel
  have hsame : ∀ t, presetInput.componentType preset = .ok t → Interchangeable t preset.properties
      ((Dict.empty.insert "Pin" "7").insert "Period" "250") := by
    intro t ht
    cases ht
    refine ⟨nofun, ?_, ?_⟩
    · decide +kernel
    · intro p hp
      simp only [presetType, List.mem_cons, List.not_mem_nil, or_false] at hp
      rcases hp with rfl | rfl
      · rfl
      · rfl
  exact ⟨hc, hversion, hsame, (effective_values_count hc hversion).1 _ hsame⟩

end Generation

end Boardwright
