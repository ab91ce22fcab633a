import Boardwright.Proofs.Preparation

/-!
# What the first phases leave

A first phase that succeeds has gone through all of its steps.  Here its result is traced back to these
steps, once for each function, so that later proofs speak of the steps and not of the functions.

* **`ControllerBlock`**, **`componentCode_eq_ok_iff`**: the code of one component.
* **`Assembles`**: the walk over the components, with one rule for each component that is passed.
* **`Assembles.get?_of_not_mem`**: components leave alone what others have published.
* **`prepareCore_eq_ok_iff`**, **`headerOutput_eq_ok_iff`**, **`sketchOutput_eq_ok_iff`**: what three of
  the generators prepare.
* **`Outputs`**, **`preparation_eq_ok_iff`**: what all standard generators have prepared.
-/

namespace Boardwright.Generation

open Fallible

variable {input : Input} {ns : String} {c : Component} {t : ComponentType} {cs : List Component}
  {p p' : Published} {n : Numbers} {code : Code}

/-! ### Pieces of code -/

@[simp] theorem publicObjects_append (a b : Code) :
    (a ++ b).publicObjects = a.publicObjects ++ b.publicObjects := rfl

@[simp] theorem handlers_append (a b : Code) : (a ++ b).handlers = a.handlers ++ b.handlers := rfl

theorem nil_append (a : Code) : ({} : Code) ++ a = a := rfl

/-! ### One component -/

/-- The code of a controller, when the records of its loopers and the statements for its properties are
known. -/
def controllerBlock (ns : String) (published : Published) (n : Numbers) (c : Component)
    (t : ComponentType) (controller : Instance) (records : List LooperRecord) (values : List String) :
    Code :=
  let name := controllerName n.controllers
  let object := qualify ns name
  let wrappers := namedWrappers n.wrappers t.methodWrappers
  let r := replacements published c t
  let comment := "// Controller for " ++ c.name
  { includes := controller.includes.map (includeLine c.type)
    handlers := t.events.flatMap (eventHandler c)
    privateObjects := [comment, definition controller name r]
    setup := commented comment
      (looperIdLines object n.loopers t.loopers ++ values ++ t.events.flatMap (eventLine object c)
        ++ wrapperLines ns object wrappers ++ viewLine object c t ++ callLine controller.init object r)
    loop := callLine controller.loop object r
    loopers := records
    wrapperDeclarations := wrappers.map fun w => w.2.head w.1 ++ ";"
    wrapperDefinitions := wrappers.flatMap fun w => wrapperDefinition object w.1 w.2 }

/-- The code of a component's controller.  Without a controller there is none; with one, its loopers and
its properties have been resolved. -/
inductive ControllerBlock (ns : String) (published : Published) (n : Numbers) (c : Component)
    (t : ComponentType) : Code → Prop where
  | none : t.controller = none → ControllerBlock ns published n c t {}
  | some {controller : Instance} {records : List LooperRecord} {values : List String} :
      t.controller = some controller →
      looperRecords (qualify ns (controllerName n.controllers)) c t = .ok records →
      propertyLines (qualify ns (controllerName n.controllers)) c t = .ok values →
      ControllerBlock ns published n c t (controllerBlock ns published n c t controller records values)

/-- What is generated for a component: the code of its controller, and behind it the code of its view,
which is filled in after the component has published its values. -/
theorem componentCode_eq_ok_iff :
    componentCode ns p n c t = (p', .ok code) ↔
      p' = publishedBy ns p n c t ∧
        ∃ block, ControllerBlock ns p' n c t block ∧ code = block ++ viewCodeOf p' c t := by
  unfold componentCode publishedBy
  cases hcontroller : t.controller with
  | none =>
    constructor
    · intro h
      cases h
      exact ⟨rfl, {}, .none hcontroller, (nil_append _).symm⟩
    · intro h
      obtain ⟨rfl, block, hblock, rfl⟩ := h
      cases hblock with
      | none => rfl
      | some hsome =>
        rw [hcontroller] at hsome
        cases hsome
  | some controller =>
    constructor
    · intro h
      unfold controllerCode at h
      cases hrecords : looperRecords (qualify ns (controllerName n.controllers)) c t with
      | error f =>
        simp only [hrecords] at h
        cases h
      | ok records =>
        cases hvalues : propertyLines (qualify ns (controllerName n.controllers)) c t with
        | error f =>
          simp only [hrecords, hvalues] at h
          cases h
        | ok values =>
          simp only [hrecords, hvalues] at h
          cases h
          exact ⟨rfl, _, .some hcontroller hrecords hvalues, rfl⟩
    · intro h
      obtain ⟨rfl, block, hblock, rfl⟩ := h
      cases hblock with
      | none hnone =>
        rw [hcontroller] at hnone
        cases hnone
      | some hsome hrecords hvalues =>
        rw [hcontroller] at hsome
        cases hsome
        simp only [controllerCode, hrecords, hvalues]
        rfl

/-! ### All components -/

/-- The walk over components: each is passed with the values that were published before it and the numbers
that were given out, and its code is put before the code of the others. -/
inductive Assembles (input : Input) (ns : String) :
    List Component → Published → Numbers → Published → Code → Prop where
  | done {p : Published} {n : Numbers} : Assembles input ns [] p n p {}
  | next {c : Component} {rest : List Component} {t : ComponentType} {p p' : Published} {n : Numbers}
      {block others : Code} :
      input.componentType c = .ok t →
      ControllerBlock ns (publishedBy ns p n c t) n c t block →
      Assembles input ns rest (publishedBy ns p n c t) (n.next t) p' others →
      Assembles input ns (c :: rest) p n p'
        (block ++ viewCodeOf (publishedBy ns p n c t) c t ++ others)

theorem componentsCode_eq_ok_iff :
    componentsCode input ns cs p n = (p', .ok code) ↔ Assembles input ns cs p n p' code := by
  induction cs generalizing p n code with
  | nil =>
    constructor
    · intro h
      cases h
      exact .done
    · intro h
      cases h
      rfl
  | cons c rest ih =>
    constructor
    · intro h
      unfold componentsCode at h
      cases ht : input.componentType c with
      | error f =>
        simp only [ht] at h
        cases h
      | ok t =>
        simp only [ht] at h
        split at h
        · cases h
        next middle first hfirst =>
          obtain ⟨rfl, block, hblock, rfl⟩ := componentCode_eq_ok_iff.1 hfirst
          split at h
          · cases h
          next hothers =>
            cases h
            exact .next ht hblock (ih.1 hothers)
    · intro h
      cases h with
      | next ht hblock hothers =>
        have hfirst := componentCode_eq_ok_iff.2 ⟨rfl, _, hblock, rfl⟩
        simp only [componentsCode, ht, hfirst, ih.2 hothers]

/-! ### Published values -/

theorem Published.get?_put_of_ne {component name : String} (h : name ≠ component)
    (p : Published) (key value : String) : (p.put component key value).get? name = p.get? name :=
  Dict.get?_insert_of_ne _ _ h

theorem get?_publishWrappers_of_ne {component name : String} (h : name ≠ component)
    (ws : List (String × MethodWrapper)) (p : Published) :
    (publishWrappers ns component p ws).get? name = p.get? name := by
  unfold publishWrappers
  induction ws generalizing p with
  | nil => rfl
  | cons w rest ih =>
    rw [List.foldl_cons, ih]
    cases publishedName? w.2 with
    | none => rfl
    | some key => exact p.get?_put_of_ne h key _

/-- A component publishes values under its own name only. -/
theorem get?_publishedBy_of_ne {name : String} (h : name ≠ c.name) (p : Published) (n : Numbers) :
    (publishedBy ns p n c t).get? name = p.get? name := by
  unfold publishedBy
  split
  · rw [get?_publishWrappers_of_ne h, Published.get?_put_of_ne h]
  · rfl

/-- Components leave alone what is published under other names than theirs. -/
theorem Assembles.get?_of_not_mem (h : Assembles input ns cs p n p' code) {name : String}
    (hname : name ∉ cs.map (·.name)) : p'.get? name = p.get? name := by
  induction h with
  | done => rfl
  | next _ _ _ ih =>
    rw [List.map_cons, List.mem_cons, not_or] at hname
    rw [ih hname.2, get?_publishedBy_of_ne hname.1]

/-- The templates of a component are filled with what is published under its own name. -/
theorem replacements_congr (h : p.get? c.name = p'.get? c.name) :
    replacements p c t = replacements p' c t := by
  rw [replacements, replacements, h]

/-! ### The source -/

theorem prepareCore_eq_ok_iff {s s' : State} {output : Output} :
    prepareCore input s = (s', .ok output) ↔
      ∃ layout storage published code, Storage.allocate input.project.storage = .ok layout ∧
        storageCode input s.privateNamespace layout = .ok storage ∧
        Assembles input s.privateNamespace input.project.components .empty {} published code ∧
        s' = ⟨s.privateNamespace, layout.usage, layout.slots.map (·.externDeclaration), published⟩ ∧
        output = coreOutput input s.privateNamespace storage code := by
  constructor
  · intro h
    cases hlayout : Storage.allocate input.project.storage with
    | error fault =>
      simp only [prepareCore, hlayout] at h
      cases h
    | ok layout =>
      cases hstorage : storageCode input s.privateNamespace layout with
      | error f =>
        simp only [prepareCore, hlayout, hstorage] at h
        cases h
      | ok storage =>
        simp only [prepareCore, hlayout, hstorage] at h
        split at h
        · cases h
        next published code hcode =>
          rw [Prod.mk.injEq, Except.ok.injEq] at h
          obtain ⟨rfl, rfl⟩ := h
          exact ⟨layout, storage, published, code, rfl, hstorage, componentsCode_eq_ok_iff.1 hcode, rfl,
            rfl⟩
  · intro h
    obtain ⟨layout, storage, published, code, hlayout, hstorage, hcode, rfl, rfl⟩ := h
    simp only [prepareCore, hlayout, hstorage, componentsCode_eq_ok_iff.2 hcode]

/-! ### The header and the sketch -/

theorem headerOutput_eq_ok_iff {s : State} {output : Output} :
    headerOutput input s = .ok output ↔
      ∃ views libraries, input.project.components.mapM (headerView input s.published) = .ok views ∧
        input.project.libraryImports.mapM (libraryIncludes input) = .ok libraries ∧
        output = Dict.ofList
          [("includes", Text.mergeLines (Text.dedupLines (views.flatMap (·.1) ++ libraries.flatten ++
            if s.storageExterns.isEmpty then [] else ["#include <" ++ storageHeaderFile ++ ">"])) ""),
           ("views", Text.mergeLines (views.flatMap (·.2)) ""),
           ("eepromUsage", toString s.storageUsage),
           ("eepromVars", Text.mergeLines s.storageExterns "")] := by
  simp only [headerOutput, bind_eq_ok_iff]
  constructor
  · intro h
    obtain ⟨views, hviews, libraries, hlibraries, houtput⟩ := h
    cases houtput
    exact ⟨views, libraries, hviews, hlibraries, rfl⟩
  · intro h
    obtain ⟨views, libraries, hviews, hlibraries, rfl⟩ := h
    exact ⟨views, hviews, libraries, hlibraries, rfl⟩

theorem sketchOutput_eq_ok_iff {s : State} {output : Output} :
    sketchOutput input s = .ok output ↔
      ∃ summary functions, objectSummary input = .ok summary ∧ stubs input = .ok functions ∧
        output = Dict.ofList
          [("includes", Text.mergeLines (sketchIncludes input s) ""),
           ("objectSummary", Text.mergeLines summary ""),
           ("callbacks", Text.mergeLines (functions.flatMap (·.lines)) "")] := by
  simp only [sketchOutput, bind_eq_ok_iff]
  constructor
  · intro h
    obtain ⟨summary, hsummary, functions, hfunctions, houtput⟩ := h
    cases houtput
    exact ⟨summary, functions, hsummary, hfunctions, rfl⟩
  · intro h
    obtain ⟨summary, functions, hsummary, hfunctions, rfl⟩ := h
    exact ⟨summary, hsummary, functions, hfunctions, rfl⟩

/-! ### All generators -/

/-- What the three generators prepare whose output depends on the project. -/
structure Outputs where
  /-- For the source. -/
  source : Output
  /-- For the header that sketches include. -/
  header : Output
  /-- For the example sketch. -/
  sketch : Output

/-- What is prepared for the header that all modules include. -/
def coreHeaderOutput (input : Input) : Output :=
  .ofList [("debugMode", if input.settings.debugMode then "1" else "0")]

/-- What is prepared for the classes of stored items. -/
def storageClassesOutput (s : State) : Output :=
  .ofList [("privateNamespace", s.privateNamespace), ("acpEepromHeaderFile", storageHeaderFile)]

/-- What is prepared for the library's description. -/
def manifestOutput (input : Input) : Output :=
  .ofList [("libraryName", input.settings.libraryName)]

namespace Outputs

/-- The outputs are prepared from the state `s`, and `s'` is the state afterwards.  Only the generator of
the source changes the state. -/
structure PreparedFrom (o : Outputs) (input : Input) (s s' : State) : Prop where
  source : prepareCore input s = (s', .ok o.source)
  header : headerOutput input s' = .ok o.header
  sketch : sketchOutput input s' = .ok o.sketch

/-- The standard generators with their outputs. -/
def paired (o : Outputs) (input : Input) (s : State) :
    List (Generator State Artifacts × Template.Replacements) :=
  [(coreSource input, o.source), (projectHeader input, o.header),
    (coreHeader input, coreHeaderOutput input), (storageClasses input, storageClassesOutput s),
    (exampleSketch input, o.sketch), (libraryManifest input, manifestOutput input)]

end Outputs

theorem exists_ok {σ ε α : Type} {x : σ × Except ε α} (h : x.2.toOption.isSome = true) :
    ∃ a, x = (x.1, .ok a) := by
  cases x with
  | mk s result =>
    cases result with
    | error e => cases h
    | ok a => exact ⟨a, rfl⟩

/-- First phases whose success has been computed. -/
theorem exists_preparation {σ τ : Type} {p : Pipeline σ τ} {s : σ}
    (h : (p.preparation s).2.toOption.isSome = true) :
    ∃ prepared, p.preparation s = ((p.preparation s).1, .ok prepared) :=
  exists_ok h

theorem preparation_eq_ok_iff {s s' : State}
    {prepared : List (Generator State Artifacts × Template.Replacements)} :
    (standardPipeline input).preparation s = (s', .ok prepared) ↔
      ∃ o : Outputs, o.PreparedFrom input s s' ∧ prepared = o.paired input s' := by
  rw [Pipeline.preparation, scheduled_standardPipeline]
  constructor
  · intro h
    cases hsource : prepareCore input s with
    | mk s₁ source =>
      cases source with
      | error f =>
        simp only [standardPipeline, prepareAll, coreSource, hsource] at h
        cases h
      | ok source =>
        cases hheader : headerOutput input s₁ with
        | error f =>
          simp only [standardPipeline, prepareAll, coreSource, projectHeader, hsource, hheader] at h
          cases h
        | ok header =>
          cases hsketch : sketchOutput input s₁ with
          | error f =>
            simp only [standardPipeline, prepareAll, coreSource, projectHeader, coreHeader,
              storageClasses, exampleSketch, hsource, hheader, hsketch] at h
            cases h
          | ok sketch =>
            simp only [standardPipeline, prepareAll, coreSource, projectHeader, coreHeader,
              storageClasses, exampleSketch, libraryManifest, hsource, hheader, hsketch,
              Prod.mk.injEq, Except.ok.injEq] at h
            obtain ⟨rfl, rfl⟩ := h
            exact ⟨⟨source, header, sketch⟩, ⟨hsource, hheader, hsketch⟩, rfl⟩
  · intro h
    obtain ⟨o, ho, rfl⟩ := h
    simp only [standardPipeline, prepareAll, coreSource, projectHeader, coreHeader, storageClasses,
      exampleSketch, libraryManifest, ho.source, ho.header, ho.sketch]
    rfl

end Boardwright.Generation
