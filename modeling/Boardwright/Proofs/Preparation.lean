import Boardwright.Generation.Standard
import Boardwright.Proofs.SourceReadiness

/-!
# When the standard generators can prepare

The checks of a project and the generators read the same data by different functions.  Here the two
are compared: of a project that has passed its checks, the first phases succeed under conditions on
its storage, its loopers and its views that the checks say nothing about.

* **`ViewReady`**: the class of a view is not blank once it is filled in.
* **`Pipeline.preparation`**: the first phases of a pipeline.
* **`preparation_decided`**: when they succeed, and that their failures are refusals otherwise.
-/

namespace Boardwright.Generation

open Fallible

variable {σ τ : Type} {input : Input} {c : Component} {t : ComponentType}

/-! ### The header and the sketch -/

/-- The class of a component's view, filled in, is not blank, if its type has a view at all. -/
def ViewReady (input : Input) (published : Published) (c : Component) : Prop :=
  ∀ t, input.componentType c = .ok t → ∀ view, t.view = some view →
    Text.isBlankText (Template.fill view.classType (replacements published c t)) = false

theorem headerView_decided (h : Conforming input) (hc : c ∈ input.project.components)
    (published : Published) :
    Decided Refusal (headerView input published c) (ViewReady input published c) := by
  obtain ⟨t, ht⟩ := h.exists_type hc
  rw [ViewReady, forall_componentType_iff ht]
  simp only [headerView, ht, bind, Except.bind]
  cases t.view with
  | none => exact .of_isOk ⟨_, rfl⟩ (by simp)
  | some view =>
    -- the generator looks at the trimmed class, the condition at all of its characters
    have hempty : (classOf view (replacements published c t)).isEmpty = true ↔
        Text.isBlankText (Template.fill view.classType (replacements published c t)) = true :=
      Text.isEmpty_trim_iff
    by_cases hblank : (classOf view (replacements published c t)).isEmpty = true
    · simp only [if_pos hblank]
      exact .of_error rfl (.view c.name) (by simp [hempty.1 hblank])
    · simp only [if_neg hblank]
      exact .of_isOk ⟨_, rfl⟩ (by simpa [hempty] using hblank)

theorem headerOutput_decided (h : Conforming input) (s : State) :
    Decided Refusal (headerOutput input s)
      (∀ c ∈ input.project.components, ViewReady input s.published c) := by
  have hlibraries : ∃ lines, input.project.libraryImports.mapM (libraryIncludes input)
      = .ok lines :=
    mapM_isOk_iff.2 fun name hname => h.exists_includes hname
  obtain ⟨lines, hlines⟩ := hlibraries
  rw [headerOutput]
  refine Decided.bind_total (.mapM fun c hc => headerView_decided h hc s.published) ?_
  intro views
  rw [hlines]
  exact ⟨_, rfl⟩

theorem exists_objectSummary (h : Conforming input) : ∃ lines, objectSummary input = .ok lines := by
  have hcomponents : ∃ lines, input.project.components.mapM (componentSummary input)
      = .ok lines := by
    refine mapM_isOk_iff.2 fun c hc => ?_
    obtain ⟨t, ht⟩ := h.exists_type hc
    simp only [componentSummary, ht, bind, Except.bind]
    split
    · exact ⟨_, rfl⟩
    · exact ⟨_, rfl⟩
  obtain ⟨lines, hlines⟩ := hcomponents
  simp only [objectSummary, hlines, bind, Except.bind]
  split
  · exact ⟨_, rfl⟩
  · exact ⟨_, rfl⟩

theorem exists_stubs (h : Conforming input) : ∃ functions, stubs input = .ok functions := by
  have hcomponents : ∃ functions, input.project.components.mapM (componentStubs input)
      = .ok functions := by
    refine mapM_isOk_iff.2 fun c hc => ?_
    obtain ⟨t, ht⟩ := h.exists_type hc
    rw [componentStubs, ht]
    exact ⟨_, rfl⟩
  obtain ⟨functions, hfunctions⟩ := hcomponents
  rw [stubs, hfunctions]
  exact ⟨_, rfl⟩

theorem exists_sketchOutput (h : Conforming input) (s : State) :
    ∃ output, sketchOutput input s = .ok output := by
  obtain ⟨lines, hlines⟩ := exists_objectSummary h
  obtain ⟨functions, hfunctions⟩ := exists_stubs h
  rw [sketchOutput, hlines, hfunctions]
  exact ⟨_, rfl⟩

/-! ### The pipeline -/

/-- The first phases of a pipeline. -/
def Pipeline.preparation (p : Pipeline σ τ) (s : σ) :
    σ × Except Failure (List (Generator σ τ × Template.Replacements)) :=
  match p.scheduled with
  | .error f => (s, .error f)
  | .ok generators => prepareAll generators s

/-- A failure of the first phases ends a run, before any file is written. -/
theorem Pipeline.run_of_preparation_error {p : Pipeline σ τ} {s : σ} {f : Failure}
    (h : (p.preparation s).2 = .error f) (t : τ) :
    p.run s t = ⟨(p.preparation s).1, t, .error f⟩ := by
  rw [Pipeline.preparation] at h ⊢
  rw [Pipeline.run]
  cases hscheduled : p.scheduled with
  | error f' =>
    rw [hscheduled] at h
    cases h
    rfl
  | ok generators =>
    rw [hscheduled] at h
    cases hprepare : prepareAll generators s with
    | mk s' result =>
      simp only [hprepare] at h ⊢
      subst h
      rfl

theorem Pipeline.run_of_preparation {p : Pipeline σ τ} {s s' : σ}
    {prepared : List (Generator σ τ × Template.Replacements)}
    (h : p.preparation s = (s', .ok prepared)) (t : τ) :
    p.run s t = ⟨s', (generateAll s' prepared t).1, (generateAll s' prepared t).2⟩ := by
  rw [Pipeline.preparation] at h
  rw [Pipeline.run]
  cases hscheduled : p.scheduled with
  | error f =>
    rw [hscheduled] at h
    cases h
  | ok generators =>
    rw [hscheduled] at h
    simp only at h ⊢
    rw [h]

theorem prepareAll_cons_decided {blame : Failure → Prop} {P Q : Prop} {g : Generator σ τ}
    {rest : List (Generator σ τ)} {s : σ} (hg : Decided blame (g.prepare s).2 P)
    (hrest : ∀ output, (g.prepare s).2 = .ok output →
      Decided blame (prepareAll rest (g.prepare s).1).2 Q) :
    Decided blame (prepareAll (g :: rest) s).2 (P ∧ Q) := by
  refine hg.andThen ?_ ?_
  · intro f hf
    cases hprepare : g.prepare s with
    | mk s' result =>
      rw [hprepare] at hf
      cases hf
      simp only [prepareAll, hprepare]
  · intro output houtput
    have hnext : (prepareAll (g :: rest) s).2 =
        (prepareAll rest (g.prepare s).1).2.map ((g, output) :: ·) := by
      cases hprepare : g.prepare s with
      | mk s' result =>
        rw [hprepare] at houtput
        cases houtput
        simp only [prepareAll, hprepare]
        cases prepareAll rest s' with
        | mk s'' result' => cases result' <;> rfl
    rw [hnext]
    exact (hrest output houtput).map _

theorem scheduled_standardPipeline (input : Input) :
    (standardPipeline input).scheduled = .ok (standardPipeline input).generators := by
  have hschedule : (standardPipeline input).graph.schedule = .ok [0, 1, 2, 3, 4, 5] := by
    show JobGraph.schedule ⟨["project-code", "project-header", "core-header", "eeprom-vars",
      "example", "library-properties"], [[], [0], [], [0], [0], []]⟩ = _
    decide +kernel
  rw [Pipeline.scheduled, Pipeline.order, hschedule]
  rfl

theorem preparation_decided (h : Conforming input) (s : State) :
    Decided Refusal ((standardPipeline input).preparation s).2
      ((StorageReady input ∧ ∀ c ∈ input.project.components, LoopersReady input c) ∧
        ∀ c ∈ input.project.components,
          ViewReady input (publishedValues input s.privateNamespace) c) := by
  -- of the six generators only the first two can fail
  have hothers : ∀ s, ∃ prepared, (prepareAll [coreHeader input, storageClasses input,
      exampleSketch input, libraryManifest input] s).2 = .ok prepared := by
    intro s
    obtain ⟨output, houtput⟩ := exists_sketchOutput h s
    simp only [prepareAll, coreHeader, storageClasses, exampleSketch, libraryManifest, houtput]
    exact ⟨_, rfl⟩
  rw [Pipeline.preparation, scheduled_standardPipeline]
  refine prepareAll_cons_decided (prepareCore_decided h s) ?_
  intro output houtput
  have hheader : Decided Refusal (headerOutput input (prepareCore input s).1)
      (∀ c ∈ input.project.components,
        ViewReady input (publishedValues input s.privateNamespace) c) := by
    rw [← prepareCore_published h houtput]
    exact headerOutput_decided h _
  refine (prepareAll_cons_decided hheader ?_).congr (iff_of_eq (and_true _))
  intro _ _
  exact .of_isOk (hothers _) trivial

/-- **Checks and generators agree.**  For a project that has passed its checks, all first phases
succeed exactly when its storage, its loopers and its views are ready.  Otherwise the run ends
without a file, and no message of its failure is one that the checks rule out. -/
theorem preparation_isOk_iff (h : Conforming input) (s : State) :
    ((∃ prepared, ((standardPipeline input).preparation s).2 = .ok prepared) ↔
      StorageReady input ∧ (∀ c ∈ input.project.components, LoopersReady input c) ∧
        ∀ c ∈ input.project.components,
          ViewReady input (publishedValues input s.privateNamespace) c) ∧
    ∀ f, ((standardPipeline input).preparation s).2 = .error f →
      (∀ m ∈ f.chain, ¬RuledOut m) ∧
        ∀ a, (standardPipeline input).run s a =
          ⟨((standardPipeline input).preparation s).1, a, .error f⟩ := by
  have hdecided := preparation_decided h s
  constructor
  · rw [hdecided.isOk_iff, and_assoc]
  · intro f hf
    refine ⟨?_, fun a => Pipeline.run_of_preparation_error hf a⟩
    intro m hm
    exact (hdecided.blamed f hf).not_ruledOut hm

/-- A type with a view and a controller.  Its looper takes its interval from a property that may be
any text. -/
def blinkerType : ComponentType where
  view := some { classType := "View<$controller>" }
  controller := some { classType := "Blinker" }
  properties := [{ name := "Period", type := "string", binding := some ⟨.attribute, "period"⟩ }]
  loopers := [{ method := "blink", interval := .property "Period" }]

/-- A component that blinks. -/
def blinker (period : String) : Component where
  type := "m.blinker"
  name := "led"
  properties := Dict.empty.insert "Period" period

/-- A project with one blinker, a library and a stored number. -/
def blinkerInput (period : String) : Input where
  settings := { projectFile := ⟨"p.xml"⟩, outputRoot := ⟨"out"⟩, libraryName := "Blink" }
  project :=
    { components := [blinker period]
      libraryImports := ["m.tools"]
      storage := [{ name := "count", type := "int", value := some " 7 " }] }
  board := ⟨"Arduino", 14, 6, 2, 1, 9⟩
  modules :=
    (Dict.empty.insert "m.tools" ⟨"m.tools", ⟨"m/tools"⟩, [], [], .library ["tools.h"]⟩).insert
      "m.blinker" ⟨"m.blinker", ⟨"m/blinker"⟩, [], [], .componentType blinkerType⟩

theorem componentType_blinker (period : String) :
    (blinkerInput period).componentType (blinker period) = .ok blinkerType := by
  rw [componentType_eq_ok_iff]
  rfl

theorem blinkerInput_conforming (period : String) : Conforming (blinkerInput period) := by
  constructor
  · intro c hc
    obtain rfl := List.mem_singleton.1 hc
    rfl
  · rfl
  · intro name m t hm ht
    simp only [blinkerInput, Dict.get?_insert, Dict.get?_empty] at hm
    split at hm
    · cases hm
      cases ht
      decide +kernel
    · split at hm
      · cases hm
        cases ht
      · cases hm

theorem preparation_blinker :
    Conforming (blinkerInput "250") ∧ Conforming (blinkerInput "fast") ∧
      (∃ prepared, ((standardPipeline (blinkerInput "250")).preparation ⟨"acp", 0, [], .empty⟩).2
        = .ok prepared) ∧
      ¬∃ prepared, ((standardPipeline (blinkerInput "fast")).preparation ⟨"acp", 0, [], .empty⟩).2
        = .ok prepared := by
  refine ⟨blinkerInput_conforming _, blinkerInput_conforming _, ?_, ?_⟩
  · rw [(preparation_isOk_iff (blinkerInput_conforming "250") _).1]
    refine ⟨⟨⟨_, rfl⟩, fun _ => ⟨?_, _, rfl⟩⟩, ?_, ?_⟩
    · intro item hitem v hv
      obtain rfl := List.mem_singleton.1 hitem
      cases hv
      decide +kernel
    · intro c hc t ht _ l hl
      obtain rfl := List.mem_singleton.1 hc
      cases (componentType_blinker "250").symm.trans ht
      obtain rfl := List.mem_singleton.1 hl
      refine ⟨?_, trivial⟩
      intro p v hp hv
      cases hp
      cases hv
      decide +kernel
    · intro c hc t ht view hview
      obtain rfl := List.mem_singleton.1 hc
      cases (componentType_blinker "250").symm.trans ht
      cases hview
      decide +kernel
  · rw [(preparation_isOk_iff (blinkerInput_conforming "fast") _).1]
    rintro ⟨-, hloopers, -⟩
    have h := (hloopers _ (List.mem_singleton.2 rfl) _ (componentType_blinker "fast") rfl _
      (List.mem_singleton.2 rfl)).1 _ "fast" rfl rfl
    revert h
    decide +kernel

end Boardwright.Generation
