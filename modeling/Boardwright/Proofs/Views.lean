import Boardwright.Proofs.Outputs

/-!
# The views in the header and in the source

The header declares the view of every component and the source defines it.  Both fill in the class of the
view, but not at the same time: the source does it when it comes to the component, and the header after
all components have published their values.

* **`ViewObject`**: a view with everything that its declaration and its definition are made of.
* **`viewObjects`**: the views of all components.
* **`Assembles.publicObjects`**, **`flatMap_headerView`**: what is defined and what is declared.
* **`views_declared_as_defined`**: the declarations are those of the definitions.
-/

namespace Boardwright.Generation

open Fallible

variable {input : Input} {ns : String} {cs : List Component} {p p' : Published} {n : Numbers} {code : Code}

/-- A view in the generated program. -/
structure ViewObject where
  /-- Its class. -/
  type : String
  /-- Its name. -/
  name : String
  /-- The arguments of its constructor between brackets, or nothing. -/
  arguments : String
  deriving DecidableEq

namespace ViewObject

/-- The definition of a view. -/
def definition (v : ViewObject) : String :=
  v.type ++ " " ++ v.name ++ v.arguments ++ ";"

/-- The declaration of a view for other files. -/
def declaration (v : ViewObject) : String :=
  "extern " ++ v.type ++ " " ++ v.name ++ ";"

end ViewObject

/-- The view of a component, if its type has one, filled in from published values. -/
def viewObject? (published : Published) (c : Component) (t : ComponentType) : Option ViewObject :=
  t.view.map fun view =>
    let r := replacements published c t
    ⟨classOf view r, c.name, constructorArguments view r⟩

/-- The view of a component of a project. -/
def viewObjectsOf (input : Input) (published : Published) (c : Component) : List ViewObject :=
  match input.componentType c with
  | .ok t => (viewObject? published c t).toList
  | .error _ => []

theorem viewObjectsOf_eq {input : Input} {c : Component} {t : ComponentType}
    (ht : input.componentType c = .ok t) (published : Published) :
    viewObjectsOf input published c = (viewObject? published c t).toList := by
  rw [viewObjectsOf, ht]

/-- The views of components, in their order. -/
def viewObjects (input : Input) (published : Published) (cs : List Component) : List ViewObject :=
  cs.flatMap (viewObjectsOf input published)

theorem viewObjects_cons (input : Input) (published : Published) (c : Component)
    (cs : List Component) :
    viewObjects input published (c :: cs) =
      viewObjectsOf input published c ++ viewObjects input published cs :=
  List.flatMap_cons

/-! ### Definitions -/

theorem publicObjects_viewCodeOf (published : Published) (c : Component) (t : ComponentType) :
    (viewCodeOf published c t).publicObjects =
      (viewObject? published c t).toList.map ViewObject.definition := by
  unfold viewCodeOf viewObject?
  cases t.view with
  | none => rfl
  | some view => rfl

theorem ControllerBlock.publicObjects {c : Component} {t : ComponentType}
    (h : ControllerBlock ns p n c t code) : code.publicObjects = [] := by
  cases h with
  | none => rfl
  | some => rfl

theorem viewObject?_congr {c : Component} (t : ComponentType) (h : p.get? c.name = p'.get? c.name) :
    viewObject? p c t = viewObject? p' c t := by
  rw [viewObject?, viewObject?, replacements_congr h]

/-- The views are defined as they are filled in at the end.  A component that comes later has another name
and does not touch what an earlier one has published. -/
theorem Assembles.publicObjects (h : Assembles input ns cs p n p' code)
    (hnames : (cs.map (·.name)).Nodup) :
    code.publicObjects = (viewObjects input p' cs).map ViewObject.definition := by
  induction h with
  | done => rfl
  | @next c rest t p p' n block others ht hblock hrest ih =>
    rw [List.map_cons, List.nodup_cons] at hnames
    have hkept : (publishedBy ns p n c t).get? c.name = p'.get? c.name :=
      (hrest.get?_of_not_mem hnames.1).symm
    have hfirst : viewObjectsOf input p' c =
        (viewObject? (publishedBy ns p n c t) c t).toList := by
      rw [viewObjectsOf_eq ht, viewObject?_congr t hkept]
    rw [publicObjects_append, publicObjects_append, hblock.publicObjects, publicObjects_viewCodeOf,
      ih hnames.2, viewObjects_cons, hfirst, List.map_append, List.nil_append]

/-! ### Declarations -/

theorem headerView_of_ok {published : Published} {c : Component} {lines : List String × List String}
    (h : headerView input published c = .ok lines) :
    lines.2 = (viewObjectsOf input published c).map ViewObject.declaration := by
  unfold headerView at h
  rw [bind_eq_ok_iff] at h
  obtain ⟨t, ht, hlines⟩ := h
  rw [viewObjectsOf_eq ht, viewObject?]
  cases hview : t.view with
  | none =>
    simp only [hview] at hlines
    cases hlines
    rfl
  | some view =>
    simp only [hview] at hlines
    split at hlines
    · cases hlines
    · cases hlines
      rfl

theorem flatMap_headerView {published : Published} {views : List (List String × List String)}
    (h : cs.mapM (headerView input published) = .ok views) :
    views.flatMap (·.2) = (viewObjects input published cs).map ViewObject.declaration := by
  rw [flatMap_of_mapM_eq_ok (fun _ _ => headerView_of_ok) h, viewObjects, List.map_flatMap]

/-! ### Both -/

/-- **Header and source agree on views.**  When the first phases succeed, the source defines and the header
declares the same views in the same order, each with the same class and the same name. -/
theorem views_declared_as_defined {s s' : State}
    {prepared : List (Generator State Artifacts × Template.Replacements)}
    (hnames : (input.project.components.map (·.name)).Nodup)
    (h : (standardPipeline input).preparation s = (s', .ok prepared)) :
    ∃ o : Outputs, o.PreparedFrom input s s' ∧ prepared = o.paired input s' ∧
      ∃ views, views = viewObjects input s'.published input.project.components ∧
        o.source.get? "publicObjects" =
          some (Text.mergeLines (views.map ViewObject.definition) "") ∧
        o.header.get? "views" =
          some (Text.mergeLines (views.map ViewObject.declaration) "") := by
  obtain ⟨o, ho, hprepared⟩ := preparation_eq_ok_iff.1 h
  obtain ⟨layout, storage, published, code, _, _, hcode, hs', hsource⟩ :=
    prepareCore_eq_ok_iff.1 ho.source
  obtain ⟨views, libraries, hviews, _, hheader⟩ := headerOutput_eq_ok_iff.1 ho.header
  refine ⟨o, ho, hprepared, _, rfl, ?_, ?_⟩
  · rw [hsource, hs', ← hcode.publicObjects hnames]
    simp [coreOutput, Dict.ofList, Dict.get?_insert]
  · rw [hheader, ← flatMap_headerView hviews]
    simp [Dict.ofList, Dict.get?_insert]

/-- A project with two blinkers. -/
def twoBlinkers : Input :=
  { blinkerInput "250" with
    project :=
      { components :=
          [{ blinker "250" with name := "left" }, { blinker "500" with name := "right" }] } }

theorem views_of_twoBlinkers :
    (twoBlinkers.project.components.map (·.name)).Nodup ∧
      ∃ s' prepared, (standardPipeline twoBlinkers).preparation ⟨"acp", 0, [], .empty⟩
          = (s', .ok prepared) ∧
        ∃ o : Outputs, prepared = o.paired twoBlinkers s' ∧
          o.source.get? "publicObjects" =
            some "View<acp::controller_0> left;\nView<acp::controller_1> right;" ∧
          o.header.get? "views" =
            some "extern View<acp::controller_0> left;\nextern View<acp::controller_1> right;" := by
  have hnames : (twoBlinkers.project.components.map (·.name)).Nodup := by decide
  obtain ⟨prepared, h⟩ := exists_preparation (p := standardPipeline twoBlinkers)
    (s := ⟨"acp", 0, [], .empty⟩) (by decide +kernel)
  obtain ⟨o, -, hprepared, views, rfl, hsource, hheader⟩ := views_declared_as_defined hnames h
  refine ⟨hnames, _, prepared, h, o, hprepared, hsource.trans ?_, hheader.trans ?_⟩
  · decide +kernel
  · decide +kernel

end Boardwright.Generation
