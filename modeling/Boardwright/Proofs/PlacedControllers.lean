import Boardwright.Proofs.LooperNumbers

/-!
# Controllers in their places

The code of a component's controller is made while the components are walked over.  It depends on the
numbers that have been given out and on the values that have been published.  The numbers can be counted
from the components that come before.  When no two components have one name, a component finds nothing
published under its own name, so its code does not depend on what others publish.

* **`countsOf`**: how many objects of each sort components have.
* **`PlacedController`**: a component with a controller, and the counts before it.
* **`setupBlock`**, **`loopBlock`**: the lines of a controller in `setup` and `loop`.
* **`ForwardingFunction`**: a function that calls a wrapped method.
* **`placedControllers`**: the controllers of a project.
* **`Assembles.consistsOf`**: the code of a walk, controller by controller.
-/

namespace Boardwright.Generation

open Fallible

variable {input : Input} {ns : String} {c : Component} {t : ComponentType} {cs before : List Component}
  {p p' : Published} {n : Numbers} {code : Code}

/-! ### Counts -/

/-- What the type of a component has, if it has a controller. -/
def ofController {α : Type} (part : ComponentType → List α) (input : Input) (c : Component) : List α :=
  match input.componentType c with
  | .ok t => if t.controller.isSome then part t else []
  | .error _ => []

/-- The methods of a component that functions forward to: those of its type, if there is a controller to
call. -/
def wrappedMethods (input : Input) (c : Component) : List MethodWrapper :=
  ofController (·.methodWrappers) input c

theorem calledLoopers_eq_ofController (input : Input) :
    calledLoopers input = ofController (·.loopers) input := rfl

theorem ofController_eq {α : Type} (part : ComponentType → List α) (ht : input.componentType c = .ok t) :
    ofController part input c = if t.controller.isSome then part t else [] := by
  rw [ofController, ht]

/-- How many objects of each sort components have. -/
def countsOf (input : Input) (cs : List Component) : Numbers where
  controllers := cs.countP (hasController input)
  loopers := (cs.flatMap (calledLoopers input)).length
  wrappers := (cs.flatMap (wrappedMethods input)).length

theorem countsOf_concat (ht : input.componentType c = .ok t) :
    countsOf input (before ++ [c]) = (countsOf input before).next t := by
  rw [countsOf, List.countP_append, List.countP_singleton, hasController_eq ht, List.flatMap_append,
    List.flatMap_append, List.flatMap_singleton, List.flatMap_singleton, calledLoopers_eq ht,
    wrappedMethods, ofController_eq _ ht, List.length_append, List.length_append, Numbers.next]
  split
  · rfl
  · rfl

/-! ### The code of a controller -/

/-- The statement that hands a property's value to a controller, if the property is bound and has a
literal. -/
def propertyStatement (object : String) (c : Component) (p : Property) : List String :=
  match p.binding, propertyLiteral? c p with
  | some b, some v => [b.statement object v]
  | _, _ => []

theorem propertyLine_of_ok {object : String} {property : Property} {lines : List String}
    (h : propertyLine object c property = .ok lines) : lines = propertyStatement object c property := by
  unfold propertyLine at h
  unfold propertyStatement
  cases hbinding : property.binding with
  | none =>
    rw [hbinding] at h
    cases h
    rfl
  | some b =>
    cases hliteral : propertyLiteral? c property with
    | none =>
      simp only [hbinding, hliteral] at h
      cases h
    | some v =>
      simp only [hbinding, hliteral] at h
      cases h
      rfl

theorem propertyLines_of_ok {object : String} {lines : List String}
    (h : propertyLines object c t = .ok lines) :
    lines = t.properties.flatMap (propertyStatement object c) := by
  rw [propertyLines, bind_eq_ok_iff] at h
  obtain ⟨parts, hparts, hlines⟩ := h
  cases hlines
  rw [← List.flatMap_id', flatMap_of_mapM_eq_ok (fun _ _ => propertyLine_of_ok) hparts]

/-- What the templates of a component are filled with if nothing was published under its name before. -/
def ownReplacements (ns : String) (n : Numbers) (c : Component) (t : ComponentType) :
    Template.Replacements :=
  replacements (publishedBy ns .empty n c t) c t

/-- The lines of `setup` for the controller of a component. -/
def setupBlock (ns : String) (n : Numbers) (c : Component) (t : ComponentType) : List String :=
  match t.controller with
  | none => []
  | some controller =>
    let object := qualify ns (controllerName n.controllers)
    commented ("// Controller for " ++ c.name)
      (looperIdLines object n.loopers t.loopers ++ t.properties.flatMap (propertyStatement object c)
        ++ t.events.flatMap (eventLine object c)
        ++ wrapperLines ns object (namedWrappers n.wrappers t.methodWrappers) ++ viewLine object c t
        ++ callLine controller.init object (ownReplacements ns n c t))

/-- The lines of `loop` for the controller of a component. -/
def loopBlock (ns : String) (n : Numbers) (c : Component) (t : ComponentType) : List String :=
  match t.controller with
  | none => []
  | some controller =>
    callLine controller.loop (qualify ns (controllerName n.controllers)) (ownReplacements ns n c t)

/-- A function that calls a method of a controller. -/
structure ForwardingFunction where
  /-- Its name. -/
  name : String
  /-- The object whose method is called. -/
  object : String
  /-- The method, its parameters and its result. -/
  wrapper : MethodWrapper

namespace ForwardingFunction

/-- The head of the function. -/
def head (f : ForwardingFunction) : String :=
  f.wrapper.head f.name

/-- The call of the method, with all parameters of the function. -/
def call (f : ForwardingFunction) : String :=
  f.wrapper.call (f.object ++ "." ++ f.wrapper.method)

def declaration (f : ForwardingFunction) : String :=
  f.head ++ ";"

/-- The lines of the function, which returns what the method returns. -/
def lines (f : ForwardingFunction) : List String :=
  [f.head ++ " \x7b",
    Template.indent ++ (if f.wrapper.returnsValue then "return " else "") ++ f.call ++ ";",
    "\x7d", ""]

end ForwardingFunction

/-! ### Controllers of a project -/

/-- A component whose type has a controller, and how many objects there are before it. -/
structure PlacedController where
  /-- The component. -/
  component : Component
  /-- Its type. -/
  type : ComponentType
  /-- The controller of the type. -/
  controller : Instance
  type_controller : type.controller = some controller
  /-- The counts of the components before. -/
  counts : Numbers

namespace PlacedController

/-- The name of the object. -/
def name (x : PlacedController) : String :=
  controllerName x.counts.controllers

/-- The object with its namespace. -/
def object (x : PlacedController) (ns : String) : String :=
  qualify ns x.name

/-- The lines among the definitions of objects. -/
def objectLines (x : PlacedController) (ns : String) : List String :=
  ["// Controller for " ++ x.component.name,
    definition x.controller x.name (ownReplacements ns x.counts x.component x.type)]

/-- The functions that call methods of the controller. -/
def functions (x : PlacedController) (ns : String) : List ForwardingFunction :=
  (namedWrappers x.counts.wrappers x.type.methodWrappers).map fun w => ⟨w.1, x.object ns, w.2⟩

end PlacedController

/-- A component behind other components, if its type has a controller. -/
def placed? (input : Input) (before : List Component) (c : Component) : Option PlacedController :=
  match input.componentType c with
  | .error _ => none
  | .ok t =>
    match h : t.controller with
    | none => none
    | some controller => some ⟨c, t, controller, h, countsOf input before⟩

/-- The controllers of components behind other components. -/
def placedFrom (input : Input) (before : List Component) : List Component → List PlacedController
  | [] => []
  | c :: rest => (placed? input before c).toList ++ placedFrom input (before ++ [c]) rest

/-- The controllers of a project. -/
def placedControllers (input : Input) : List PlacedController :=
  placedFrom input [] input.project.components

theorem placed?_of_none (ht : input.componentType c = .ok t) (hnone : t.controller = none)
    (before : List Component) : placed? input before c = none := by
  unfold placed?
  rw [ht]
  simp only
  split
  · rfl
  · next hsome =>
    rw [hnone] at hsome
    cases hsome

theorem placed?_of_some {controller : Instance} (ht : input.componentType c = .ok t)
    (hsome : t.controller = some controller) (before : List Component) :
    placed? input before c = some ⟨c, t, controller, hsome, countsOf input before⟩ := by
  unfold placed?
  rw [ht]
  simp only
  split
  · next hnone =>
    rw [hsome] at hnone
    cases hnone
  · next h =>
    cases hsome.symm.trans h
    rfl

/-- A component is passed over exactly if its type has no controller. -/
theorem placed?_cases (input : Input) (before : List Component) (c : Component) :
    placed? input before c = none ∧ hasController input c = false ∨
      ∃ x, placed? input before c = some x ∧ x.component = c ∧ input.componentType c = .ok x.type ∧
        x.counts = countsOf input before := by
  cases ht : input.componentType c with
  | error f => exact .inl ⟨by rw [placed?, ht], by rw [hasController, ht]⟩
  | ok t =>
    cases hcontroller : t.controller with
    | none => exact .inl ⟨placed?_of_none ht hcontroller before,
        by rw [hasController_eq ht, hcontroller]; rfl⟩
    | some controller => exact .inr ⟨_, placed?_of_some ht hcontroller before, rfl, rfl, rfl⟩

theorem hasController_of_placed {x : PlacedController} (ht : input.componentType c = .ok x.type) :
    hasController input c = true := by
  rw [hasController_eq ht, x.type_controller]
  rfl

section Parts

variable {α : Type} (part : ComponentType → List α)

theorem ofController_of_placed {x : PlacedController} (ht : input.componentType c = .ok x.type) :
    ofController part input c = part x.type := by
  rw [ofController_eq part ht, x.type_controller]
  rfl

theorem ofController_of_false (h : hasController input c = false) : ofController part input c = [] := by
  unfold hasController at h
  unfold ofController
  split
  · next t ht =>
    rw [ht] at h
    rw [if_neg (ne_true_of_eq_false h)]
  · rfl

theorem flatMap_placedFrom (input : Input) (before cs : List Component) :
    (placedFrom input before cs).flatMap (fun x => part x.type) =
      cs.flatMap (ofController part input) := by
  induction cs generalizing before with
  | nil => rfl
  | cons c rest ih =>
    rw [placedFrom, List.flatMap_append, ih, List.flatMap_cons]
    congr 1
    obtain ⟨hplaced, hc⟩ | ⟨x, hplaced, -, ht, -⟩ := placed?_cases input before c
    · rw [hplaced, ofController_of_false part hc]
      rfl
    · rw [hplaced, ofController_of_placed part ht, Option.toList_some, List.flatMap_singleton]

end Parts

theorem map_component_placedFrom (input : Input) (before cs : List Component) :
    (placedFrom input before cs).map (·.component) = cs.filter (hasController input) := by
  induction cs generalizing before with
  | nil => rfl
  | cons c rest ih =>
    rw [placedFrom, List.map_append, ih, List.filter_cons]
    obtain ⟨hplaced, hc⟩ | ⟨x, hplaced, rfl, ht, -⟩ := placed?_cases input before c
    · rw [hplaced, if_neg (ne_true_of_eq_false hc)]
      rfl
    · rw [hplaced, if_pos (hasController_of_placed ht)]
      rfl

/-- The place of a controller in a project. -/
theorem exists_of_mem_placedFrom {x : PlacedController} (h : x ∈ placedFrom input before cs) :
    ∃ earlier later, cs = earlier ++ x.component :: later ∧ input.componentType x.component = .ok x.type ∧
      x.counts = countsOf input (before ++ earlier) := by
  induction cs generalizing before with
  | nil => cases h
  | cons c rest ih =>
    rw [placedFrom, List.mem_append] at h
    rcases h with h | h
    · obtain ⟨hplaced, -⟩ | ⟨y, hplaced, rfl, ht, hcounts⟩ := placed?_cases input before c
      · rw [hplaced] at h
        cases h
      · rw [hplaced, Option.toList_some, List.mem_singleton] at h
        subst h
        refine ⟨[], rest, rfl, ht, ?_⟩
        rw [List.append_nil, hcounts]
    · obtain ⟨earlier, later, rfl, ht, hcounts⟩ := ih h
      refine ⟨c :: earlier, later, rfl, ht, ?_⟩
      rw [hcounts, List.append_assoc]
      rfl

/-- Numbers that are given out one after the other are consecutive: those of each controller begin where
those of the controllers before end. -/
theorem flatMap_range'_placedFrom {numbers : PlacedController → List ℕ} (total : List Component → ℕ)
    (htotal : ∀ l m, total (l ++ m) = total l + total m)
    (hnumbers : ∀ before c,
      (placed? input before c).toList.flatMap numbers = List.range' (total before) (total [c]))
    (before cs : List Component) :
    (placedFrom input before cs).flatMap numbers = List.range' (total before) (total cs) := by
  induction cs generalizing before with
  | nil =>
    have hzero : total [] = 0 := by
      have h := htotal [] []
      rw [List.append_nil] at h
      omega
    rw [hzero]
    rfl
  | cons c rest ih =>
    rw [placedFrom, List.flatMap_append, hnumbers, ih, htotal, List.range'_append_1, ← htotal]
    rfl

/-! ### Values of other components -/

theorem Published.get?_put_congr {name : String} (h : p.get? name = p'.get? name) (key value : String) :
    (p.put name key value).get? name = (p'.put name key value).get? name := by
  rw [Published.put, Published.put, Dict.get?_insert_self, Dict.get?_insert_self, h]

theorem get?_publishWrappers_congr {name : String} (ws : List (String × MethodWrapper))
    (h : p.get? name = p'.get? name) :
    (publishWrappers ns name p ws).get? name = (publishWrappers ns name p' ws).get? name := by
  unfold publishWrappers
  induction ws generalizing p p' with
  | nil => exact h
  | cons w rest ih =>
    rw [List.foldl_cons, List.foldl_cons]
    apply ih
    cases publishedName? w.2 with
    | none => exact h
    | some key => exact Published.get?_put_congr h key _

/-- What a component publishes depends on what was published under its own name only. -/
theorem get?_publishedBy_congr (n : Numbers) (t : ComponentType) (h : p.get? c.name = p'.get? c.name) :
    (publishedBy ns p n c t).get? c.name = (publishedBy ns p' n c t).get? c.name := by
  unfold publishedBy
  split
  · exact get?_publishWrappers_congr _ (Published.get?_put_congr h _ _)
  · exact h

theorem replacements_publishedBy (n : Numbers) (t : ComponentType) (h : p.get? c.name = none) :
    replacements (publishedBy ns p n c t) c t = ownReplacements ns n c t :=
  replacements_congr (get?_publishedBy_congr n t h)

/-- A component publishes nothing for components with other names. -/
theorem get?_publishedBy_eq_none (hp : ∀ d ∈ cs, p.get? d.name = none) (hc : c.name ∉ cs.map (·.name))
    (n : Numbers) (t : ComponentType) : ∀ d ∈ cs, (publishedBy ns p n c t).get? d.name = none := by
  intro d hd
  have hne : d.name ≠ c.name := by
    intro hname
    exact hc (List.mem_map.2 ⟨d, hd, hname⟩)
  rw [get?_publishedBy_of_ne hne, hp d hd]

/-! ### The code of a walk -/

/-- Code that is made of the code of controllers. -/
structure Code.ConsistsOf (code : Code) (ns : String) (placed : List PlacedController) : Prop where
  privateObjects : code.privateObjects = placed.flatMap (·.objectLines ns)
  setup : code.setup = placed.flatMap fun x => setupBlock ns x.counts x.component x.type
  loop : code.loop = placed.flatMap fun x => loopBlock ns x.counts x.component x.type
  loopers : code.loopers.length = (placed.flatMap (·.type.loopers)).length
  wrapperDeclarations :
    code.wrapperDeclarations = (placed.flatMap (·.functions ns)).map ForwardingFunction.declaration
  wrapperDefinitions : code.wrapperDefinitions =
    (placed.flatMap (·.functions ns)).flatMap ForwardingFunction.lines

theorem Code.ConsistsOf.append {code' : Code} {placed placed' : List PlacedController}
    (h : code.ConsistsOf ns placed) (h' : code'.ConsistsOf ns placed') :
    (code ++ code').ConsistsOf ns (placed ++ placed') := by
  constructor
  · rw [List.flatMap_append, ← h.privateObjects, ← h'.privateObjects]
    rfl
  · rw [List.flatMap_append, ← h.setup, ← h'.setup]
    rfl
  · rw [List.flatMap_append, ← h.loop, ← h'.loop]
    rfl
  · rw [List.flatMap_append, List.length_append, ← h.loopers, ← h'.loopers, ← List.length_append]
    rfl
  · rw [List.flatMap_append, List.map_append, ← h.wrapperDeclarations, ← h'.wrapperDeclarations]
    rfl
  · rw [List.flatMap_append, List.flatMap_append, ← h.wrapperDefinitions, ← h'.wrapperDefinitions]
    rfl

theorem consistsOf_empty (ns : String) : ({} : Code).ConsistsOf ns [] :=
  ⟨rfl, rfl, rfl, rfl, rfl, rfl⟩

theorem consistsOf_viewCodeOf (ns : String) (published : Published) (c : Component) (t : ComponentType) :
    (viewCodeOf published c t).ConsistsOf ns [] := by
  rw [viewCodeOf]
  cases t.view with
  | none => exact consistsOf_empty ns
  | some view => exact ⟨rfl, rfl, rfl, rfl, rfl, rfl⟩

theorem wrapperDefinition_eq (object name : String) (w : MethodWrapper) :
    wrapperDefinition object name w = (⟨name, object, w⟩ : ForwardingFunction).lines := by
  unfold wrapperDefinition ForwardingFunction.lines
  cases w.returnsValue with
  | false => simp [ForwardingFunction.head, ForwardingFunction.call, String.append_assoc]
  | true => simp [ForwardingFunction.head, ForwardingFunction.call, String.append_assoc]

/-- The code of one controller. -/
theorem ControllerBlock.consistsOf (h : ControllerBlock ns (publishedBy ns p (countsOf input before) c t)
    (countsOf input before) c t code) (ht : input.componentType c = .ok t) (hp : p.get? c.name = .none) :
    code.ConsistsOf ns (placed? input before c).toList := by
  cases h with
  | none hnone =>
    rw [placed?_of_none ht hnone]
    exact consistsOf_empty ns
  | @some controller records values hsome hrecords hvalues =>
    have hloopers : records.length = t.loopers.length := length_of_mapM_eq_ok hrecords
    rw [placed?_of_some ht hsome, propertyLines_of_ok hvalues, controllerBlock,
      replacements_publishedBy _ t hp]
    constructor
    · simp only [Option.toList_some, List.flatMap_singleton]
      rfl
    · simp only [Option.toList_some, List.flatMap_singleton, setupBlock, hsome]
    · simp only [Option.toList_some, List.flatMap_singleton, loopBlock, hsome]
    · simp only [Option.toList_some, List.flatMap_singleton, hloopers]
    · simp only [Option.toList_some, List.flatMap_singleton, PlacedController.functions, List.map_map]
      rfl
    · simp only [Option.toList_some, List.flatMap_singleton, PlacedController.functions, List.flatMap_map,
        ← wrapperDefinition_eq]
      rfl

/-- The code of a walk is that of its controllers, if nothing was published under the names of the
components before and no two of them have one name. -/
theorem Assembles.consistsOf (h : Assembles input ns cs p n p' code) (hn : n = countsOf input before)
    (hp : ∀ c ∈ cs, p.get? c.name = none) (hnames : (cs.map (·.name)).Nodup) :
    code.ConsistsOf ns (placedFrom input before cs) := by
  induction h generalizing before with
  | done => exact consistsOf_empty ns
  | @next c rest t p p' n block others ht hblock _ ih =>
    subst hn
    obtain ⟨hc, hrest⟩ := List.forall_mem_cons.1 hp
    rw [List.map_cons, List.nodup_cons] at hnames
    have hfirst := hblock.consistsOf ht hc
    have hview := consistsOf_viewCodeOf ns (publishedBy ns p (countsOf input before) c t) c t
    have hothers := ih (countsOf_concat ht).symm (get?_publishedBy_eq_none hrest hnames.1 _ t) hnames.2
    have hall := (hfirst.append hview).append hothers
    rwa [List.append_nil] at hall

/-- The code of the components of a project is that of its controllers. -/
theorem Assembles.consistsOf_placedControllers
    (h : Assembles input ns input.project.components .empty {} p' code)
    (hnames : (input.project.components.map (·.name)).Nodup) :
    code.ConsistsOf ns (placedControllers input) := by
  have hstart : ({} : Numbers) = countsOf input [] := rfl
  exact h.consistsOf hstart (fun _ _ => rfl) hnames

end Boardwright.Generation
