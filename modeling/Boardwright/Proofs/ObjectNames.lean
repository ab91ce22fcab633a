import Boardwright.Proofs.Declarations
import Boardwright.Proofs.Dict
import Boardwright.Proofs.PlacedControllers

/-!
# Names of generated objects

The source defines controllers and functions that forward to them, and templates may refer to both by
published values.  All these names are made from numbers that are handed on from component to component.
Here they are compared with the project: which controllers and functions there are, that no name is
given twice, and whose names a component publishes.

* **`map_name_placedControllers`**, **`map_name_functions`**: the names are numbered without gaps.
* **`nodup_names`**: no name is given twice.
* **`PlacedController.publications`**: what a component publishes.
* **`Assembles.get?_placed`**, **`Assembles.get?_of_not_controller`**: what is published in the end.
* **`ObjectsNamed`**, **`objectsNamed_of_prepareCore`**: the names in the source and among the published
  values.
-/

namespace Boardwright.Generation

variable {input : Input} {ns : String} {cs before : List Component}
  {p p' : Published} {n : Numbers} {code : Code}

/-! ### Numbered names -/

theorem append_toString_injective (lead : String) :
    Function.Injective fun i : ℕ => lead ++ toString i := by
  intro i j h
  have hlist := congrArg String.toList h
  simp only [String.toList_append, List.append_cancel_left_eq] at hlist
  exact Storage.toDigits_inj (by simpa using hlist)

theorem controllerName_injective : Function.Injective controllerName :=
  append_toString_injective "controller_"

theorem wrapperName_injective : Function.Injective wrapperName :=
  append_toString_injective "method_wrapper_"

theorem controllerName_ne_wrapperName (i j : ℕ) : controllerName i ≠ wrapperName j := by
  intro h
  -- their first letters differ
  have hlist : "controller_".toList ++ (toString i).toList =
      "method_wrapper_".toList ++ (toString j).toList := by
    rw [← String.toList_append, ← String.toList_append]
    exact congrArg String.toList h
  exact absurd (List.cons.inj hlist).1 (by decide)

theorem map_fst_namedWrappers (i : ℕ) (ws : List MethodWrapper) :
    (namedWrappers i ws).map (·.1) = (List.range' i ws.length).map wrapperName := by
  induction ws generalizing i with
  | nil => rfl
  | cons w rest ih =>
    rw [namedWrappers, List.map_cons, ih, List.length_cons, List.range'_succ, List.map_cons]

theorem map_name_placedControllers (input : Input) :
    (placedControllers input).map (·.name) =
      (List.range (input.project.components.countP (hasController input))).map controllerName := by
  have hnumbers : (placedControllers input).flatMap (fun x => [x.counts.controllers]) =
      List.range' 0 (input.project.components.countP (hasController input)) := by
    refine flatMap_range'_placedFrom (List.countP (hasController input))
      (fun _ _ => List.countP_append) ?_ []
      input.project.components
    intro before c
    obtain ⟨hplaced, hc⟩ | ⟨x, hplaced, -, ht, hcounts⟩ := placed?_cases input before c
    · rw [hplaced, List.countP_singleton, hc]
      rfl
    · rw [hplaced, List.countP_singleton, hasController_of_placed ht, Option.toList_some,
        List.flatMap_singleton, hcounts]
      rfl
  rw [List.range_eq_range', ← hnumbers, ← List.map_eq_flatMap, List.map_map]
  rfl

theorem PlacedController.map_name_functions (x : PlacedController) (ns : String) :
    (x.functions ns).map (·.name) =
      (List.range' x.counts.wrappers x.type.methodWrappers.length).map wrapperName := by
  rw [PlacedController.functions, List.map_map, ← map_fst_namedWrappers]
  rfl

theorem map_name_functions (input : Input) (ns : String) :
    ((placedControllers input).flatMap (·.functions ns)).map (·.name) =
      (List.range (input.project.components.flatMap (wrappedMethods input)).length).map wrapperName := by
  have hnumbers : (placedControllers input).flatMap
      (fun x => List.range' x.counts.wrappers x.type.methodWrappers.length) =
        List.range' 0 (input.project.components.flatMap (wrappedMethods input)).length := by
    refine flatMap_range'_placedFrom (fun l => (l.flatMap (wrappedMethods input)).length) ?_ ?_ []
      input.project.components
    · intro l m
      rw [List.flatMap_append, List.length_append]
    · intro before c
      rw [List.flatMap_singleton]
      obtain ⟨hplaced, hc⟩ | ⟨x, hplaced, -, ht, hcounts⟩ := placed?_cases input before c
      · rw [hplaced, wrappedMethods, ofController_of_false _ hc]
        rfl
      · rw [hplaced, wrappedMethods, ofController_of_placed _ ht, Option.toList_some,
          List.flatMap_singleton, hcounts]
        rfl
  rw [List.range_eq_range', ← hnumbers, List.map_flatMap, List.map_flatMap]
  simp only [PlacedController.map_name_functions]

/-- No name is given twice, neither to two objects of one sort nor to a controller and a function. -/
theorem nodup_names (input : Input) (ns : String) :
    ((placedControllers input).map (·.name) ++
      ((placedControllers input).flatMap (·.functions ns)).map (·.name)).Nodup := by
  rw [map_name_placedControllers, map_name_functions, List.nodup_append]
  refine ⟨List.nodup_range.map controllerName_injective, List.nodup_range.map wrapperName_injective, ?_⟩
  intro a ha b hb
  obtain ⟨i, -, rfl⟩ := List.mem_map.1 ha
  obtain ⟨j, -, rfl⟩ := List.mem_map.1 hb
  exact controllerName_ne_wrapperName i j

/-! ### Texts -/

namespace ForwardingFunction

/-- The type of the result.  It is `void` if none was given. -/
def resultType (f : ForwardingFunction) : String :=
  ((f.wrapper.result.map Text.trim).filter (· ≠ "")).getD "void"

/-- The types and the names of the parameters.  One that was given no name has one by its position. -/
def arguments (f : ForwardingFunction) : List (String × String) :=
  f.wrapper.parameters.zipIdx.map fun x => (x.1.type, x.1.name.getD ("arg" ++ toString x.2))

/-- The head as text: the result, the name and the parameters. -/
def headText (f : ForwardingFunction) : String :=
  f.resultType ++ " " ++ f.name ++ "("
    ++ ", ".intercalate (f.arguments.map fun x => x.1 ++ " " ++ x.2) ++ ")"

/-- The body as text: the call of the method of an object with all arguments. -/
def bodyText (f : ForwardingFunction) (object : String) : String :=
  (if f.resultType = "void" then "" else "return ") ++ object ++ "." ++ f.wrapper.method ++ "("
    ++ ", ".intercalate (f.arguments.map (·.2)) ++ ");"

theorem resultName_eq (f : ForwardingFunction) : resultName f.wrapper.result = f.resultType := by
  unfold resultName resultType
  cases f.wrapper.result with
  | none => rfl
  | some r =>
    by_cases hblank : Text.trim r = ""
    · simp [Option.filter, hblank]
    · simp [Option.filter, hblank]

theorem returnsValue_iff (f : ForwardingFunction) :
    f.wrapper.returnsValue = true ↔ f.resultType ≠ "void" := by
  unfold MethodWrapper.returnsValue resultType
  cases f.wrapper.result with
  | none => simp
  | some r =>
    by_cases hblank : Text.trim r = ""
    · simp [Option.filter, hblank]
    · simp [Option.filter, hblank]

theorem head_eq (f : ForwardingFunction) : f.head = f.headText := by
  rw [head, MethodWrapper.head, signature, headText, ← resultName_eq, if_pos rfl, namedParameters_eq,
    arguments, List.map_map]
  simp only [Parameter.nameAt_eq, Function.comp_def]

theorem declaration_eq (f : ForwardingFunction) : f.declaration = f.headText ++ ";" := by
  rw [declaration, head_eq]

theorem lines_eq (f : ForwardingFunction) :
    f.lines = [f.headText ++ " \x7b", Template.indent ++ f.bodyText f.object, "\x7d", ""] := by
  have hnames : parameterNames f.wrapper.parameters = f.arguments.map (·.2) := by
    rw [parameterNames, parameterNamesFrom_eq, arguments, List.map_map]
    simp only [Parameter.nameAt_eq, Function.comp_def]
  rw [lines, head_eq, call, MethodWrapper.call, hnames, bodyText]
  by_cases hvoid : f.resultType = "void"
  · rw [if_neg (by simp [returnsValue_iff, hvoid]), if_pos hvoid]
    simp [String.append_assoc]
  · rw [if_pos ((returnsValue_iff f).2 hvoid), if_neg hvoid]
    simp [String.append_assoc]

end ForwardingFunction

/-- The definition of a controller as text: its class, its name and the arguments of its constructor,
where templates are filled with the literals of properties and with what the component publishes. -/
def PlacedController.objectText (x : PlacedController) (ns : String) : String :=
  let filled := fun template =>
    Text.trim (Template.fill template (ownReplacements ns x.counts x.component x.type))
  filled x.controller.classType ++ " " ++ x.name
    ++ (x.controller.constructor.map fun arguments => "(" ++ filled arguments ++ ")").getD "" ++ ";"

theorem PlacedController.objectLines_eq (x : PlacedController) (ns : String) :
    x.objectLines ns = ["// Controller for " ++ x.component.name, x.objectText ns] := by
  rw [objectLines, definition, constructorArguments, objectText]
  cases x.controller.constructor with
  | none => rfl
  | some arguments => rfl

/-! ### Published values -/

/-- The entry under which a function is published, if it has a name for that. -/
def ForwardingFunction.publication? (ns : String) (f : ForwardingFunction) : Option (String × String) :=
  (publishedName? f.wrapper).map fun key => (key, qualify ns f.name)

namespace PlacedController

/-- What a component publishes, in this order: its object, and those of its functions that have a name
for that. -/
def publications (x : PlacedController) (ns : String) : List (String × String) :=
  ("controller", x.object ns) :: (x.functions ns).filterMap (·.publication? ns)

/-- Everything that a component publishes is the name of its object or of one of its functions. -/
theorem eq_of_mem_publications {x : PlacedController} {key value : String}
    (h : (key, value) ∈ x.publications ns) :
    value = x.object ns ∨ ∃ f ∈ x.functions ns, value = qualify ns f.name := by
  rcases List.mem_cons.1 h with hobject | hfunction
  · cases hobject
    exact .inl rfl
  · obtain ⟨f, hf, hpublication⟩ := List.mem_filterMap.1 hfunction
    obtain ⟨_, -, hentry⟩ := Option.map_eq_some_iff.1 hpublication
    cases hentry
    exact .inr ⟨f, hf, rfl⟩

end PlacedController

theorem get?_publishWrappers_self {name object : String} {values : Dict String}
    (hp : p.get? name = some values) (ws : List (String × MethodWrapper)) :
    (publishWrappers ns name p ws).get? name =
      some (((ws.map fun w => (⟨w.1, object, w.2⟩ : ForwardingFunction)).filterMap
        (·.publication? ns)).foldl (fun d e => d.insert e.1 e.2) values) := by
  unfold publishWrappers
  induction ws generalizing p values with
  | nil => exact hp
  | cons w rest ih =>
    rw [List.foldl_cons, List.map_cons]
    cases hkey : publishedName? w.2 with
    | none =>
      rw [List.filterMap_cons_none
        (by simp only [ForwardingFunction.publication?, hkey, Option.map_none])]
      exact ih hp
    | some key =>
      rw [List.filterMap_cons_some (b := (key, qualify ns w.1))
        (by simp only [ForwardingFunction.publication?, hkey, Option.map_some]), List.foldl_cons]
      apply ih
      show (p.put name key (qualify ns w.1)).get? name = _
      rw [Published.put, Dict.get?_insert_self, hp]
      rfl

theorem get?_publishedBy_self {x : PlacedController} (hp : p.get? x.component.name = none) :
    (publishedBy ns p x.counts x.component x.type).get? x.component.name =
      some (Dict.ofList (x.publications ns)) := by
  unfold publishedBy
  rw [x.type_controller, if_pos (by rfl)]
  apply get?_publishWrappers_self
  rw [Published.put, Dict.get?_insert_self, hp]
  rfl

/-- The values that a component has published are there in the end. -/
theorem Assembles.get?_placed (h : Assembles input ns cs p n p' code) (hn : n = countsOf input before)
    (hp : ∀ c ∈ cs, p.get? c.name = none) (hnames : (cs.map (·.name)).Nodup) :
    ∀ x ∈ placedFrom input before cs,
      p'.get? x.component.name = some (Dict.ofList (x.publications ns)) := by
  induction h generalizing before with
  | done =>
    intro x hx
    cases hx
  | @next c rest t p p' n block others ht _ hothers ih =>
    subst hn
    obtain ⟨hc, hrest⟩ := List.forall_mem_cons.1 hp
    rw [List.map_cons, List.nodup_cons] at hnames
    intro x hx
    rw [placedFrom, List.mem_append] at hx
    rcases hx with hx | hx
    · -- the components behind do not touch what is published under the name of the first one
      obtain ⟨hplaced, -⟩ | ⟨y, hplaced, rfl, hy, hcounts⟩ := placed?_cases input before c
      · rw [hplaced] at hx
        cases hx
      · rw [hplaced, Option.toList_some, List.mem_singleton] at hx
        subst hx
        cases ht.symm.trans hy
        rw [hothers.get?_of_not_mem hnames.1, ← hcounts, get?_publishedBy_self hc]
    · exact ih (countsOf_concat ht).symm (get?_publishedBy_eq_none hrest hnames.1 _ t) hnames.2 x hx

/-- Only components with a controller publish something. -/
theorem Assembles.get?_of_not_controller (h : Assembles input ns cs p n p' code) {name : String}
    (hname : name ∉ (cs.filter (hasController input)).map (·.name)) : p'.get? name = p.get? name := by
  induction h with
  | done => rfl
  | @next c rest t p p' n block others ht _ _ ih =>
    rw [List.filter_cons, hasController_eq ht] at hname
    split at hname
    · rw [List.map_cons, List.mem_cons, not_or] at hname
      rw [ih hname.2, get?_publishedBy_of_ne hname.1]
    · next hnone => rw [ih hname, publishedBy, if_neg hnone]

/-! ### The source -/

/-- The objects of a project are named in its source and among the published values. -/
structure ObjectsNamed (input : Input) (ns : String) (placed : List PlacedController) (output : Output)
    (published : Published) : Prop where
  /-- There is one controller for each component whose type has one, in the order of the project. -/
  components : placed.map (·.component) = input.project.components.filter (hasController input)
  types : ∀ x ∈ placed, input.componentType x.component = .ok x.type
  /-- The controllers are numbered from 0 on. -/
  names : placed.map (·.name) =
    (List.range (input.project.components.countP (hasController input))).map fun i =>
      "controller_" ++ toString i
  /-- There is one function for each wrapped method of a component. -/
  functions : ∀ x ∈ placed, (x.functions ns).map (·.wrapper) = x.type.methodWrappers
  /-- The functions are numbered from 0 on. -/
  functionNames : (placed.flatMap (·.functions ns)).map (·.name) =
    (List.range (input.project.components.flatMap (wrappedMethods input)).length).map fun i =>
      "method_wrapper_" ++ toString i
  nodup : (placed.map (·.name) ++ (placed.flatMap (·.functions ns)).map (·.name)).Nodup
  privateObjects : output.get? "privateObjects" = some (Text.mergeLines
    (placed.flatMap fun x => ["// Controller for " ++ x.component.name, x.objectText ns]) Template.indent)
  declarations : output.get? "methodWrapperDeclarations" = some (Text.mergeLines
    ((placed.flatMap (·.functions ns)).map fun f => f.headText ++ ";") Template.indent)
  /-- Each function calls the controller of its own component. -/
  definitions : output.get? "methodWrappersSection" = some (Text.mergeLines
    (placed.flatMap fun x => (x.functions ns).flatMap fun f =>
      [f.headText ++ " \x7b", Template.indent ++ f.bodyText (ns ++ "::" ++ x.name), "\x7d", ""]) "")
  /-- Each controller and each function with a name for that is published for its own component. -/
  publications : ∀ x ∈ placed, published.get? x.component.name = some (Dict.ofList (x.publications ns))
  /-- Nothing else is published. -/
  closed : ∀ name values key value, published.get? name = some values → values.get? key = some value →
    ∃ x ∈ placed, x.component.name = name ∧
      (value = ns ++ "::" ++ x.name ∨ ∃ f ∈ x.functions ns, value = ns ++ "::" ++ f.name)

theorem map_wrapper_functions (x : PlacedController) (ns : String) :
    (x.functions ns).map (·.wrapper) = x.type.methodWrappers := by
  rw [PlacedController.functions, List.map_map]
  generalize x.counts.wrappers = i
  induction x.type.methodWrappers generalizing i with
  | nil => rfl
  | cons w rest ih =>
    rw [namedWrappers, List.map_cons, ih]
    rfl

theorem object_of_mem_functions {x : PlacedController} {f : ForwardingFunction}
    (hf : f ∈ x.functions ns) : f.object = x.object ns := by
  obtain ⟨w, -, rfl⟩ := List.mem_map.1 hf
  rfl

/-- The definitions of the functions, each with the controller that it calls. -/
theorem flatMap_lines_functions (placed : List PlacedController) (ns : String) :
    (placed.flatMap (·.functions ns)).flatMap (·.lines) =
      placed.flatMap fun x => (x.functions ns).flatMap fun f =>
        [f.headText ++ " \x7b", Template.indent ++ f.bodyText (ns ++ "::" ++ x.name), "\x7d", ""] := by
  rw [List.flatMap_assoc]
  refine List.flatMap_congr fun x _ => List.flatMap_congr fun f hf => ?_
  rw [f.lines_eq, object_of_mem_functions hf]
  rfl

/-- **Names are given once and stay with their component.**  When no two components have one name, the
objects that the source defines are numbered without gaps, and what is published for a component names
its own objects only. -/
theorem objectsNamed_of_prepareCore {s s' : State} {output : Output}
    (hnames : (input.project.components.map (·.name)).Nodup)
    (h : prepareCore input s = (s', .ok output)) :
    ObjectsNamed input s.privateNamespace (placedControllers input) output s'.published := by
  obtain ⟨layout, storage, published, code, -, -, hcode, rfl, rfl⟩ := prepareCore_eq_ok_iff.1 h
  have hstart : ({} : Numbers) = countsOf input [] := rfl
  have hcomponents := map_component_placedFrom input [] input.project.components
  have hconsists := hcode.consistsOf_placedControllers hnames
  have hpublished := hcode.get?_placed hstart (fun _ _ => rfl) hnames
  constructor
  case components => exact hcomponents
  case types =>
    intro x hx
    obtain ⟨_, _, _, ht, -⟩ := exists_of_mem_placedFrom hx
    exact ht
  case names => exact map_name_placedControllers input
  case functions => exact fun x _ => map_wrapper_functions x _
  case functionNames => exact map_name_functions input _
  case nodup => exact nodup_names input _
  case privateObjects =>
    simp only [← PlacedController.objectLines_eq, ← hconsists.privateObjects]
    simp [coreOutput, Dict.ofList, Dict.get?_insert]
  case declarations =>
    simp only [← ForwardingFunction.declaration_eq, ← hconsists.wrapperDeclarations]
    simp [coreOutput, Dict.ofList, Dict.get?_insert]
  case definitions =>
    rw [← flatMap_lines_functions, ← hconsists.wrapperDefinitions]
    simp [coreOutput, Dict.ofList, Dict.get?_insert]
  case publications => exact hpublished
  case closed =>
    intro name values key value hvalues hvalue
    by_cases hname : name ∈ (input.project.components.filter (hasController input)).map (·.name)
    · rw [← hcomponents, List.map_map] at hname
      obtain ⟨x, hx, rfl⟩ := List.mem_map.1 hname
      cases (hpublished x hx).symm.trans hvalues
      exact ⟨x, hx, rfl, PlacedController.eq_of_mem_publications (Dict.mem_of_get?_ofList hvalue)⟩
    · have hnone := hcode.get?_of_not_controller hname
      cases hnone.symm.trans hvalues

/-- A type with two wrapped methods, one of which is published in place of the controller. -/
def knobType : ComponentType where
  controller := some { classType := "Knob", constructor := some "$turned" }
  methodWrappers :=
    [{ method := "turn", parameters := [⟨"int", some "by"⟩], publishedAs := some "turned" },
     { method := "angle", result := some "int", publishedAs := some "controller" }]

/-- A type with a wrapped method, but without a controller to call. -/
def dialType : ComponentType where
  methodWrappers := [{ method := "redraw" }]

/-- A project with a dial between two knobs. -/
def knobs : Input :=
  { blinkerInput "250" with
    project :=
      { components := [{ type := "m.knob", name := "volume" }, { type := "m.dial", name := "dial" },
          { type := "m.knob", name := "bass" }] }
    modules :=
      (Dict.empty.insert "m.dial" ⟨"m.dial", ⟨"m/dial"⟩, [], [], .componentType dialType⟩).insert
        "m.knob" ⟨"m.knob", ⟨"m/knob"⟩, [], [], .componentType knobType⟩ }

theorem objectsNamed_knobs :
    (knobs.project.components.map (·.name)).Nodup ∧
      ∃ s' output, prepareCore knobs ⟨"acp", 0, [], .empty⟩ = (s', .ok output) ∧
        ObjectsNamed knobs "acp" (placedControllers knobs) output s'.published ∧
        output.get? "privateObjects" = some (Text.mergeLines
          ["// Controller for volume", "Knob controller_0(acp::method_wrapper_0);",
            "// Controller for bass", "Knob controller_1(acp::method_wrapper_2);"] "  ") ∧
        output.get? "methodWrapperDeclarations" = some (Text.mergeLines
          ["void method_wrapper_0(int by);", "int method_wrapper_1();", "void method_wrapper_2(int by);",
            "int method_wrapper_3();"] "  ") ∧
        output.get? "methodWrappersSection" = some (Text.mergeLines
          ["void method_wrapper_0(int by) \x7b", "  acp::controller_0.turn(by);", "\x7d", "",
            "int method_wrapper_1() \x7b", "  return acp::controller_0.angle();", "\x7d", "",
            "void method_wrapper_2(int by) \x7b", "  acp::controller_1.turn(by);", "\x7d", "",
            "int method_wrapper_3() \x7b", "  return acp::controller_1.angle();", "\x7d", ""] "") ∧
        s'.published.get? "bass" = some (Dict.ofList
          [("controller", "acp::method_wrapper_3"), ("turned", "acp::method_wrapper_2")]) := by
  have hnames : (knobs.project.components.map (·.name)).Nodup := by decide
  have hready : (prepareCore knobs ⟨"acp", 0, [], .empty⟩).2.toOption.isSome = true := by decide +kernel
  obtain ⟨output, h⟩ := exists_ok hready
  have hnamed := objectsNamed_of_prepareCore hnames h
  refine ⟨hnames, _, output, h, hnamed, ?_, ?_, ?_, ?_⟩
  · rw [hnamed.privateObjects]
    decide +kernel
  · rw [hnamed.declarations]
    decide +kernel
  · rw [hnamed.definitions]
    decide +kernel
  · decide +kernel

end Boardwright.Generation
