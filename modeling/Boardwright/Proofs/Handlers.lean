import Boardwright.Proofs.Lines
import Boardwright.Proofs.Outputs

/-!
# The handlers in the source and in the sketch

A project names functions of the user as handlers of events.  The source declares those that the program
refers to: the handlers of the program's own events, and the handlers that are handed to a controller.
The sketch has an empty function for every handler of a bound event, whether or not there is a
controller.  Both leave out repetitions, the source by the types of the parameters only and the sketch
by their names, too.  So a handler of events whose parameters have different names gets two functions.

* **`HandlerUse`**: an event with its handler; **`handlerUses`** are those of a project.
* **`Assembles.handlers`**, **`stubs_of_ok`**: what is declared and which functions there are.
* **`Answered`**: how declarations and functions correspond.
* **`handlers_answered`**: they correspond after all first phases, and when each handler has one
  function.
* **`handlers_unmatched`**: a handler with two functions, and one that is not declared, because its
  component has no controller.
-/

namespace Boardwright.Generation

open Fallible

variable {input : Input} {ns : String} {c : Component} {t : ComponentType} {cs : List Component}
  {p p' : Published} {n : Numbers} {code : Code}

/-! ### Handlers of a project -/

/-- A bound event with the function that handles it. -/
structure HandlerUse where
  /-- The event. -/
  origin : String
  /-- The function. -/
  handler : String
  /-- The result of the function. -/
  result : Option String
  /-- The parameters of the function. -/
  parameters : List Parameter
  /-- Whether the generated program refers to the function. -/
  referred : Bool
  deriving DecidableEq

namespace HandlerUse

/-- The head of the function, with the types of its parameters only. -/
def erased (u : HandlerUse) : String :=
  signature u.result u.handler u.parameters false

/-- The head of the function, with the names of its parameters. -/
def named (u : HandlerUse) : String :=
  signature u.result u.handler u.parameters true

/-- The function in the sketch. -/
def stub (u : HandlerUse) : Stub :=
  ⟨u.origin, u.named⟩

end HandlerUse

/-- The handler of an event of the program, which calls it. -/
def programUse? (p : Project) (event : String) : Option HandlerUse :=
  (p.programEvents.get? event).map fun handler => ⟨"Program." ++ event, handler, none, [], true⟩

/-- The handler of an event of a component, if the event is bound.  Only a controller takes handlers. -/
def eventUse? (c : Component) (t : ComponentType) (e : Event) : Option HandlerUse :=
  match e.binding, c.events.get? e.name with
  | some _, some handler =>
    some ⟨c.name ++ "." ++ e.name, handler, e.result, e.parameters, t.controller.isSome⟩
  | _, _ => none

/-- The handlers of the program's own events. -/
def programUses (p : Project) : List HandlerUse :=
  [Project.onStart, Project.onLoop].filterMap (programUse? p)

/-- The handlers of the bound events of a component. -/
def componentUses (c : Component) (t : ComponentType) : List HandlerUse :=
  t.events.filterMap (eventUse? c t)

/-- The handlers of a component of a project. -/
def usesOf (input : Input) (c : Component) : List HandlerUse :=
  match input.componentType c with
  | .ok t => componentUses c t
  | .error _ => []

/-- All handlers of a project, in the order of the functions in the sketch. -/
def handlerUses (input : Input) : List HandlerUse :=
  programUses input.project ++ input.project.components.flatMap (usesOf input)

theorem usesOf_eq (ht : input.componentType c = .ok t) : usesOf input c = componentUses c t := by
  rw [usesOf, ht]

theorem referred_of_mem_programUses {project : Project} {u : HandlerUse}
    (h : u ∈ programUses project) : u.referred = true := by
  obtain ⟨event, _, hu⟩ := List.mem_filterMap.1 h
  obtain ⟨handler, _, rfl⟩ := Option.map_eq_some_iff.1 hu
  rfl

theorem referred_of_mem_componentUses {u : HandlerUse} (h : u ∈ componentUses c t) :
    u.referred = t.controller.isSome := by
  obtain ⟨e, _, hu⟩ := List.mem_filterMap.1 h
  unfold eventUse? at hu
  split at hu
  · cases hu
    rfl
  · cases hu

/-! ### Declarations in the source -/

/-- The head of a function without parameters and without a result. -/
theorem signature_none_nil (handler : String) (named : Bool) :
    signature none handler [] named = "void " ++ handler ++ "()" := by
  apply String.toList_injective
  cases named with
  | true => simp [signature, resultName, namedParameters]
  | false => simp [signature, resultName]

theorem programEventHandler_eq (p : Project) (event : String) :
    programEventHandler p event = ((programUse? p event).map HandlerUse.erased).toList := by
  rw [programEventHandler, programUse?]
  cases p.programEvents.get? event with
  | none => rfl
  | some handler =>
    show ["void " ++ handler ++ "()"] = [signature none handler [] false]
    rw [signature_none_nil]

theorem eventHandler_eq (c : Component) (t : ComponentType) (e : Event) :
    eventHandler c e = ((eventUse? c t e).map HandlerUse.erased).toList := by
  rw [eventHandler, eventUse?]
  cases e.binding with
  | none => rfl
  | some binding =>
    cases c.events.get? e.name with
    | none => rfl
    | some handler => rfl

theorem flatMap_eventHandler (c : Component) (t : ComponentType) :
    t.events.flatMap (eventHandler c) = (componentUses c t).map HandlerUse.erased := by
  rw [componentUses, List.map_filterMap, List.filterMap_eq_flatMap_toList]
  congr 1
  funext e
  exact eventHandler_eq c t e

theorem ControllerBlock.handlers (h : ControllerBlock ns p n c t code) :
    code.handlers = ((componentUses c t).filter (·.referred)).map HandlerUse.erased := by
  cases h with
  | none hcontroller =>
    have hnone : (componentUses c t).filter (·.referred) = [] := by
      rw [List.filter_eq_nil_iff]
      intro u hu
      rw [referred_of_mem_componentUses hu, hcontroller]
      exact Bool.false_ne_true
    rw [hnone]
    rfl
  | some hcontroller =>
    have hall : (componentUses c t).filter (·.referred) = componentUses c t := by
      rw [List.filter_eq_self]
      intro u hu
      rw [referred_of_mem_componentUses hu, hcontroller]
      rfl
    rw [hall]
    exact flatMap_eventHandler c t

theorem handlers_viewCodeOf (published : Published) (c : Component) (t : ComponentType) :
    (viewCodeOf published c t).handlers = [] := by
  unfold viewCodeOf
  split
  · rfl
  · rfl

theorem Assembles.handlers (h : Assembles input ns cs p n p' code) :
    code.handlers = ((cs.flatMap (usesOf input)).filter (·.referred)).map HandlerUse.erased := by
  induction h with
  | done => rfl
  | next ht hblock _ ih =>
    rw [handlers_append, handlers_append, hblock.handlers, handlers_viewCodeOf, ih, List.flatMap_cons,
      usesOf_eq ht, List.filter_append, List.map_append, List.append_nil]

/-- The heads that the source collects are those of the handlers it refers to. -/
theorem mem_collected_iff (h : Assembles input ns input.project.components p n p' code)
    (head : String) :
    head ∈ code.handlers ++ programEventHandler input.project Project.onStart
        ++ programEventHandler input.project Project.onLoop ↔
      ∃ u ∈ handlerUses input, u.referred = true ∧ u.erased = head := by
  have hprogram : programEventHandler input.project Project.onStart
      ++ programEventHandler input.project Project.onLoop =
        ((programUses input.project).filter (·.referred)).map HandlerUse.erased := by
    have hall : (programUses input.project).filter (·.referred) = programUses input.project :=
      List.filter_eq_self.2 fun u hu => referred_of_mem_programUses hu
    rw [hall, programUses, List.map_filterMap, List.filterMap_eq_flatMap_toList,
      programEventHandler_eq, programEventHandler_eq]
    simp
  have hswap : ∀ a b : List String, head ∈ a ++ b ↔ head ∈ b ++ a := by
    intro a b
    rw [List.mem_append, List.mem_append, or_comm]
  rw [List.append_assoc, hprogram, h.handlers, hswap, ← List.map_append, ← List.filter_append]
  rw [List.mem_map]
  simp only [List.mem_filter, handlerUses, and_assoc]

/-! ### Functions in the sketch -/

theorem programStubs_eq (p : Project) : programStubs p = (programUses p).map HandlerUse.stub := by
  rw [programStubs, programUses, List.map_filterMap]
  congr 1
  funext event
  rw [programUse?, Option.map_map]
  congr 1
  funext handler
  show Stub.mk ("Program." ++ event) ("void " ++ handler ++ "()") =
    Stub.mk ("Program." ++ event) (signature none handler [] true)
  rw [signature_none_nil]

theorem componentStubs_of_ok {functions : List Stub} (h : componentStubs input c = .ok functions) :
    functions = (usesOf input c).map HandlerUse.stub := by
  rw [componentStubs, bind_eq_ok_iff] at h
  obtain ⟨t, ht, hfunctions⟩ := h
  cases hfunctions
  rw [usesOf_eq ht, componentUses, List.map_filterMap]
  congr 1
  funext e
  rw [eventUse?]
  cases e.binding with
  | none => rfl
  | some binding =>
    cases c.events.get? e.name with
    | none => rfl
    | some handler => rfl

theorem stubs_of_ok {functions : List Stub} (h : stubs input = .ok functions) :
    functions = dedupStubs [] ((handlerUses input).map HandlerUse.stub) := by
  rw [stubs, bind_eq_ok_iff] at h
  obtain ⟨components, hcomponents, hfunctions⟩ := h
  cases hfunctions
  have hflat : components.flatten =
      (input.project.components.flatMap (usesOf input)).map HandlerUse.stub := by
    rw [← List.flatMap_id', flatMap_of_mapM_eq_ok (fun _ _ => componentStubs_of_ok) hcomponents,
      List.map_flatMap]
  rw [hflat, programStubs_eq, handlerUses, List.map_append]

/-- Of the functions with one head the first stays. -/
theorem exists_dedupStubs (seen : List String) (uses : List HandlerUse) :
    ∃ kept : List HandlerUse, kept.Sublist uses ∧
      dedupStubs seen (uses.map HandlerUse.stub) = kept.map HandlerUse.stub ∧
      kept.map HandlerUse.named = Text.dedupFrom seen (uses.map HandlerUse.named) := by
  induction uses generalizing seen with
  | nil => exact ⟨[], .slnil, rfl, rfl⟩
  | cons u rest ih =>
    rw [List.map_cons, List.map_cons, dedupStubs, Text.dedupFrom]
    by_cases hseen : u.named ∈ seen
    · obtain ⟨kept, hsub, hstubs, hnamed⟩ := ih seen
      rw [if_pos (show u.stub.head ∈ seen from hseen), if_pos hseen]
      exact ⟨kept, hsub.cons u, hstubs, hnamed⟩
    · obtain ⟨kept, hsub, hstubs, hnamed⟩ := ih (u.named :: seen)
      rw [if_neg (show u.stub.head ∉ seen from hseen), if_neg hseen]
      refine ⟨u :: kept, hsub.cons_cons u, ?_, ?_⟩
      · rw [List.map_cons, ← hstubs]
        rfl
      · rw [List.map_cons, hnamed]

/-! ### Both -/

/-- How the heads that are declared and the handlers that have a function correspond, among all handlers
that are used. -/
structure Answered (uses : List HandlerUse) (declared : List String) (answered : List HandlerUse) :
    Prop where
  /-- Nothing is declared twice. -/
  declared_nodup : declared.Nodup
  /-- What is declared are the handlers that the program refers to. -/
  mem_declared : ∀ head, head ∈ declared ↔ ∃ u ∈ uses, u.referred = true ∧ u.erased = head
  /-- Only handlers have a function. -/
  answered_sublist : answered.Sublist uses
  /-- No two functions have one head. -/
  named_nodup : (answered.map HandlerUse.named).Nodup
  /-- Every handler has a function. -/
  exists_answer : ∀ u ∈ uses, ∃ v ∈ answered, v.named = u.named

/-- Handlers that have one head without the names of the parameters have one with them: no handler is
shared by events that differ in these names only. -/
def OneSpelling (uses : List HandlerUse) : Prop :=
  ∀ u ∈ uses, ∀ v ∈ uses, u.erased = v.erased → u.named = v.named

/-- Handlers that have one head with the names of the parameters have one without them: no type is
written so that a part of it could be the name of a parameter. -/
def Legible (uses : List HandlerUse) : Prop :=
  ∀ u ∈ uses, ∀ v ∈ uses, u.named = v.named → u.erased = v.erased

namespace Answered

variable {uses answered : List HandlerUse} {declared : List String}

theorem exists_erased (h : Answered uses declared answered) (hlegible : Legible uses) {u : HandlerUse}
    (hu : u ∈ uses) : ∃ v ∈ answered, v.named = u.named ∧ v.erased = u.erased := by
  obtain ⟨v, hv, hnamed⟩ := h.exists_answer u hu
  exact ⟨v, hv, hnamed, hlegible v (h.answered_sublist.subset hv) u hu hnamed⟩

/-- Exactly a handler that is spelled in two ways has two functions. -/
theorem erased_nodup_iff (h : Answered uses declared answered) (hlegible : Legible uses) :
    (answered.map HandlerUse.erased).Nodup ↔ OneSpelling uses := by
  constructor
  · intro hnodup u hu v hv heq
    obtain ⟨u', hu', hunamed, huerased⟩ := h.exists_erased hlegible hu
    obtain ⟨v', hv', hvnamed, hverased⟩ := h.exists_erased hlegible hv
    have hsame : u' = v' :=
      List.inj_on_of_nodup_map hnodup hu' hv' (by rw [huerased, heq, hverased])
    rw [← hunamed, hsame, hvnamed]
  · intro hspelling
    rw [List.Nodup, List.pairwise_map]
    refine List.Pairwise.imp_of_mem ?_ (List.pairwise_map.1 h.named_nodup)
    intro u v hu hv hne heq
    have hmem := fun w (hw : w ∈ answered) => h.answered_sublist.subset hw
    exact hne (hspelling u (hmem u hu) v (hmem v hv) heq)

/-- Exactly a handler that the program does not refer to has a function without a declaration. -/
theorem declared_iff (h : Answered uses declared answered) (hlegible : Legible uses) :
    (∀ head, head ∈ declared ↔ head ∈ answered.map HandlerUse.erased) ↔
      ∀ u ∈ uses, ∃ v ∈ uses, v.referred = true ∧ v.erased = u.erased := by
  constructor
  · intro hsame u hu
    obtain ⟨v, hv, -, herased⟩ := h.exists_erased hlegible hu
    rw [← h.mem_declared, hsame]
    exact List.mem_map.2 ⟨v, hv, herased⟩
  · intro hreferred head
    rw [h.mem_declared, List.mem_map]
    constructor
    · intro hhead
      obtain ⟨u, hu, -, rfl⟩ := hhead
      obtain ⟨v, hv, -, herased⟩ := h.exists_erased hlegible hu
      exact ⟨v, hv, herased⟩
    · intro hhead
      obtain ⟨v, hv, rfl⟩ := hhead
      exact hreferred v (h.answered_sublist.subset hv)

end Answered

/-- Removing repetitions on both sides leaves a correspondence. -/
theorem exists_answered {uses : List HandlerUse} {heads : List String}
    (hheads : ∀ head, head ∈ heads ↔ ∃ u ∈ uses, u.referred = true ∧ u.erased = head) :
    ∃ answered, dedupStubs [] (uses.map HandlerUse.stub) = answered.map HandlerUse.stub ∧
      Answered uses (Text.dedupLines heads) answered := by
  obtain ⟨answered, hsublist, hstubs, hnamed⟩ := exists_dedupStubs [] uses
  refine ⟨answered, hstubs, Text.nodup_dedupLines heads, ?_, hsublist, ?_, ?_⟩
  · intro head
    rw [Text.mem_dedupLines, hheads]
  · rw [hnamed]
    exact Text.nodup_dedupFrom [] _
  · intro u hu
    have hkept : u.named ∈ answered.map HandlerUse.named := by
      rw [hnamed, Text.mem_dedupFrom]
      exact ⟨List.mem_map.2 ⟨u, hu, rfl⟩, List.not_mem_nil⟩
    exact List.mem_map.1 hkept

/-- **Which functions handlers have.**  When the first phases succeed, the source declares every handler
once that the program refers to, and the sketch has functions for handlers only, one for each head with
the names of the parameters.  If types are written legibly, no two functions have one head without these
names exactly when no handler is shared by events that differ in them only, and what is declared are the
functions exactly when the program refers to every handler. -/
theorem handlers_answered {s s' : State}
    {prepared : List (Generator State Artifacts × Template.Replacements)}
    (h : (standardPipeline input).preparation s = (s', .ok prepared)) :
    ∃ o : Outputs, o.PreparedFrom input s s' ∧ prepared = o.paired input s' ∧
      ∃ declared answered,
        o.source.get? "handlers" =
          some (Text.mergeLines (declared.map fun head => "extern " ++ head ++ ";") "") ∧
        o.sketch.get? "callbacks" =
          some (Text.mergeLines (answered.flatMap fun u => u.stub.lines) "") ∧
        Answered (handlerUses input) declared answered ∧
        (Legible (handlerUses input) →
          ((answered.map HandlerUse.erased).Nodup ↔ OneSpelling (handlerUses input)) ∧
            ((∀ head, head ∈ declared ↔ head ∈ answered.map HandlerUse.erased) ↔
              ∀ u ∈ handlerUses input, ∃ v ∈ handlerUses input,
                v.referred = true ∧ v.erased = u.erased)) := by
  obtain ⟨o, ho, hprepared⟩ := preparation_eq_ok_iff.1 h
  obtain ⟨layout, storage, published, code, _, _, hcode, _, hsource⟩ :=
    prepareCore_eq_ok_iff.1 ho.source
  obtain ⟨summary, functions, _, hfunctions, hsketch⟩ := sketchOutput_eq_ok_iff.1 ho.sketch
  obtain ⟨answered, hstubs, hanswered⟩ := exists_answered (mem_collected_iff hcode)
  refine ⟨o, ho, hprepared, _, answered, ?_, ?_, hanswered, ?_⟩
  · rw [hsource]
    simp [coreOutput, programHandlers, Dict.ofList, Dict.get?_insert]
  · rw [hsketch, stubs_of_ok hfunctions, hstubs, List.flatMap_map]
    exact Dict.get?_insert_self _ _ _
  · intro hlegible
    exact ⟨hanswered.erased_nodup_iff hlegible, hanswered.declared_iff hlegible⟩

/-- A type with a view and an event, but without a controller. -/
def lampType : ComponentType where
  view := some { classType := "Lamp" }
  events :=
    [{ name := "Changed", parameters := [⟨"int", some "level"⟩], binding := some ⟨.method, "notify"⟩ }]

/-- A type with a controller and two events, whose parameters have different names. -/
def dimmerType : ComponentType where
  controller := some { classType := "Dimmer" }
  events :=
    [{ name := "Raised", parameters := [⟨"int", some "level"⟩], binding := some ⟨.method, "onRaise"⟩ },
      { name := "Lowered", parameters := [⟨"int", some "value"⟩], binding := some ⟨.method, "onLower"⟩ }]

/-- A component with handlers of its events. -/
def lamp (type name : String) (handlers : List (String × String)) : Component where
  type := type
  name := name
  events := Dict.ofList handlers

/-- A project with lamps and dimmers. -/
def lampsInput (project : Project) : Input where
  settings := { projectFile := ⟨"p.xml"⟩, outputRoot := ⟨"out"⟩, libraryName := "Lamps" }
  project := project
  board := ⟨"Arduino", 14, 6, 2, 1, 9⟩
  modules :=
    (Dict.empty.insert "m.lamp" ⟨"m.lamp", ⟨"m/lamp"⟩, [], [], .componentType lampType⟩).insert
      "m.dimmer" ⟨"m.dimmer", ⟨"m/dimmer"⟩, [], [], .componentType dimmerType⟩

theorem lampsInput_conforming {project : Project}
    (hcomponents : ∀ c ∈ project.components, Conformance.checkComponent (lampsInput project).board
      (lampsInput project).modules c = .ok ())
    (himports : Conformance.checkImports (lampsInput project).modules project = .ok ()) :
    Conforming (lampsInput project) := by
  refine ⟨hcomponents, himports, fun name m t hm ht => ?_⟩
  simp only [lampsInput, Dict.get?_insert, Dict.get?_empty] at hm
  split at hm
  · cases hm
    cases ht
    decide +kernel
  · split at hm
    · cases hm
      cases ht
      decide +kernel
    · cases hm

/-- The texts of the declarations and of the functions. -/
def HandlerTexts (input : Input) (s : State) (declarations functions : String) : Prop :=
  ∃ s' prepared, (standardPipeline input).preparation s = (s', .ok prepared) ∧
    ∃ o : Outputs, prepared = o.paired input s' ∧ o.source.get? "handlers" = some declarations ∧
      o.sketch.get? "callbacks" = some functions

theorem handlerTexts_of_outputs {s : State} {declarations functions : String}
    (h : ((standardPipeline input).preparation s).2.toOption.isSome = true)
    (hsource : (prepareCore input s).2.toOption.bind (·.get? "handlers") = some declarations)
    (hsketch : (sketchOutput input ((standardPipeline input).preparation s).1).toOption.bind
      (·.get? "callbacks") = some functions) : HandlerTexts input s declarations functions := by
  obtain ⟨prepared, h⟩ := exists_preparation h
  obtain ⟨o, ho, hprepared⟩ := preparation_eq_ok_iff.1 h
  rw [ho.source] at hsource
  rw [ho.sketch] at hsketch
  exact ⟨_, prepared, h, o, hprepared, hsource, hsketch⟩

/-- Two dimmers that share a handler of one event, a lamp, and a handler for the start. -/
def dimmersInput : Input :=
  lampsInput
    { components :=
        [lamp "m.dimmer" "left" [("Raised", "dimmed")], lamp "m.lamp" "middle" [("Changed", "seen")],
          lamp "m.dimmer" "right" [("Raised", "dimmed"), ("Lowered", "darkened")]]
      programEvents := Dict.empty.insert "OnStart" "begin" }

theorem handlers_of_dimmers :
    Legible (handlerUses dimmersInput) ∧ OneSpelling (handlerUses dimmersInput) ∧
      ∃ s' prepared, (standardPipeline dimmersInput).preparation ⟨"acp", 0, [], .empty⟩
          = (s', .ok prepared) ∧
        ∃ (o : Outputs) (declared : List String) (answered : List HandlerUse),
          prepared = o.paired dimmersInput s' ∧
          o.source.get? "handlers" =
            some "extern void dimmed(int);\nextern void darkened(int);\nextern void begin();" ∧
          o.sketch.get? "callbacks" =
            some (Text.mergeLines (answered.flatMap fun u => u.stub.lines) "") ∧
          Answered (handlerUses dimmersInput) declared answered ∧
          (answered.map HandlerUse.erased).Nodup ∧
          ¬∀ head, head ∈ declared ↔ head ∈ answered.map HandlerUse.erased := by
  have hlegible : Legible (handlerUses dimmersInput) := by
    unfold Legible
    decide +kernel
  have hspelling : OneSpelling (handlerUses dimmersInput) := by
    unfold OneSpelling
    decide +kernel
  obtain ⟨prepared, h⟩ := exists_preparation (p := standardPipeline dimmersInput)
    (s := ⟨"acp", 0, [], .empty⟩) (by decide +kernel)
  obtain ⟨o, ho, hprepared, declared, answered, -, hsketch, hanswered, hexact⟩ := handlers_answered h
  obtain ⟨hnodup, hdeclared⟩ := hexact hlegible
  have hsource : (prepareCore dimmersInput ⟨"acp", 0, [], .empty⟩).2.toOption.bind
      (·.get? "handlers") =
        some "extern void dimmed(int);\nextern void darkened(int);\nextern void begin();" := by
    decide +kernel
  rw [ho.source] at hsource
  refine ⟨hlegible, hspelling, _, prepared, h, o, declared, answered, hprepared, hsource, hsketch,
    hanswered, hnodup.2 hspelling, ?_⟩
  -- nothing refers to the handler of the lamp
  rw [hdeclared]
  decide +kernel

/-- One dimmer, with one handler for both events. -/
def sharedInput : Input :=
  lampsInput { components := [lamp "m.dimmer" "dimmer" [("Raised", "dimmed"), ("Lowered", "dimmed")]] }

/-- One lamp, which has a handler. -/
def lampInput : Input :=
  lampsInput { components := [lamp "m.lamp" "lamp" [("Changed", "seen")]] }

/-- **Declarations and functions that do not match.**  A handler of two events is declared once, but the
names of the parameters differ between the events, and each of them gets a function.  A handler that is
handed to no controller has a function and is not declared. -/
theorem handlers_unmatched :
    (Conforming sharedInput ∧ Conformance.checkNames sharedInput.project.components = .ok () ∧
      HandlerTexts sharedInput ⟨"acp", 0, [], .empty⟩ "extern void dimmed(int);"
        (Text.mergeLines (Stub.lines ⟨"dimmer.Raised", "void dimmed(int level)"⟩
          ++ Stub.lines ⟨"dimmer.Lowered", "void dimmed(int value)"⟩) "")) ∧
    Conforming lampInput ∧ Conformance.checkNames lampInput.project.components = .ok () ∧
      HandlerTexts lampInput ⟨"acp", 0, [], .empty⟩ ""
        (Text.mergeLines (Stub.lines ⟨"lamp.Changed", "void seen(int level)"⟩) "") := by
  refine ⟨⟨lampsInput_conforming ?_ rfl, rfl, ?_⟩, lampsInput_conforming ?_ rfl, rfl, ?_⟩
  · intro c hc
    obtain rfl := List.mem_singleton.1 hc
    rfl
  · exact handlerTexts_of_outputs (by decide +kernel) (by decide +kernel) (by decide +kernel)
  · intro c hc
    obtain rfl := List.mem_singleton.1 hc
    rfl
  · exact handlerTexts_of_outputs (by decide +kernel) (by decide +kernel) (by decide +kernel)

end Boardwright.Generation
