import Boardwright.Proofs.LooperSection
import Boardwright.Proofs.Outputs

/-!
# The numbers of loopers

Loopers get their numbers while the components are walked over, and a controller is told the numbers of
its own.  The table is made afterwards, from the places of the records that were collected on the way.
The number of a looper can be counted from the project alone, and both agree with it.

* **`hasController`**, **`calledLoopers`**: what a component adds to the controllers and the loopers.
* **`ControllerPart`**: what the source has for a controller.
* **`Controllers`**: the parts and the records of components, with their numbers.
* **`Assembles.exists_controllers`**: the code of a walk is made of them.
* **`LooperPlace`**: a looper of a project, with its number.
* **`loopers_numbered_by_place`**: the number of a looper is the same wherever it is written.
-/

namespace Boardwright.Generation

open Fallible

variable {input : Input} {ns : String} {c : Component} {t : ComponentType} {cs before after : List Component}
  {p p' : Published} {n : Numbers} {code : Code}

/-! ### Loopers of a component -/

/-- The type of a component has a controller. -/
def hasController (input : Input) (c : Component) : Bool :=
  match input.componentType c with
  | .ok t => t.controller.isSome
  | .error _ => false

/-- The loopers that are called for a component: those of its type, if there is a controller to call. -/
def calledLoopers (input : Input) (c : Component) : List Looper :=
  match input.componentType c with
  | .ok t => if t.controller.isSome then t.loopers else []
  | .error _ => []

theorem hasController_eq (ht : input.componentType c = .ok t) :
    hasController input c = t.controller.isSome := by
  rw [hasController, ht]

theorem calledLoopers_eq (ht : input.componentType c = .ok t) :
    calledLoopers input c = if t.controller.isSome then t.loopers else [] := by
  rw [calledLoopers, ht]

/-- A looper of which the controller is told the number. -/
def isBound (l : Looper) : Bool :=
  l.idBinding.isSome

theorem length_looperIdLines (object : String) (i : ℕ) (ls : List Looper) :
    (looperIdLines object i ls).length = ls.countP isBound := by
  induction ls generalizing i with
  | nil => rfl
  | cons l rest ih =>
    rw [looperIdLines, List.length_append, ih, List.countP_cons, isBound]
    cases l.idBinding with
    | none => simp
    | some b => simp [Nat.add_comm]

theorem looperIdLines_append (object : String) (i : ℕ) (ls ms : List Looper) :
    looperIdLines object i (ls ++ ms) =
      looperIdLines object i ls ++ looperIdLines object (i + ls.length) ms := by
  induction ls generalizing i with
  | nil => rfl
  | cons l rest ih =>
    have hnext : i + 1 + rest.length = i + (l :: rest).length := by
      rw [List.length_cons, Nat.add_assoc, Nat.add_comm 1]
    rw [List.cons_append, looperIdLines, looperIdLines, ih, List.append_assoc, hnext]

/-- The statement for a looper comes after those for the bound loopers before it, and it has the
looper's number. -/
theorem getElem?_looperIdLines {object : String} {i : ℕ} {earlier later : List Looper} {l : Looper}
    {b : Binding} (hb : l.idBinding = some b) :
    (looperIdLines object i (earlier ++ l :: later))[earlier.countP isBound]? =
      some (b.statement object (toString (i + earlier.length))) := by
  rw [looperIdLines_append, ← length_looperIdLines object i earlier,
    List.getElem?_append_right (Nat.le_refl _), Nat.sub_self, looperIdLines, hb]
  rfl

theorem resolve_eq_ok_iff {controller method : String} {interval initialDelay : Timing} {r : LooperRecord} :
    LooperRecord.resolve controller method interval initialDelay c t = .ok r ↔
      ∃ i d, resolveTiming interval c t = .ok i ∧ resolveTiming initialDelay c t = .ok d ∧
        r = ⟨controller, method, i.filter (0 ≤ ·), max (d.getD 0) 0⟩ := by
  simp only [LooperRecord.resolve, bind_eq_ok_iff, mapError_eq_ok_iff]
  constructor
  · intro h
    obtain ⟨i, hi, d, hd, hr⟩ := h
    cases hr
    exact ⟨i, d, hi, hd, rfl⟩
  · intro h
    obtain ⟨i, d, hi, hd, rfl⟩ := h
    exact ⟨i, hi, d, hd, rfl⟩

/-! ### Parts of the source -/

/-- What the source has for a controller. -/
structure ControllerPart where
  /-- The name of the component. -/
  component : String
  /-- The definition of the object. -/
  definition : String
  /-- The statements of `setup` that tell it the numbers of its loopers. -/
  ids : List String
  /-- The other statements of `setup`. -/
  statements : List String

namespace ControllerPart

def comment (part : ControllerPart) : String :=
  "// Controller for " ++ part.component

/-- The lines among the definitions of objects. -/
def objectLines (part : ControllerPart) : List String :=
  [part.comment, part.definition]

/-- The lines in `setup`. -/
def setupLines (part : ControllerPart) : List String :=
  commented part.comment (part.ids ++ part.statements)

/-- The part is that of a component, for controller `i` with loopers from number `j` on. -/
structure BelongsTo (part : ControllerPart) (ns : String) (i j : ℕ) (c : Component) (t : ComponentType) :
    Prop where
  component : part.component = c.name
  definition : ∃ controller published, t.controller = some controller ∧
    part.definition = Generation.definition controller (controllerName i) (replacements published c t)
  ids : part.ids = looperIdLines (qualify ns (controllerName i)) j t.loopers

end ControllerPart

/-- The parts for components and the records of their loopers, when controllers are numbered from `i`
and loopers from `j` on. -/
inductive Controllers (input : Input) (ns : String) :
    List Component → ℕ → ℕ → List ControllerPart → List LooperRecord → Prop where
  | done {i j : ℕ} : Controllers input ns [] i j [] []
  | without {c : Component} {rest : List Component} {t : ComponentType} {i j : ℕ}
      {parts : List ControllerPart} {records : List LooperRecord} :
      input.componentType c = .ok t → t.controller.isSome = false →
      Controllers input ns rest i j parts records → Controllers input ns (c :: rest) i j parts records
  | next {c : Component} {rest : List Component} {t : ComponentType} {i j : ℕ} {part : ControllerPart}
      {own : List LooperRecord} {parts : List ControllerPart} {records : List LooperRecord} :
      input.componentType c = .ok t → t.controller.isSome = true → part.BelongsTo ns i j c t →
      looperRecords (qualify ns (controllerName i)) c t = .ok own →
      Controllers input ns rest (i + 1) (j + own.length) parts records →
      Controllers input ns (c :: rest) i j (part :: parts) (own ++ records)

/-! ### Code in parts -/

/-- Code that is made of parts and records. -/
structure Code.MadeOf (code : Code) (parts : List ControllerPart) (records : List LooperRecord) : Prop where
  privateObjects : code.privateObjects = parts.flatMap ControllerPart.objectLines
  setup : code.setup = parts.flatMap ControllerPart.setupLines
  loopers : code.loopers = records

theorem Code.MadeOf.append {code' : Code} {parts parts' : List ControllerPart}
    {records records' : List LooperRecord} (h : code.MadeOf parts records)
    (h' : code'.MadeOf parts' records') :
    (code ++ code').MadeOf (parts ++ parts') (records ++ records') := by
  constructor
  · rw [List.flatMap_append, ← h.privateObjects, ← h'.privateObjects]
    rfl
  · rw [List.flatMap_append, ← h.setup, ← h'.setup]
    rfl
  · rw [← h.loopers, ← h'.loopers]
    rfl

theorem madeOf_viewCodeOf (published : Published) (c : Component) (t : ComponentType) :
    (viewCodeOf published c t).MadeOf [] [] := by
  rw [viewCodeOf]
  cases t.view with
  | none => exact ⟨rfl, rfl, rfl⟩
  | some view => exact ⟨rfl, rfl, rfl⟩

/-- The part of a controller in its code. -/
def partOfBlock (ns : String) (published : Published) (n : Numbers) (c : Component) (t : ComponentType)
    (controller : Instance) (values : List String) : ControllerPart :=
  let name := controllerName n.controllers
  let object := qualify ns name
  let r := replacements published c t
  { component := c.name
    definition := definition controller name r
    ids := looperIdLines object n.loopers t.loopers
    statements := values ++ t.events.flatMap (eventLine object c)
      ++ wrapperLines ns object (namedWrappers n.wrappers t.methodWrappers) ++ viewLine object c t
      ++ callLine controller.init object r }

theorem belongsTo_partOfBlock {controller : Instance} (h : t.controller = some controller)
    (values : List String) :
    (partOfBlock ns p n c t controller values).BelongsTo ns n.controllers n.loopers c t where
  component := rfl
  definition := ⟨controller, p, h, rfl⟩
  ids := rfl

theorem madeOf_controllerBlock (ns : String) (p : Published) (n : Numbers) (c : Component) (t : ComponentType)
    (controller : Instance) (records : List LooperRecord) (values : List String) :
    (controllerBlock ns p n c t controller records values).MadeOf
      [partOfBlock ns p n c t controller values] records where
  privateObjects := by
    rw [List.flatMap_singleton]
    rfl
  setup := by
    rw [List.flatMap_singleton]
    apply congrArg (commented ("// Controller for " ++ c.name))
    simp only [partOfBlock, List.append_assoc]
  loopers := rfl

/-- The code of a walk is made of the parts of its components, numbered from where the walk starts. -/
theorem Assembles.exists_controllers (h : Assembles input ns cs p n p' code) :
    ∃ parts records, Controllers input ns cs n.controllers n.loopers parts records ∧
      code.MadeOf parts records := by
  induction h with
  | done => exact ⟨[], [], .done, rfl, rfl, rfl⟩
  | @next c rest t p p' n block others ht hblock _ ih =>
    obtain ⟨parts, records, hparts, hothers⟩ := ih
    have hview := madeOf_viewCodeOf (publishedBy ns p n c t) c t
    cases hblock with
    | none hnone =>
      have hnext : n.next t = n := by rw [Numbers.next, hnone]; rfl
      rw [hnext] at hparts
      refine ⟨parts, records, .without ht (by rw [hnone]; rfl) hparts, ?_⟩
      exact hview.append hothers
    | @some controller own values hsome hown hvalues =>
      have hcontroller : t.controller.isSome = true := by rw [hsome]; rfl
      have hlength : own.length = t.loopers.length := length_of_mapM_eq_ok hown
      rw [Numbers.next, if_pos hcontroller, ← hlength] at hparts
      have hcode := madeOf_controllerBlock ns (publishedBy ns p n c t) n c t controller own values
      have hmade := (hcode.append hview).append hothers
      rw [List.append_nil, List.append_nil, List.singleton_append] at hmade
      exact ⟨_, _, .next ht hcontroller (belongsTo_partOfBlock hsome values) hown hparts, hmade⟩

/-! ### Counting -/

namespace Controllers

variable {i j : ℕ} {parts : List ControllerPart} {records : List LooperRecord}

theorem length_parts (h : Controllers input ns cs i j parts records) :
    parts.length = cs.countP (hasController input) := by
  induction h with
  | done => rfl
  | without ht hnone _ ih => rw [List.countP_cons_of_neg (by rw [hasController_eq ht, hnone]; decide), ih]
  | next ht hsome _ _ _ ih =>
    rw [List.countP_cons_of_pos (by rw [hasController_eq ht, hsome]), List.length_cons, ih]

theorem length_records (h : Controllers input ns cs i j parts records) :
    records.length = (cs.flatMap (calledLoopers input)).length := by
  induction h with
  | done => rfl
  | without ht hnone _ ih =>
    rw [List.flatMap_cons, calledLoopers_eq ht, hnone, if_neg Bool.false_ne_true, List.nil_append, ih]
  | next ht hsome _ hown _ ih =>
    rw [List.flatMap_cons, calledLoopers_eq ht, if_pos hsome, List.length_append, List.length_append, ih,
      length_of_mapM_eq_ok hown]

/-- Components that come later are numbered on from those before them. -/
theorem split (h : Controllers input ns (before ++ after) i j parts records) :
    ∃ front back first second, parts = front ++ back ∧ records = first ++ second ∧
      Controllers input ns before i j front first ∧
      Controllers input ns after (i + front.length) (j + first.length) back second := by
  induction before generalizing i j parts records with
  | nil => exact ⟨[], parts, [], records, rfl, rfl, .done, h⟩
  | cons c rest ih =>
    cases h with
    | without ht hnone hrest =>
      obtain ⟨front, back, first, second, hparts, hrecords, hfront, hback⟩ := ih hrest
      exact ⟨front, back, first, second, hparts, hrecords, .without ht hnone hfront, hback⟩
    | @next _ _ _ _ _ part own _ _ ht hsome hpart hown hrest =>
      obtain ⟨front, back, first, second, rfl, rfl, hfront, hback⟩ := ih hrest
      refine ⟨part :: front, back, own ++ first, second, rfl, (List.append_assoc _ _ _).symm,
        .next ht hsome hpart hown hfront, ?_⟩
      rwa [List.length_cons, List.length_append, Nat.add_comm front.length, ← Nat.add_assoc, ← Nat.add_assoc]

end Controllers

/-! ### Loopers of a project -/

/-- A looper of a project: the component, whose type has a controller, and the looper among those of the
type. -/
structure LooperPlace (input : Input) where
  /-- The components before. -/
  before : List Component
  /-- The component. -/
  component : Component
  /-- The components after it. -/
  after : List Component
  components : input.project.components = before ++ component :: after
  /-- Its type. -/
  type : ComponentType
  componentType : input.componentType component = .ok type
  controller : type.controller.isSome = true
  /-- The loopers before. -/
  earlier : List Looper
  /-- The looper. -/
  looper : Looper
  /-- The loopers after it. -/
  later : List Looper
  loopers : type.loopers = earlier ++ looper :: later

namespace LooperPlace

/-- The number of the looper: how many are called before it. -/
def number (x : LooperPlace input) : ℕ :=
  (x.before.flatMap (calledLoopers input)).length + x.earlier.length

/-- The number of the component's controller. -/
def controllerNumber (x : LooperPlace input) : ℕ :=
  x.before.countP (hasController input)

/-- The component's controller, as an object of the program. -/
def object (x : LooperPlace input) (ns : String) : String :=
  qualify ns (controllerName x.controllerNumber)

end LooperPlace

/-- The part of a looper's controller, and the looper's record. -/
theorem Controllers.at_place {parts : List ControllerPart} {records : List LooperRecord}
    (h : Controllers input ns input.project.components 0 0 parts records) (x : LooperPlace input) :
    ∃ part r, parts[x.controllerNumber]? = some part ∧
      part.BelongsTo ns x.controllerNumber
        (x.before.flatMap (calledLoopers input)).length x.component x.type ∧
      records[x.number]? = some r ∧
      LooperRecord.resolve (x.object ns) x.looper.method x.looper.interval x.looper.initialDelay x.component
        x.type = .ok r := by
  rw [x.components] at h
  obtain ⟨front, back, first, second, rfl, rfl, hfront, hback⟩ := h.split
  rw [Nat.zero_add, Nat.zero_add, hfront.length_parts, hfront.length_records] at hback
  cases hback with
  | without ht hnone _ =>
    cases ht.symm.trans x.componentType
    rw [x.controller] at hnone
    cases hnone
  | @next _ _ _ _ _ part own _ rest ht _ hpart hown _ =>
    cases ht.symm.trans x.componentType
    have hlooper : x.type.loopers[x.earlier.length]? = some x.looper := by
      rw [x.loopers, List.getElem?_append_right (Nat.le_refl _), Nat.sub_self]
      rfl
    obtain ⟨r, hr, hget⟩ := exists_getElem?_of_mapM_eq_ok hown hlooper
    refine ⟨part, r, ?_, hpart, ?_, hr⟩
    · rw [LooperPlace.controllerNumber, ← hfront.length_parts, List.getElem?_append_right (Nat.le_refl _),
        Nat.sub_self]
      rfl
    · rw [LooperPlace.number, ← hfront.length_records, List.getElem?_append_right (Nat.le_add_right _ _),
        Nat.add_sub_cancel_left, List.getElem?_append_left (List.getElem?_eq_some_iff.1 hget).1, hget]

/-! ### The numbers in the source -/

/-- All that the source has for loopers. -/
structure LooperCode where
  /-- The parts of the controllers, in order. -/
  controllers : List ControllerPart
  /-- The number that is given for the loopers. -/
  count : ℕ
  /-- The rows of the table. -/
  rows : List TableRow
  /-- The functions. -/
  functions : List LooperFunction

namespace LooperCode

/-- The code stands in the text of the source. -/
structure StandsIn (code : LooperCode) (output : Output) : Prop where
  objects : output.get? "privateObjects" =
    some (Text.mergeLines (code.controllers.flatMap ControllerPart.objectLines) Template.indent)
  setup : ∃ lead trail, output.get? "setup" =
    some (Text.mergeLines (lead ++ code.controllers.flatMap ControllerPart.setupLines ++ trail)
      Template.indent)
  table : ∃ text, output.get? "loopersSection" = some text ∧
    ShowsLoopers code.count code.rows code.functions text

/-- The code has the number of a looper everywhere: in the statement that hands it to the controller of
the looper's own component, at the row with the looper's delay, and at the function that calls the
method of that controller. -/
structure Serves (code : LooperCode) (ns : String) (x : LooperPlace input) : Prop where
  setup : ∃ part, code.controllers[x.controllerNumber]? = some part ∧ part.component = x.component.name ∧
    (∃ controller published, x.type.controller = some controller ∧
      part.definition =
        definition controller (controllerName x.controllerNumber)
          (replacements published x.component x.type)) ∧
    part.ids.length = x.type.loopers.countP isBound ∧
    ∀ b, x.looper.idBinding = some b →
      part.ids[x.earlier.countP isBound]? = some (b.statement (x.object ns) (toString x.number))
  row : ∃ delay, resolveTiming x.looper.initialDelay x.component x.type = .ok delay ∧
    code.rows[x.number]? = some ⟨max (delay.getD 0) 0, handlerName x.number⟩
  function : ∃ interval, resolveTiming x.looper.interval x.component x.type = .ok interval ∧
    code.functions[x.number]? =
      some ⟨handlerName x.number, x.object ns, x.looper.method, interval.filter (0 ≤ ·)⟩

end LooperCode

/-- The code with the given parts of controllers and records of loopers. -/
def looperCode (parts : List ControllerPart) (records : List LooperRecord) : LooperCode where
  controllers := parts
  count := records.length
  rows := tableRows 0 records
  functions := looperFunctions 0 records

theorem Controllers.serves {parts : List ControllerPart} {records : List LooperRecord}
    (h : Controllers input ns input.project.components 0 0 parts records) (x : LooperPlace input) :
    (looperCode parts records).Serves ns x := by
  obtain ⟨part, r, hget, hpart, hr, hresolve⟩ := h.at_place x
  obtain ⟨interval, delay, hinterval, hdelay, rfl⟩ := resolve_eq_ok_iff.1 hresolve
  refine ⟨⟨part, hget, hpart.component, hpart.definition, ?_, ?_⟩, ⟨delay, hdelay, ?_⟩,
    ⟨interval, hinterval, ?_⟩⟩
  · rw [hpart.ids, length_looperIdLines]
  · intro b hb
    rw [hpart.ids, x.loopers, getElem?_looperIdLines hb]
    rfl
  · rw [looperCode, getElem?_tableRows, hr, Nat.zero_add]
    rfl
  · rw [looperCode, getElem?_looperFunctions, hr, Nat.zero_add]
    rfl

theorem exists_programSetup (input : Input) (storage : StorageCode) :
    ∃ lead trail, ∀ code : Code, programSetup input storage code = lead ++ code.setup ++ trail := by
  unfold programSetup
  cases input.project.watchdogLevel with
  | none => exact ⟨_, _, fun _ => rfl⟩
  | some requested =>
    refine ⟨"wdt_disable();" :: storage.setup, programEventLines input.project Project.onStart ++
      ["wdt_enable(" ++ toString (input.board.watchdogLevel requested).toNat ++ ");"], ?_⟩
    intro code
    simp only [List.cons_append, List.append_assoc]

theorem Code.MadeOf.standsIn {parts : List ControllerPart} {records : List LooperRecord}
    (h : code.MadeOf parts records) (input : Input) (ns : String) (storage : StorageCode) :
    (looperCode parts records).StandsIn (coreOutput input ns storage code) := by
  constructor
  · simp [coreOutput, Dict.ofList, Dict.get?_insert, h.privateObjects, looperCode]
  · obtain ⟨lead, trail, hlines⟩ := exists_programSetup input storage
    refine ⟨lead, trail, ?_⟩
    rw [looperCode, ← h.setup, ← hlines]
    simp [coreOutput, Dict.ofList, Dict.get?_insert]
  · refine ⟨looperSection code.loopers ns, ?_, ?_⟩
    · simp [coreOutput, Dict.ofList, Dict.get?_insert]
    · rw [h.loopers]
      exact showsLoopers_looperSection records ns

/-- **Loopers are numbered by their places.**  When the source is prepared, the number of a looper is
how many loopers are called before it.  Its controller is told this number, and at this number the table
has the looper's delay and the function that calls the looper's method of its own controller.  There are
as many rows and functions as there are loopers to call, and this is the number that the table is given.
-/
theorem loopers_numbered_by_place {s s' : State} {output : Output}
    (h : prepareCore input s = (s', .ok output)) :
    ∃ code : LooperCode, code.StandsIn output ∧
      code.controllers.length = input.project.components.countP (hasController input) ∧
      code.count = (input.project.components.flatMap (calledLoopers input)).length ∧
      code.rows.length = code.count ∧ code.functions.length = code.count ∧
      ∀ x : LooperPlace input, code.Serves s.privateNamespace x := by
  obtain ⟨_, storage, _, code, _, _, hcode, _, rfl⟩ := prepareCore_eq_ok_iff.1 h
  obtain ⟨parts, records, hparts, hmade⟩ := hcode.exists_controllers
  exact ⟨looperCode parts records, hmade.standsIn input _ storage, hparts.length_parts, hparts.length_records,
    length_tableRows 0 records, length_looperFunctions 0 records, hparts.serves⟩

/-- A type with two loopers; the controller is told the number of the second. -/
def pulseType : ComponentType where
  controller := some { classType := "Pulse" }
  properties := [{ name := "Period", type := "int" }]
  loopers :=
    [{ method := "tick", interval := .millis 20 },
     { method := "fade", interval := .property "Period", initialDelay := .millis 5,
       idBinding := some ⟨.attribute, "fader"⟩ }]

/-- A type with a looper, but without a controller to call. -/
def panelType : ComponentType where
  loopers := [{ method := "refresh" }]

def pulse (name period : String) : Component where
  type := "m.pulse"
  name := name
  properties := Dict.empty.insert "Period" period

/-- A project with a panel between two components that pulse. -/
def pulses : Input :=
  { blinkerInput "250" with
    project := { components :=
      [pulse "left" "40", { type := "m.panel", name := "panel" }, pulse "right" "-1"] }
    modules :=
      (Dict.empty.insert "m.panel" ⟨"m.panel", ⟨"m/panel"⟩, [], [], .componentType panelType⟩).insert
        "m.pulse" ⟨"m.pulse", ⟨"m/pulse"⟩, [], [], .componentType pulseType⟩ }

/-- The second looper of the last component. -/
def fadeOfRight : LooperPlace pulses where
  before := [pulse "left" "40", { type := "m.panel", name := "panel" }]
  component := pulse "right" "-1"
  after := []
  components := rfl
  type := pulseType
  componentType := by
    rw [componentType_eq_ok_iff]
    rfl
  controller := rfl
  earlier := [{ method := "tick", interval := .millis 20 }]
  looper :=
    { method := "fade", interval := .property "Period", initialDelay := .millis 5,
      idBinding := some ⟨.attribute, "fader"⟩ }
  later := []
  loopers := rfl

theorem loopers_of_pulses :
    ∃ s' output, prepareCore pulses ⟨"acp", 0, [], .empty⟩ = (s', .ok output) ∧
      ∃ code : LooperCode, code.StandsIn output ∧ code.count = 4 ∧
        code.rows[3]? = some ⟨5, "looper_handler_3"⟩ ∧
        code.functions[3]? = some ⟨"looper_handler_3", "acp::controller_1", "fade", none⟩ ∧
        ∃ part ∈ code.controllers, part.component = "right" ∧
          part.ids[0]? = some "acp::controller_1.fader = 3;" := by
  have hready : (prepareCore pulses ⟨"acp", 0, [], .empty⟩).2.toOption.isSome = true := by decide +kernel
  obtain ⟨output, h⟩ := exists_ok hready
  obtain ⟨code, hcode, -, hcount, -, -, hserves⟩ := loopers_numbered_by_place h
  obtain ⟨⟨part, hpart, hname, -, -, hids⟩, ⟨delay, hdelay, hrow⟩, ⟨interval, hinterval, hfunction⟩⟩ :=
    hserves fadeOfRight
  have hnumber : fadeOfRight.number = 3 := by decide +kernel
  have hobject : fadeOfRight.object "acp" = "acp::controller_1" := by decide +kernel
  have hperiod : resolveTiming (.property "Period") (pulse "right" "-1") pulseType = .ok (some (-1)) := by
    decide +kernel
  cases hdelay
  cases hperiod.symm.trans hinterval
  rw [hnumber] at hrow hfunction
  rw [hobject] at hfunction
  refine ⟨_, output, h, code, hcode, hcount.trans ?_, hrow, hfunction, part, List.mem_of_getElem? hpart,
    hname, (hids _ rfl).trans ?_⟩
  · decide +kernel
  · rw [hnumber, hobject]
    rfl

end Boardwright.Generation
