import Boardwright.Generation.CoreSource
import Boardwright.Proofs.Blank
import Boardwright.Proofs.Conformance
import Boardwright.Proofs.Layout
import Boardwright.Proofs.Refusal

/-!
# When the source can be prepared

The generator of the source resolves the times of loopers, hands the values of properties to
controllers and lays out the stored items.  Every function it uses gets one lemma that says when the
function succeeds and that its failures are refusals; **`prepareCore_decided`** puts them together.

* **`LoopersReady`**: the times of loopers that are given by properties are numbers.
* **`StorageReady`**: the stored items have places, first values and a version.
* **`publishedValues`**: what the components publish, said without the code they lead to.
-/

namespace Boardwright.Generation

open Fallible

variable {input : Input} {c : Component} {t : ComponentType}

/-! ### Loopers -/

/-- A timing gives a number for a component, or nothing.  A property may be unset, blank or a
number. -/
def Resolvable (c : Component) (t : ComponentType) : Timing → Prop
  | .unset => True
  | .millis _ => True
  | .property name => ∀ p v, t.property? name = some p →
      p.effective (c.properties.get? name) = some v →
      Text.isBlankText v = true ∨ (Text.int64? (Text.trim v)).isSome = true

theorem resolveTiming_decided {timing : Timing} {blame : Failure → Prop}
    (hdeclared : t.declares timing = true)
    (hblame : ∀ property : String, blame (.compilation
      s!"The value of property '{property}' cannot be converted to an integer value.")) :
    Decided blame (resolveTiming timing c t) (Resolvable c t timing) := by
  cases timing with
  | unset => exact .of_isOk ⟨none, rfl⟩ trivial
  | millis n => exact .of_isOk ⟨some n, rfl⟩ trivial
  | property name =>
    obtain ⟨p, hp⟩ := Option.isSome_iff_exists.1 hdeclared
    have hready : Resolvable c t (.property name) ↔
        ∀ v, p.effective (c.properties.get? name) = some v →
          Text.isBlankText v = true ∨ (Text.int64? (Text.trim v)).isSome = true := by
      simp only [Resolvable, hp, Option.some.injEq]
      exact ⟨fun h v hv => h p v rfl hv, fun h _ v hp' hv => h v (hp' ▸ hv)⟩
    refine Decided.congr ?_ hready.symm
    simp only [resolveTiming, hp]
    cases p.effective (c.properties.get? name) with
    | none => exact .of_isOk ⟨none, rfl⟩ (by simp)
    | some v =>
      rw [Option.bind_some]
      by_cases hblank : Text.isBlankText v = true
      · rw [Text.nonBlank?_of_blank hblank]
        exact .of_isOk ⟨none, rfl⟩ (by simp [hblank])
      · rw [Text.nonBlank?_of_not_blank hblank]
        cases hnumber : Text.int64? (Text.trim v) with
        | some n => exact .of_isOk ⟨some n, by simp only [hnumber]⟩ (by simp [hnumber])
        | none => exact .of_error (by simp only [hnumber]) (hblame name) (by simp [hblank, hnumber])

/-- The two times of a looper. -/
def LooperReady (c : Component) (t : ComponentType) (l : Looper) : Prop :=
  Resolvable c t l.interval ∧ Resolvable c t l.initialDelay

theorem looperRecords_decided (object : String) (ht : t.check = .ok ()) :
    Decided Refusal (looperRecords object c t) (∀ l ∈ t.loopers, LooperReady c t l) := by
  refine Decided.mapM ?_
  intro l hl
  obtain ⟨hinterval, hdelay⟩ := ComponentType.declares_of_check ht hl
  refine Decided.bind ?_ ?_
  · exact (resolveTiming_decided hinterval (.timing "interval" c.name)).mapError
  · intro i _
    refine Decided.bind_total ?_ fun d => ⟨_, rfl⟩
    exact (resolveTiming_decided hdelay (.timing "initial delay" c.name)).mapError

/-! ### Controllers and components -/

theorem exists_propertyLines (h : Conforming input) (hc : c ∈ input.project.components)
    (ht : input.componentType c = .ok t) (object : String) :
    ∃ lines, propertyLines object c t = .ok lines := by
  have hlines : ∃ lines, t.properties.mapM (propertyLine object c) = .ok lines := by
    rw [mapM_isOk_iff]
    intro p hp
    obtain ⟨text, htext⟩ := h.exists_literal hc ht hp
    rw [propertyLine, htext]
    cases p.binding with
    | none => exact ⟨_, rfl⟩
    | some b => exact ⟨_, rfl⟩
  obtain ⟨lines, hlines⟩ := hlines
  refine ⟨lines.flatten, ?_⟩
  rw [propertyLines, hlines]
  rfl

/-- The values after a component of a type has published its own. -/
def publishedBy (ns : String) (published : Published) (n : Numbers) (c : Component)
    (t : ComponentType) : Published :=
  if t.controller.isSome then
    publishWrappers ns c.name
      (published.put c.name "controller" (qualify ns (controllerName n.controllers)))
      (namedWrappers n.wrappers t.methodWrappers)
  else published

/-- The values after components have published theirs, one after the other. -/
def publishedFrom (input : Input) (ns : String) : List Component → Published → Numbers → Published
  | [], published, _ => published
  | c :: rest, published, n =>
    match input.componentType c with
    | .error _ => published
    | .ok t => publishedFrom input ns rest (publishedBy ns published n c t) (n.next t)

/-- The loopers of a component are ready, if its type has a controller at all. -/
def LoopersReady (input : Input) (c : Component) : Prop :=
  ∀ t, input.componentType c = .ok t → t.controller.isSome = true →
    ∀ l ∈ t.loopers, LooperReady c t l

theorem componentCode_decided (h : Conforming input) (hc : c ∈ input.project.components)
    (ht : input.componentType c = .ok t) (ns : String) (published : Published) (n : Numbers) :
    Decided Refusal (componentCode ns published n c t).2 (LoopersReady input c) ∧
      ∀ code, (componentCode ns published n c t).2 = .ok code →
        (componentCode ns published n c t).1 = publishedBy ns published n c t := by
  rw [LoopersReady, forall_componentType_iff ht, componentCode, publishedBy]
  cases t.controller with
  | none => exact ⟨.of_isOk ⟨_, rfl⟩ (by simp), fun _ _ => rfl⟩
  | some controller =>
    have hloopers : Decided Refusal (looperRecords (qualify ns (controllerName n.controllers)) c t)
        (∀ l ∈ t.loopers, LooperReady c t l) := looperRecords_decided _ (h.check_type ht)
    obtain ⟨values, hvalues⟩ :=
      exists_propertyLines h hc ht (qualify ns (controllerName n.controllers))
    simp only [Option.isSome_some, forall_const, controllerCode, hvalues]
    cases hrecords : looperRecords (qualify ns (controllerName n.controllers)) c t with
    | error f =>
      exact ⟨.of_error rfl (hloopers.blamed f hrecords) (hloopers.not_of_error hrecords), nofun⟩
    | ok records =>
      exact ⟨.of_isOk ⟨_, rfl⟩ (hloopers.isOk_iff.1 ⟨records, hrecords⟩), fun _ _ => rfl⟩

theorem componentsCode_of_error (ht : input.componentType c = .ok t) {ns : String}
    {published : Published} {n : Numbers} {f : Failure} (rest : List Component)
    (hf : (componentCode ns published n c t).2 = .error f) :
    (componentsCode input ns (c :: rest) published n).2 = .error f := by
  cases hcode : componentCode ns published n c t with
  | mk published' result =>
    rw [hcode] at hf
    cases hf
    simp only [componentsCode, ht, hcode]

theorem componentsCode_of_ok (ht : input.componentType c = .ok t) {ns : String}
    {published : Published} {n : Numbers} {code : Code} (rest : List Component)
    (hcode : (componentCode ns published n c t).2 = .ok code) :
    componentsCode input ns (c :: rest) published n =
      ((componentsCode input ns rest (componentCode ns published n c t).1 (n.next t)).1,
        (componentsCode input ns rest (componentCode ns published n c t).1 (n.next t)).2.map
          (code ++ ·)) := by
  cases hfirst : componentCode ns published n c t with
  | mk published' result =>
    rw [hfirst] at hcode
    cases hcode
    simp only [componentsCode, ht, hfirst]
    cases componentsCode input ns rest published' (n.next t) with
    | mk published'' result' => cases result' <;> rfl

theorem componentsCode_decided (h : Conforming input) (ns : String) {cs : List Component}
    (hcs : ∀ c ∈ cs, c ∈ input.project.components) (published : Published) (n : Numbers) :
    Decided Refusal (componentsCode input ns cs published n).2
      (∀ c ∈ cs, LoopersReady input c) := by
  induction cs generalizing published n with
  | nil => exact .of_isOk ⟨_, rfl⟩ (by simp)
  | cons c rest ih =>
    obtain ⟨hc, hrest⟩ := List.forall_mem_cons.1 hcs
    obtain ⟨t, ht⟩ := h.exists_type hc
    rw [List.forall_mem_cons]
    refine (componentCode_decided h hc ht ns published n).1.andThen ?_ ?_
    · intro f hf
      exact componentsCode_of_error ht rest hf
    · intro code hcode
      rw [componentsCode_of_ok ht rest hcode]
      exact (ih hrest _ _).map _

/-- What is published in the end does not depend on the code that is generated. -/
theorem componentsCode_published (h : Conforming input) {ns : String} {cs : List Component}
    (hcs : ∀ c ∈ cs, c ∈ input.project.components) {published : Published} {n : Numbers}
    {code : Code} (hcode : (componentsCode input ns cs published n).2 = .ok code) :
    (componentsCode input ns cs published n).1 = publishedFrom input ns cs published n := by
  induction cs generalizing published n code with
  | nil => rfl
  | cons c rest ih =>
    obtain ⟨hc, hrest⟩ := List.forall_mem_cons.1 hcs
    obtain ⟨t, ht⟩ := h.exists_type hc
    cases hfirst : (componentCode ns published n c t).2 with
    | error f =>
      rw [componentsCode_of_error ht rest hfirst] at hcode
      cases hcode
    | ok first =>
      rw [componentsCode_of_ok ht rest hfirst] at hcode ⊢
      rw [(componentCode_decided h hc ht ns published n).2 first hfirst] at hcode ⊢
      rw [publishedFrom, ht]
      cases hothers :
          (componentsCode input ns rest (publishedBy ns published n c t) (n.next t)).2 with
      | error f =>
        rw [hothers] at hcode
        cases hcode
      | ok others => exact ih hrest hothers

/-! ### Stored items -/

/-- The first value of an item, if it has one, is a value of its type. -/
def FirstValueReady (board : Board) (item : StoredItem) : Prop :=
  ∀ v, item.initialValue = some v → board.accepts item.type (some v) = true

/-- The stored items have places.  If there are any, their first values are ready, and the project
says in a valid way how the version is found. -/
def StorageReady (input : Input) : Prop :=
  (∃ layout, Storage.allocate input.project.storage = .ok layout) ∧
    (input.project.storage ≠ [] →
      (∀ item ∈ input.project.storage, FirstValueReady input.board item) ∧
        ∃ mode, Storage.VersionMode.read input.project.layoutVersion = .ok mode)

theorem initialization_decided (board : Board) (slot : Storage.Slot) :
    Decided Refusal (slot.initialization board) (FirstValueReady board slot.item) := by
  rw [Storage.Slot.initialization, FirstValueReady]
  cases slot.item.initialValue with
  | none => exact .of_isOk ⟨none, rfl⟩ (by simp)
  | some value =>
    by_cases haccepts : board.accepts slot.item.type (some value) = true
    · obtain ⟨text, htext⟩ := exists_literal_of_accepts haccepts
      simp only [haccepts, htext, if_true]
      exact .of_isOk ⟨_, rfl⟩ (by simpa using haccepts)
    · simp only [if_neg haccepts]
      exact .of_error rfl (.firstValue value slot.item.name) (by simpa using haccepts)

theorem readVersion_decided (directive : String) :
    Decided Refusal (Storage.VersionMode.read directive)
      (∃ mode, Storage.VersionMode.read directive = .ok mode) := by
  refine ⟨Iff.rfl, ?_⟩
  intro f hf
  rw [Storage.VersionMode.read] at hf
  repeat' split at hf
  all_goals cases hf
  all_goals exact .version _

theorem storageCode_decided {layout : Storage.Layout} (ns : String)
    (hlayout : Storage.allocate input.project.storage = .ok layout) :
    Decided Refusal (storageCode input ns layout)
      (input.project.storage ≠ [] →
        (∀ item ∈ input.project.storage, FirstValueReady input.board item) ∧
          ∃ mode, Storage.VersionMode.read input.project.layoutVersion = .ok mode) := by
  rw [← Storage.allocate_items hlayout, List.forall_mem_map, storageCode]
  cases hslots : layout.slots with
  | nil => exact .of_isOk ⟨_, rfl⟩ (by simp)
  | cons slot rest =>
    simp only [List.map_cons, ne_eq, reduceCtorEq, not_false_eq_true, forall_const]
    refine Decided.bind (.mapM fun s _ => initialization_decided input.board s) ?_
    intro statements _
    exact (readVersion_decided _).bind_total fun mode => ⟨_, rfl⟩

/-! ### The source -/

/-- The values that the components of a project publish. -/
def publishedValues (input : Input) (ns : String) : Published :=
  publishedFrom input ns input.project.components .empty {}

theorem prepareCore_of_ok {layout : Storage.Layout} {storage : StorageCode} {s : State}
    (hlayout : Storage.allocate input.project.storage = .ok layout)
    (hstorage : storageCode input s.privateNamespace layout = .ok storage) :
    prepareCore input s =
      ({ s with
          storageUsage := layout.usage
          storageExterns := layout.slots.map (·.externDeclaration)
          published :=
            (componentsCode input s.privateNamespace input.project.components .empty {}).1 },
        (componentsCode input s.privateNamespace input.project.components .empty {}).2.map
          (coreOutput input s.privateNamespace storage)) := by
  simp only [prepareCore, hlayout, hstorage]
  cases componentsCode input s.privateNamespace input.project.components .empty {} with
  | mk published result => cases result <;> rfl

theorem prepareCore_decided (h : Conforming input) (s : State) :
    Decided Refusal (prepareCore input s).2
      (StorageReady input ∧ ∀ c ∈ input.project.components, LoopersReady input c) := by
  cases hlayout : Storage.allocate input.project.storage with
  | error fault =>
    refine .of_error (by simp only [prepareCore, hlayout]) (.layout fault) ?_
    rintro ⟨⟨⟨layout, hok⟩, -⟩, -⟩
    rw [hlayout] at hok
    cases hok
  | ok layout =>
    have hstorage := (storageCode_decided s.privateNamespace hlayout).congr
      (Q := StorageReady input) ⟨fun hready => ⟨⟨layout, hlayout⟩, hready⟩, And.right⟩
    refine hstorage.andThen ?_ ?_
    · intro f hf
      simp only [prepareCore, hlayout, hf]
    · intro storage hok
      rw [prepareCore_of_ok hlayout hok]
      exact (componentsCode_decided h _ (fun c hc => hc) _ _).map _

theorem prepareCore_published (h : Conforming input) {s : State} {output : Output}
    (hcore : (prepareCore input s).2 = .ok output) :
    (prepareCore input s).1.published = publishedValues input s.privateNamespace := by
  cases hlayout : Storage.allocate input.project.storage with
  | error fault =>
    simp only [prepareCore, hlayout] at hcore
    cases hcore
  | ok layout =>
    cases hstorage : storageCode input s.privateNamespace layout with
    | error f =>
      simp only [prepareCore, hlayout, hstorage] at hcore
      cases hcore
    | ok storage =>
      rw [prepareCore_of_ok hlayout hstorage] at hcore ⊢
      cases hcode :
          (componentsCode input s.privateNamespace input.project.components .empty {}).2 with
      | error f =>
        rw [hcode] at hcore
        cases hcore
      | ok code => exact componentsCode_published h (fun c hc => hc) hcode

end Boardwright.Generation
