import Boardwright.Proofs.PlacedControllers
import Boardwright.Proofs.StoredItems

/-!
# The shape of `setup` and `loop`

The lines of `setup` and `loop` come from the watchdog, the stored items, the controllers, the loopers
and the events of the program.  Whatever a project has of these, their lines stand in a fixed order: the
watchdog is off while everything else is set up, and stored items are ready before the first controller.

* **`watchdogLines`**, **`raisedLines`**, **`readyLines`**, **`StorageBlock`**: the lines that do not
  belong to a component.
* **`programSetup_eq`**, **`programLoop_eq`**: the order of the lines.
* **`setupBlock_cases`**: a controller has no comment without a statement.
* **`ProgramShape`**, **`programShape_of_prepareCore`**: `setup` and `loop` of a project.
-/

namespace Boardwright.Generation

open Storage

variable {input : Input} {ns : String}

/-! ### Lines of the program -/

/-- A line that is there if the watchdog is used.  It is given the level, which is at most that of the
board. -/
def watchdogLines (input : Input) (line : ℕ → String) : List String :=
  (input.project.watchdogLevel.map fun level =>
    line (min level.toNat input.board.maxWatchdogLevel.toNat)).toList

/-- The lines that call the handler of an event of the program, if it has one. -/
def raisedLines (input : Input) (event : String) : List String :=
  (input.project.programEvents.get? event).toList.flatMap fun handler =>
    ["// Call of the " ++ event ++ " event", handler ++ "();"]

/-- The lines of `setup` that make items ready and write their first values unless a version is found
that tells that they were written before. -/
def readyLines (ns : String) (items : List StoredItem) (version : ℕ) : List String :=
  ["// Initialize eeprom variables", "eeprom_busy_wait();"]
  ++ items.map (fun item => item.name ++ ".init();")
  ++ ["// Set default value of eeprom variables (if necessary)",
    "if (!" ++ ns ++ "::checkEepromVersion(" ++ toString version ++ "ul)) \x7b",
    "  " ++ ns ++ "::initializeEepromVars();",
    "  " ++ ns ++ "::writeEepromVersion(" ++ toString version ++ "ul);",
    "\x7d"]

/-- The lines of `setup` for the stored items: none without items, and with items a version that the
project has a rule for. -/
inductive StorageBlock (input : Input) (ns : String) : List String → Prop where
  | none : input.project.storage = [] → StorageBlock input ns []
  | some {layout : Layout} {mode : VersionMode} :
      input.project.storage ≠ [] →
      allocate input.project.storage = .ok layout →
      VersionMode.read input.project.layoutVersion = .ok mode →
      StorageBlock input ns
        (readyLines ns input.project.storage (mode.version input.chance layout.declarations))

theorem toNat_watchdogLevel (b : Board) (requested : UInt32) :
    (b.watchdogLevel requested).toNat = min requested.toNat b.maxWatchdogLevel.toNat := by
  unfold Board.watchdogLevel
  split
  · next h => rw [Nat.min_eq_left (UInt32.le_iff_toNat_le.1 h)]
  · next h =>
    have hlt := mt UInt32.le_iff_toNat_le.2 h
    omega

theorem programEventLines_eq (event : String) :
    programEventLines input.project event = raisedLines input event := by
  unfold programEventLines raisedLines
  cases input.project.programEvents.get? event with
  | none => rfl
  | some handler => rfl

theorem storageSetup_eq {items : List StoredItem} {layout : Layout} (h : allocate items = .ok layout)
    (ns : String) (version : ℕ) : storageSetup ns layout.slots version = readyLines ns items version := by
  rw [storageSetup, readyLines, ← allocate_items h, List.map_map]
  simp only [String.append_assoc]
  rfl

theorem storageBlock_of_storageCode {layout : Layout} {storage : StorageCode}
    (hlayout : allocate input.project.storage = .ok layout)
    (h : storageCode input ns layout = .ok storage) :
    StorageBlock input ns storage.setup := by
  rcases storageCode_eq_ok_iff.1 h with hnone | hsome
  · obtain ⟨hslots, rfl⟩ := hnone
    exact .none ((slots_eq_nil_iff hlayout).1 hslots)
  · obtain ⟨hslots, statements, mode, -, hmode, rfl⟩ := hsome
    show StorageBlock input ns (storageSetup ns layout.slots _)
    rw [storageSetup_eq hlayout]
    exact .some (mt (slots_eq_nil_iff hlayout).2 hslots) hlayout hmode

/-! ### Order -/

theorem programSetup_eq (storage : StorageCode) (code : Code) :
    programSetup input storage code =
      watchdogLines input (fun _ => "wdt_disable();") ++ storage.setup ++ code.setup
        ++ raisedLines input Project.onStart
        ++ watchdogLines input (fun level => "wdt_enable(" ++ toString level ++ ");") := by
  unfold programSetup watchdogLines
  rw [programEventLines_eq]
  cases input.project.watchdogLevel with
  | none => simp
  | some requested => simp [toNat_watchdogLevel]

theorem programLoop_eq (code : Code) :
    programLoop input ns code =
      watchdogLines input (fun _ => "wdt_reset();") ++ code.loop ++ looperLoop code.loopers ns
        ++ raisedLines input Project.onLoop := by
  unfold programLoop watchdogLines
  rw [programEventLines_eq]
  cases input.project.watchdogLevel with
  | none => simp
  | some requested => simp

/-- Loopers are called if a component has one that its controller can run. -/
theorem Code.ConsistsOf.looperLoop_eq {code : Code} (h : code.ConsistsOf ns (placedControllers input)) :
    looperLoop code.loopers ns =
      if (input.project.components.flatMap (calledLoopers input)).isEmpty then []
      else ["// Process loopers", ns ++ "::processLoopers();"] := by
  have hlength : code.loopers.length =
      (input.project.components.flatMap (calledLoopers input)).length := by
    rw [h.loopers, placedControllers, flatMap_placedFrom (·.loopers), calledLoopers_eq_ofController]
  have hempty : code.loopers.isEmpty =
      (input.project.components.flatMap (calledLoopers input)).isEmpty := by
    rw [Bool.eq_iff_iff, List.isEmpty_iff_length_eq_zero, List.isEmpty_iff_length_eq_zero, hlength]
  rw [looperLoop, hempty]

/-! ### Blocks -/

theorem commented_cases (comment : String) (lines : List String) :
    commented comment lines = [] ∨
      ∃ statement rest, commented comment lines = comment :: statement :: rest := by
  cases lines with
  | nil => exact .inl rfl
  | cons statement rest => exact .inr ⟨statement, rest, rfl⟩

/-- A controller has no comment without a statement. -/
theorem setupBlock_cases (ns : String) (n : Numbers) (c : Component) (t : ComponentType) :
    setupBlock ns n c t = [] ∨
      ∃ statement rest, setupBlock ns n c t = ("// Controller for " ++ c.name) :: statement :: rest := by
  unfold setupBlock
  split
  · exact .inl rfl
  · exact commented_cases _ _

/-! ### The source -/

/-- `setup` and `loop` in the source of a project with these controllers. -/
structure ProgramShape (input : Input) (ns : String) (placed : List PlacedController)
    (output : Output) : Prop where
  /-- There is one controller for each component whose type has one, in the order of the project. -/
  components : placed.map (·.component) = input.project.components.filter (hasController input)
  /-- A controller has the type of its component and the numbers of what the components before have. -/
  places : ∀ x ∈ placed, ∃ earlier later, input.project.components = earlier ++ x.component :: later ∧
    input.componentType x.component = .ok x.type ∧ x.counts = countsOf input earlier
  setup : ∃ storage, StorageBlock input ns storage ∧ output.get? "setup" = some (Text.mergeLines
    (watchdogLines input (fun _ => "wdt_disable();")
      ++ storage
      ++ placed.flatMap (fun x => setupBlock ns x.counts x.component x.type)
      ++ raisedLines input Project.onStart
      ++ watchdogLines input (fun level => "wdt_enable(" ++ toString level ++ ");")) Template.indent)
  loop : output.get? "loop" = some (Text.mergeLines
    (watchdogLines input (fun _ => "wdt_reset();")
      ++ placed.flatMap (fun x => loopBlock ns x.counts x.component x.type)
      ++ (if (input.project.components.flatMap (calledLoopers input)).isEmpty then []
        else ["// Process loopers", ns ++ "::processLoopers();"])
      ++ raisedLines input Project.onLoop) Template.indent)
  /-- A controller has no comment without a statement. -/
  blocks : ∀ x ∈ placed, setupBlock ns x.counts x.component x.type = [] ∨
    ∃ statement rest, setupBlock ns x.counts x.component x.type =
      ("// Controller for " ++ x.component.name) :: statement :: rest

/-- **Setup and loop have a fixed shape.**  When no two components have one name, the lines of a
component depend on nothing but its place in the project. -/
theorem programShape_of_prepareCore {s s' : State} {output : Output}
    (hnames : (input.project.components.map (·.name)).Nodup)
    (h : prepareCore input s = (s', .ok output)) :
    ProgramShape input s.privateNamespace (placedControllers input) output := by
  obtain ⟨layout, storage, published, code, hlayout, hstorage, hcode, rfl, rfl⟩ :=
    prepareCore_eq_ok_iff.1 h
  have hconsists := hcode.consistsOf_placedControllers hnames
  constructor
  case components => exact map_component_placedFrom input [] input.project.components
  case places => exact fun x hx => exists_of_mem_placedFrom hx
  case setup =>
    refine ⟨storage.setup, storageBlock_of_storageCode hlayout hstorage, ?_⟩
    rw [← hconsists.setup, ← programSetup_eq]
    simp [coreOutput, Dict.ofList, Dict.get?_insert]
  case loop =>
    rw [← hconsists.loop, ← hconsists.looperLoop_eq, ← programLoop_eq]
    simp [coreOutput, Dict.ofList]
  case blocks => exact fun x _ => setupBlock_cases _ _ _ _

/-- A type whose controller is called in each pass of the loop, but needs nothing at the start. -/
def fanType : ComponentType where
  controller := some { classType := "Fan", loop := some ⟨"spin", ""⟩ }

/-- A project with a fan before a component that pulses, which uses everything else as well. -/
def ventilation : Input :=
  { pulses with
    project :=
      { watchdogLevel := some 12
        components := [{ type := "m.fan", name := "fan" }, pulse "light" "40"]
        programEvents := (Dict.empty.insert Project.onStart "begin").insert Project.onLoop "turn"
        storage := [{ name := "count", type := "int", value := some "7" }]
        layoutVersion := "5" }
    modules := pulses.modules.insert "m.fan" ⟨"m.fan", ⟨"m/fan"⟩, [], [], .componentType fanType⟩ }

theorem programShape_ventilation :
    (ventilation.project.components.map (·.name)).Nodup ∧
      ∃ s' output, prepareCore ventilation ⟨"acp", 0, [], .empty⟩ = (s', .ok output) ∧
        ProgramShape ventilation "acp" (placedControllers ventilation) output ∧
        output.get? "setup" = some (Text.mergeLines
          ["wdt_disable();", "// Initialize eeprom variables", "eeprom_busy_wait();", "count.init();",
            "// Set default value of eeprom variables (if necessary)",
            "if (!acp::checkEepromVersion(5ul)) \x7b", "  acp::initializeEepromVars();",
            "  acp::writeEepromVersion(5ul);", "\x7d",
            "// Controller for light", "acp::controller_1.fader = 1;",
            "// Call of the OnStart event", "begin();", "wdt_enable(9);"] "  ") ∧
        output.get? "loop" = some (Text.mergeLines
          ["wdt_reset();", "acp::controller_0.spin();", "// Process loopers", "acp::processLoopers();",
            "// Call of the OnLoop event", "turn();"] "  ") := by
  have hnames : (ventilation.project.components.map (·.name)).Nodup := by decide
  have hready : (prepareCore ventilation ⟨"acp", 0, [], .empty⟩).2.toOption.isSome = true := by
    decide +kernel
  obtain ⟨output, h⟩ := exists_ok hready
  have hshape := programShape_of_prepareCore hnames h
  obtain ⟨storage, hstorage, hsetup⟩ := hshape.setup
  refine ⟨hnames, _, output, h, hshape, ?_, ?_⟩
  · rw [hsetup]
    cases hstorage with
    | none hitems => cases hitems
    | @some layout mode _ _ hmode =>
      have hfixed : VersionMode.read ventilation.project.layoutVersion = .ok (.fixed 5) := by
        decide +kernel
      cases hfixed.symm.trans hmode
      show some (Text.mergeLines
        (_ ++ readyLines "acp" ventilation.project.storage 5 ++ _ ++ _ ++ _) _) = _
      decide +kernel
  · rw [hshape.loop]
    decide +kernel

end Boardwright.Generation
