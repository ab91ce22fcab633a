import Boardwright.Generation.LooperTable
import Boardwright.Generation.Pipeline
import Boardwright.Storage.Layout
import Boardwright.Storage.Version

/-!
# The source of the generated program

The source holds the objects of all components, the functions that forward to their methods, the stored
items, the table of loopers, and the program's `setup` and `loop`.  It is put together from one piece of
code per component.

* **`Code`**: collected code; pieces are put one after the other.
* **`Numbers`**: how many controllers, loopers and wrappers there are already.
* **`controllerCode`**, **`componentCode`**: the code of a component.
* **`storageCode`**: the code of the stored items.
* **`coreSource`**: the generator.
-/

namespace Boardwright.Generation

/-! ### Collected code -/

/-- Code collected from the parts of a project. -/
structure Code where
  /-- Lines that include headers. -/
  includes : List String := []
  /-- Heads of the user's functions. -/
  handlers : List String := []
  /-- Definitions of the objects that the user sees. -/
  publicObjects : List String := []
  /-- Definitions of the other objects. -/
  privateObjects : List String := []
  /-- Lines of `setup`. -/
  setup : List String := []
  /-- Lines of `loop`. -/
  loop : List String := []
  /-- Loopers. -/
  loopers : List LooperRecord := []
  /-- Declarations of forwarding functions. -/
  wrapperDeclarations : List String := []
  /-- Definitions of forwarding functions. -/
  wrapperDefinitions : List String := []
  deriving DecidableEq

/-- Two pieces of code, one after the other. -/
def Code.append (a b : Code) : Code where
  includes := a.includes ++ b.includes
  handlers := a.handlers ++ b.handlers
  publicObjects := a.publicObjects ++ b.publicObjects
  privateObjects := a.privateObjects ++ b.privateObjects
  setup := a.setup ++ b.setup
  loop := a.loop ++ b.loop
  loopers := a.loopers ++ b.loopers
  wrapperDeclarations := a.wrapperDeclarations ++ b.wrapperDeclarations
  wrapperDefinitions := a.wrapperDefinitions ++ b.wrapperDefinitions

instance : Append Code := ⟨Code.append⟩

/-- How many objects of each sort there are already. -/
structure Numbers where
  /-- Controllers. -/
  controllers : Nat := 0
  /-- Loopers. -/
  loopers : Nat := 0
  /-- Forwarding functions. -/
  wrappers : Nat := 0
  deriving DecidableEq, Repr

/-- The numbers after a component of a type. -/
def Numbers.next (n : Numbers) (t : ComponentType) : Numbers :=
  if t.controller.isSome then
    ⟨n.controllers + 1, n.loopers + t.loopers.length, n.wrappers + t.methodWrappers.length⟩
  else n

/-! ### Controllers -/

/-- The name of a controller inside its namespace. -/
def controllerName (i : Nat) : String :=
  s!"controller_{i}"

/-- The name of a forwarding function inside its namespace. -/
def wrapperName (i : Nat) : String :=
  s!"method_wrapper_{i}"

/-- A name with its namespace. -/
def qualify (ns name : String) : String :=
  ns ++ "::" ++ name

/-- The statements that tell a controller the numbers of its loopers, from number `i` on. -/
def looperIdLines (object : String) (i : Nat) : List Looper → List String
  | [] => []
  | l :: rest =>
    (match l.idBinding with
      | some b => [b.statement object (toString i)]
      | none => []) ++ looperIdLines object (i + 1) rest

/-- The records of the loopers of a component. -/
def looperRecords (object : String) (c : Component) (t : ComponentType) :
    Except Failure (List LooperRecord) :=
  t.loopers.mapM fun l => LooperRecord.resolve object l.method l.interval l.initialDelay c t

/-- The statement that hands a property's value to a controller. -/
def propertyLine (object : String) (c : Component) (p : Property) : Except Failure (List String) :=
  match p.binding with
  | none => .ok []
  | some b =>
    match propertyLiteral? c p with
    | some v => .ok [b.statement object v]
    | none =>
      .error (.compilation
        ("Invalid or undefined value of property " ++ p.name ++ " of component " ++ c.name ++ "."))

/-- The statements that hand the values of properties to a controller. -/
def propertyLines (object : String) (c : Component) (t : ComponentType) :
    Except Failure (List String) := do
  let lines ← t.properties.mapM (propertyLine object c)
  return lines.flatten

/-- The statement that hands an event's handler to a controller. -/
def eventLine (object : String) (c : Component) (e : Event) : List String :=
  match e.binding with
  | none => []
  | some b => [b.statement object ((c.events.get? e.name).getD "NULL")]

/-- The head of an event's handler, if the event is bound and handled. -/
def eventHandler (c : Component) (e : Event) : List String :=
  match e.binding, c.events.get? e.name with
  | some _, some handler => [e.handlerHead handler false]
  | _, _ => []

/-- The lines of a forwarding function. -/
def wrapperDefinition (object name : String) (w : MethodWrapper) : List String :=
  let call := w.call (object ++ "." ++ w.method)
  let body := if w.returnsValue then "return " ++ call ++ ";" else call ++ ";"
  [w.head name ++ " \x7b", Template.indent ++ body, "\x7d", ""]

/-- Wrappers with the names of their forwarding functions, from number `i` on. -/
def namedWrappers (i : Nat) : List MethodWrapper → List (String × MethodWrapper)
  | [] => []
  | w :: rest => (wrapperName i, w) :: namedWrappers (i + 1) rest

/-- The name by which a wrapper is published, if it has one that is not blank. -/
def publishedName? (w : MethodWrapper) : Option String :=
  w.publishedAs.bind Text.nonBlank?

/-- The values that the wrappers of a component publish. -/
def publishWrappers (ns component : String) (published : Published)
    (ws : List (String × MethodWrapper)) : Published :=
  ws.foldl (fun p w =>
    match publishedName? w.2 with
    | some key => p.put component key (qualify ns w.1)
    | none => p) published

/-- The statements that hand forwarding functions to a controller. -/
def wrapperLines (ns object : String) (ws : List (String × MethodWrapper)) : List String :=
  ws.flatMap fun w =>
    match w.2.binding with
    | some b => [b.statement object (qualify ns w.1)]
    | none => []

/-- The statement that hands a component's view to its controller. -/
def viewLine (object : String) (c : Component) (t : ComponentType) : List String :=
  match t.view, t.viewBinding with
  | some _, some b => [b.statement object c.name]
  | _, _ => []

/-- The statement of a call, if there is one. -/
def callLine (call : Option MethodCall) (object : String) (r : Template.Replacements) :
    List String :=
  match call with
  | some call => [callStatement call object r]
  | none => []

/-- Lines under a comment; without lines there is no comment either. -/
def commented (comment : String) (lines : List String) : List String :=
  if lines.isEmpty then [] else comment :: lines

/-- The code of a component's controller and the values published afterwards. -/
def controllerCode (ns : String) (published : Published) (n : Numbers) (c : Component)
    (t : ComponentType) (controller : Instance) : Published × Except Failure Code :=
  let name := controllerName n.controllers
  let object := qualify ns name
  let published := published.put c.name "controller" object
  match looperRecords object c t with
  | .error f => (published, .error f)
  | .ok records =>
    match propertyLines object c t with
    | .error f => (published, .error f)
    | .ok values =>
      let wrappers := namedWrappers n.wrappers t.methodWrappers
      let published := publishWrappers ns c.name published wrappers
      let r := replacements published c t
      let comment := "// Controller for " ++ c.name
      let setup :=
        looperIdLines object n.loopers t.loopers ++ values ++ t.events.flatMap (eventLine object c)
          ++ wrapperLines ns object wrappers ++ viewLine object c t
          ++ callLine controller.init object r
      (published, .ok
        { includes := controller.includes.map (includeLine c.type)
          handlers := t.events.flatMap (eventHandler c)
          privateObjects := [comment, definition controller name r]
          setup := commented comment setup
          loop := callLine controller.loop object r
          loopers := records
          wrapperDeclarations := wrappers.map fun w => w.2.head w.1 ++ ";"
          wrapperDefinitions := wrappers.flatMap fun w => wrapperDefinition object w.1 w.2 })

/-! ### Components -/

/-- The code of a component's view. -/
def viewCode (published : Published) (c : Component) (t : ComponentType) (view : Instance) : Code :=
  { includes := view.includes.map (includeLine c.type)
    publicObjects := [definition view c.name (replacements published c t)] }

/-- The code of a component's view, if its type has one. -/
def viewCodeOf (published : Published) (c : Component) (t : ComponentType) : Code :=
  match t.view with
  | some view => viewCode published c t view
  | none => {}

/-- The code of a component and the values published afterwards. -/
def componentCode (ns : String) (published : Published) (n : Numbers) (c : Component)
    (t : ComponentType) : Published × Except Failure Code :=
  match t.controller with
  | none => (published, .ok (viewCodeOf published c t))
  | some controller =>
    match controllerCode ns published n c t controller with
    | (published, .error f) => (published, .error f)
    | (published, .ok code) => (published, .ok (code ++ viewCodeOf published c t))

/-- The code of all components. -/
def componentsCode (input : Input) (ns : String) :
    List Component → Published → Numbers → Published × Except Failure Code
  | [], published, _ => (published, .ok {})
  | c :: rest, published, n =>
    match input.componentType c with
    | .error f => (published, .error f)
    | .ok t =>
      match componentCode ns published n c t with
      | (published, .error f) => (published, .error f)
      | (published, .ok code) =>
        match componentsCode input ns rest published (n.next t) with
        | (published, .error f) => (published, .error f)
        | (published, .ok others) => (published, .ok (code ++ others))

/-! ### Stored items -/

/-- The header of the classes for stored items, below the directory of headers. -/
def storageHeaderFile : String := "acp/eeprom_vars.h"

/-- The code of the stored items. -/
structure StorageCode where
  /-- Lines that include headers. -/
  includes : List String := []
  /-- Definitions of the items. -/
  definitions : List String := []
  /-- Statements that store the first values. -/
  initialization : List String := []
  /-- Lines of `setup`. -/
  setup : List String := []
  deriving DecidableEq

/-- The lines of `setup` for stored items. -/
def storageSetup (ns : String) (slots : List Storage.Slot) (version : Nat) : List String :=
  let number := toString version ++ "ul"
  ["// Initialize eeprom variables", "eeprom_busy_wait();"]
    ++ slots.map (fun s => s.item.name ++ ".init();")
    ++ ["// Set default value of eeprom variables (if necessary)",
        "if (!" ++ ns ++ "::checkEepromVersion(" ++ number ++ ")) \x7b",
        Template.indent ++ ns ++ "::initializeEepromVars();",
        Template.indent ++ ns ++ "::writeEepromVersion(" ++ number ++ ");",
        "\x7d"]

/-- The code of the stored items; nothing without items. -/
def storageCode (input : Input) (ns : String) (layout : Storage.Layout) :
    Except Failure StorageCode := do
  if layout.slots.isEmpty then return {}
  let statements ← layout.slots.mapM fun s => s.initialization input.board
  let mode ← Storage.VersionMode.read input.project.layoutVersion
  let version := mode.version input.chance layout.declarations
  return {
    includes := ["#include <" ++ storageHeaderFile ++ ">"]
    definitions := layout.declarations
    initialization := statements.filterMap id
    setup := storageSetup ns layout.slots version }

/-! ### The program -/

/-- The lines that raise an event of the program. -/
def programEventLines (p : Project) (event : String) : List String :=
  match p.programEvents.get? event with
  | some handler => ["// Call of the " ++ event ++ " event", handler ++ "();"]
  | none => []

/-- The head of the handler of an event of the program. -/
def programEventHandler (p : Project) (event : String) : List String :=
  match p.programEvents.get? event with
  | some handler => ["void " ++ handler ++ "()"]
  | none => []

/-- The lines of `setup` of the whole program. -/
def programSetup (input : Input) (storage : StorageCode) (code : Code) : List String :=
  let lines := storage.setup ++ code.setup ++ programEventLines input.project Project.onStart
  match input.project.watchdogLevel with
  | none => lines
  | some requested =>
    let level := toString (input.board.watchdogLevel requested).toNat
    "wdt_disable();" :: lines ++ ["wdt_enable(" ++ level ++ ");"]

/-- The lines of `loop` of the whole program. -/
def programLoop (input : Input) (ns : String) (code : Code) : List String :=
  let lines :=
    code.loop ++ looperLoop code.loopers ns ++ programEventLines input.project Project.onLoop
  if input.project.watchdogLevel.isSome then "wdt_reset();" :: lines else lines

/-- The headers that the whole program includes. -/
def programIncludes (input : Input) (storage : StorageCode) (code : Code) : List String :=
  let watchdog := if input.project.watchdogLevel.isSome then ["#include <avr/wdt.h>"] else []
  Text.dedupLines (storage.includes ++ code.includes ++ watchdog)

/-- The declarations of the user's functions. -/
def programHandlers (input : Input) (code : Code) : List String :=
  let heads :=
    code.handlers ++ programEventHandler input.project Project.onStart
      ++ programEventHandler input.project Project.onLoop
  (Text.dedupLines heads).map fun h => "extern " ++ h ++ ";"

/-- What the template of the source is filled with. -/
def coreOutput (input : Input) (ns : String) (storage : StorageCode) (code : Code) : Output :=
  Dict.ofList
    [("includes", Text.mergeLines (programIncludes input storage code) ""),
     ("handlers", Text.mergeLines (programHandlers input code) ""),
     ("publicObjects", Text.mergeLines code.publicObjects ""),
     ("privateNamespace", ns),
     ("privateObjects", Text.mergeLines code.privateObjects Template.indent),
     ("loopersSection", looperSection code.loopers ns),
     ("methodWrapperDeclarations", Text.mergeLines code.wrapperDeclarations Template.indent),
     ("methodWrappersSection", Text.mergeLines code.wrapperDefinitions ""),
     ("eepromVars", Text.mergeLines storage.definitions ""),
     ("eepromVarsInitialization", Text.mergeLines storage.initialization Template.indent),
     ("setup", Text.mergeLines (programSetup input storage code) Template.indent),
     ("loop", Text.mergeLines (programLoop input ns code) Template.indent)]

/-- Prepares the source.  The published values start anew; usage and declarations of stored items are
set as soon as their places are known. -/
def prepareCore (input : Input) (s : State) : State × Except Failure Output :=
  let s := { s with published := .empty }
  match Storage.allocate input.project.storage with
  | .error fault => (s, .error fault.toFailure)
  | .ok layout =>
    let s :=
      { s with
        storageUsage := layout.usage
        storageExterns := layout.slots.map (·.externDeclaration) }
    match storageCode input s.privateNamespace layout with
    | .error f => (s, .error f)
    | .ok storage =>
      match componentsCode input s.privateNamespace input.project.components .empty {} with
      | (published, .error f) => ({ s with published := published }, .error f)
      | (published, .ok code) =>
        ({ s with published := published }, .ok (coreOutput input s.privateNamespace storage code))

/-- The generator of the source. -/
def coreSource (input : Input) : Generator State Artifacts where
  name := "project-code"
  prepare := prepareCore input
  generate _ output artifacts :=
    save artifacts (input.settings.sourceDirectory.join "core.cpp")
      (Template.fill StoredTemplate.coreSource.text output)

end Boardwright.Generation
