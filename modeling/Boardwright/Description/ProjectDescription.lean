import Boardwright.Description.Document
import Boardwright.Project
import Boardwright.Text.Numeral

/-!
# Descriptions of projects

A project is described by a `project`.  As with modules, the description is first read into entries of
the shape of the JSON text and then into the parts of a project.

* **`ProjectEntry`**: the entries.
* **`project`**: the parts of a project.
* **`loadProject`**: the project described by a file.
-/

namespace Boardwright.Description

open Json (Value Record Scalar)

/-! ### Entries -/

/-- An event of the program. -/
structure ProgramEventEntry where
  name : String
  handler : String

/-- The program. -/
structure ProgramEntry where
  watchdogLevel : Option Scalar := none
  events : List ProgramEventEntry := []
  imports : List String := []

/-- An item in permanent storage. -/
structure StoredItemEntry where
  kind : String
  name : String
  type : String
  value : Option Scalar
  description : String
  cached : Bool
  length : Option Int

/-- The permanent storage. -/
structure StorageEntry where
  layoutVersion : Option Scalar := none
  items : List StoredItemEntry := []

/-- A component. -/
structure ComponentEntry where
  type : String
  name : String
  description : String
  properties : List (String × Scalar)
  events : List (String × String)

/-- A project. -/
structure ProjectEntry where
  platform : String
  program : ProgramEntry
  storage : StorageEntry
  components : List ComponentEntry

/-! ### Shapes of entries -/

/-- The shape of an event of the program. -/
def ProgramEventEntry.ofValue? (v : Value) : Option ProgramEventEntry := do
  let r ← Record.ofValue? 2 v
  return ⟨← r.withDefault 0 "name" Json.Shape.text "",
    ← r.withDefault 1 "handler" Json.Shape.text ""⟩

/-- The shape of the program. -/
def ProgramEntry.ofValue? (v : Value) : Option ProgramEntry := do
  let r ← Record.ofValue? 3 v
  return ⟨← r.nullable 0 "watchdog-level" Scalar.ofValue?,
    ← r.withDefault 1 "events" (Json.Shape.list ProgramEventEntry.ofValue?) [],
    ← r.withDefault 2 "imports" (Json.Shape.list Json.Shape.text) []⟩

/-- The shape of an item in permanent storage. -/
def StoredItemEntry.ofValue? (v : Value) : Option StoredItemEntry := do
  let r ← Record.ofValue? 7 v
  return ⟨← r.withDefault 0 "kind" Json.Shape.text "",
    ← r.withDefault 1 "name" Json.Shape.text "",
    ← r.withDefault 2 "type" Json.Shape.text "",
    ← r.nullable 3 "value" Scalar.ofValue?,
    ← r.withDefault 4 "description" Json.Shape.text "",
    ← r.withDefault 5 "cached" Json.Shape.flag false,
    ← r.nullable 6 "length" Json.Shape.int64⟩

/-- The shape of the permanent storage. -/
def StorageEntry.ofValue? (v : Value) : Option StorageEntry := do
  let r ← Record.ofValue? 2 v
  return ⟨← r.nullable 0 "layout-version" Scalar.ofValue?,
    ← r.withDefault 1 "items" (Json.Shape.list StoredItemEntry.ofValue?) []⟩

/-- The shape of a component. -/
def ComponentEntry.ofValue? (v : Value) : Option ComponentEntry := do
  let r ← Record.ofValue? 5 v
  return ⟨← r.withDefault 0 "type" Json.Shape.text "",
    ← r.withDefault 1 "name" Json.Shape.text "",
    ← r.withDefault 2 "description" Json.Shape.text "",
    ← r.withDefault 3 "properties" (Json.Shape.members Scalar.ofValue?) [],
    ← r.withDefault 4 "events" (Json.Shape.members Json.Shape.text) []⟩

/-- The shape of a project. -/
def ProjectEntry.ofValue? (v : Value) : Option ProjectEntry := do
  let r ← Record.ofValue? 4 v
  return ⟨← r.withDefault 0 "platform" Json.Shape.text "",
    ← r.withDefault 1 "program" ProgramEntry.ofValue? {},
    ← r.withDefault 2 "eeprom" StorageEntry.ofValue? {},
    ← r.withDefault 3 "components" (Json.Shape.list ComponentEntry.ofValue?) []⟩

/-! ### Parts of a project -/

/-- A number that fits 32 bits without a sign. -/
def word32? (n : Int) : Option UInt32 :=
  if 0 ≤ n ∧ n < Text.word32Bound then some (UInt32.ofNat n.toNat) else none

/-- The level of the watchdog: a whole number, as a number or as a text. -/
def watchdogLevel (level : Scalar) : Except Failure UInt32 :=
  let number :=
    match level with
    | .int n => some n
    | .text s => Text.int64? (Text.trim s)
    | _ => none
  match number.bind word32? with
  | some n => .ok n
  | none => .error (.configuration "Watchdog level must be a non-negative integer.")

/-- The level of the watchdog, if there is one. -/
def watchdogLevel? : Option Scalar → Except Failure (Option UInt32)
  | none => .ok none
  | some level => (watchdogLevel level).map some

/-- An event of the program with its handler. -/
def programEvent (entry : ProgramEventEntry) : Except Failure (String × String) :=
  match Text.nonBlank? entry.name, Text.nonBlank? entry.handler with
  | none, _ => .error (.configuration "Program contains event with empty name.")
  | some name, none =>
    .error (.configuration s!"Program event {name} is not set to any function or procedure.")
  | some name, some handler => .ok (name, handler)

/-- An imported library. -/
def libraryImport (name : String) : Except Failure String :=
  match Text.nonBlank? name with
  | some name => .ok name
  | none => .error (.configuration "Program contains an empty import of a library module.")

/-- The number of elements of an item of the given kind, or nothing for a variable. -/
def itemLength (kind : String) (length : Option Int) : Except Failure (Option UInt32) :=
  let kind := Text.trim kind
  if kind = "" ∨ kind = "variable" then .ok none
  else if kind = "array" then
    match length.bind word32? with
    | some n => .ok (some n)
    | none => .error (.configuration "Length of array must be a nonnegative integer.")
  else .error (.configuration s!"Unknown kind of EEPROM item: '{kind}'.")

/-- An item in permanent storage. -/
def storedItem (entry : StoredItemEntry) : Except Failure StoredItem :=
  match Text.nonBlank? entry.name, Text.nonBlank? entry.type with
  | none, _ =>
    .error (.configuration "Name of an EEPROM item cannot be null or an empty string.")
  | some _, none =>
    .error (.configuration "Type of an EEPROM item cannot be null or an empty string.")
  | some name, some type => do
    let length ← itemLength entry.kind entry.length
    return {
      name := name
      type := type
      value := entry.value.map Scalar.toText
      description := Text.trim entry.description
      cached := entry.cached
      length := length }

/-- An item in permanent storage, with its name in failures. -/
def namedItem (entry : StoredItemEntry) : Except Failure StoredItem :=
  within ("Configuration of EEPROM item " ++ Text.trim entry.name ++ " contains errors.")
    (storedItem entry)

/-- The values of properties that a component sets, by trimmed names; of two values with one name the
one that is listed later counts. -/
def componentProperties (entries : List (String × Scalar)) : Dict String :=
  Dict.ofList (entries.map fun e => (Text.trim e.1, e.2.toText))

/-- The handlers of a component's events, by trimmed names; blank handlers do not count. -/
def componentEvents (entries : List (String × String)) : Dict String :=
  Dict.ofList (entries.filterMap fun e =>
    (Text.nonBlank? e.2).map fun handler => (Text.trim e.1, handler))

/-- A component. -/
def component (entry : ComponentEntry) : Except Failure Component :=
  match Text.nonBlank? entry.name, Text.nonBlank? entry.type with
  | none, _ => .error (.configuration "Component must have a non-empty name.")
  | some name, none =>
    .error (.configuration s!"Component {name} must have a non-empty type.")
  | some name, some type =>
    .ok
      { type := type
        name := name
        description := Text.trim entry.description
        properties := componentProperties entry.properties
        events := componentEvents entry.events }

/-- The parts of a project. -/
def project (entry : ProjectEntry) : Except Failure Project := do
  let level ← watchdogLevel? entry.program.watchdogLevel
  let events ← entry.program.events.mapM programEvent
  let imports ← entry.program.imports.mapM libraryImport
  let items ← entry.storage.items.mapM namedItem
  let components ← entry.components.mapM component
  let version := (entry.storage.layoutVersion.map Scalar.toText).getD ""
  return {
    platform := Text.trim entry.platform
    watchdogLevel := level
    components := components
    libraryImports := imports
    programEvents := Dict.ofList events
    storage := items
    layoutVersion := Text.trim version }

/-- The project described by a file, without the context of failures. -/
def readProject (tree : FileTree) (path : Path) : Except Failure Project := do
  let (tag, body) ← (readDocument tree path).mapError DocumentFault.toFailure
  if tag = "project" then
    let entry ← shaped tag ProjectEntry.ofValue? body
    project entry
  else
    .error (.configuration
      "Root element of a project configuration must be an element with name 'project'.")

/-- The project described by a file. -/
def loadProject (tree : FileTree) (path : Path) : Except Failure Project :=
  within "Loading of project configuration failed." (readProject tree path)

end Boardwright.Description
