import Boardwright.Description.Document
import Boardwright.Module

/-!
# Descriptions of modules

A module is described as a `component-type` or a `library`.  The description is first read into
entries, which have the shape of the JSON text, and then into the declarations of a module, where
texts lose the blanks around them and names that must not be blank are checked.

* **`ComponentTypeEntry`**, **`LibraryEntry`**: the entries.
* **`componentType`**: the declarations of a component type, which keep its contract.
* **`loadModule`**: the module described by a file.
-/

namespace Boardwright.Description

open Json (Value Record Scalar)

/-! ### Entries -/

/-- A library of the board that a module needs. -/
structure PlatformLibraryEntry where
  includes : String
  name : String

/-- What a module needs. -/
structure DependenciesEntry where
  modules : List String := []
  platformLibraries : List PlatformLibraryEntry := []

/-- What all modules have in common. -/
structure HeaderEntry where
  name : String
  dependencies : DependenciesEntry

/-- A library. -/
structure LibraryEntry where
  header : HeaderEntry
  includes : List String

/-- A call. -/
structure CallEntry where
  method : String
  arguments : String

/-- A binding. -/
structure BindingEntry where
  kind : String
  target : String

/-- An object. -/
structure InstanceEntry where
  includes : List String
  classType : String
  constructor : Option String
  init : Option CallEntry
  loop : Option CallEntry

/-- A controller. -/
structure ControllerEntry where
  object : InstanceEntry
  viewBinding : Option BindingEntry

/-- A predefined value. -/
structure ValueEntry where
  value : Scalar
  kind : String

/-- A property. -/
structure PropertyEntry where
  name : String
  type : String
  value : Option ValueEntry
  binding : Option BindingEntry
  description : String

/-- A parameter. -/
structure ParameterEntry where
  type : String
  name : Option String

/-- An event. -/
structure EventEntry where
  name : String
  parameters : List ParameterEntry
  result : Option String
  binding : Option BindingEntry
  description : String

/-- A looper. -/
structure LooperEntry where
  method : String
  interval : Option Scalar
  initialDelay : Option Scalar
  idBinding : Option BindingEntry

/-- A wrapped method. -/
structure WrapperEntry where
  method : String
  parameters : List ParameterEntry
  result : Option String
  publishedAs : Option String
  binding : Option BindingEntry

/-- A component type. -/
structure ComponentTypeEntry where
  header : HeaderEntry
  view : Option InstanceEntry
  controller : Option ControllerEntry
  properties : List PropertyEntry
  events : List EventEntry
  loopers : List LooperEntry
  methodWrappers : List WrapperEntry

/-! ### Shapes of entries -/

/-- A list of texts. -/
def texts : Value → Option (List String) :=
  Json.Shape.list Json.Shape.text

/-- The shape of a library of the board. -/
def PlatformLibraryEntry.ofValue? (v : Value) : Option PlatformLibraryEntry := do
  let r ← Record.ofValue? 2 v
  return ⟨← r.withDefault 0 "include" Json.Shape.text "", ← r.withDefault 1 "name" Json.Shape.text ""⟩

/-- The shape of what a module needs. -/
def DependenciesEntry.ofValue? (v : Value) : Option DependenciesEntry := do
  let r ← Record.ofValue? 2 v
  return ⟨← r.withDefault 0 "modules" texts [],
    ← r.withDefault 1 "platform-libraries" (Json.Shape.list PlatformLibraryEntry.ofValue?) []⟩

/-- The members that all modules have in common. -/
def HeaderEntry.ofRecord? (r : Record) : Option HeaderEntry := do
  return ⟨← r.withDefault 0 "name" Json.Shape.text "",
    ← r.withDefault 1 "dependencies" DependenciesEntry.ofValue? {}⟩

/-- The shape of a library. -/
def LibraryEntry.ofValue? (v : Value) : Option LibraryEntry := do
  let r ← Record.namedOfValue? v
  return ⟨← HeaderEntry.ofRecord? r, ← r.withDefault 0 "includes" texts []⟩

/-- The shape of a call. -/
def CallEntry.ofValue? (v : Value) : Option CallEntry := do
  let r ← Record.ofValue? 2 v
  return ⟨← r.required 0 "method" Json.Shape.text,
    ← r.withDefault 1 "arguments" Json.Shape.text ""⟩

/-- The shape of a binding. -/
def BindingEntry.ofValue? (v : Value) : Option BindingEntry := do
  let r ← Record.ofValue? 2 v
  return ⟨← r.withDefault 0 "type" Json.Shape.text "", ← r.withDefault 1 "target" Json.Shape.text ""⟩

/-- The members of an object. -/
def InstanceEntry.ofRecord? (r : Record) : Option InstanceEntry := do
  return ⟨← r.withDefault 0 "includes" texts [],
    ← r.withDefault 1 "class" Json.Shape.text "",
    ← r.nullable 2 "constructor" Json.Shape.text,
    ← r.nullable 3 "init" CallEntry.ofValue?,
    ← r.nullable 4 "loop" CallEntry.ofValue?⟩

/-- The shape of an object. -/
def InstanceEntry.ofValue? (v : Value) : Option InstanceEntry := do
  InstanceEntry.ofRecord? (← Record.ofValue? 5 v)

/-- The shape of a controller. -/
def ControllerEntry.ofValue? (v : Value) : Option ControllerEntry := do
  let r ← Record.namedOfValue? v
  return ⟨← InstanceEntry.ofRecord? r, ← r.nullable 0 "view-binding" BindingEntry.ofValue?⟩

/-- The shape of a predefined value. -/
def ValueEntry.ofValue? (v : Value) : Option ValueEntry := do
  let r ← Record.ofValue? 2 v
  return ⟨← r.required 0 "value" Scalar.ofValue?, ← r.withDefault 1 "kind" Json.Shape.text ""⟩

/-- The shape of a property. -/
def PropertyEntry.ofValue? (v : Value) : Option PropertyEntry := do
  let r ← Record.ofValue? 5 v
  return ⟨← r.withDefault 0 "name" Json.Shape.text "",
    ← r.withDefault 1 "type" Json.Shape.text "",
    ← r.nullable 2 "value" ValueEntry.ofValue?,
    ← r.nullable 3 "binding" BindingEntry.ofValue?,
    ← r.withDefault 4 "description" Json.Shape.text ""⟩

/-- The shape of a parameter. -/
def ParameterEntry.ofValue? (v : Value) : Option ParameterEntry := do
  let r ← Record.ofValue? 2 v
  return ⟨← r.withDefault 0 "type" Json.Shape.text "", ← r.nullable 1 "name" Json.Shape.text⟩

/-- The shape of an event. -/
def EventEntry.ofValue? (v : Value) : Option EventEntry := do
  let r ← Record.ofValue? 5 v
  return ⟨← r.withDefault 0 "name" Json.Shape.text "",
    ← r.withDefault 1 "parameters" (Json.Shape.list ParameterEntry.ofValue?) [],
    ← r.nullable 2 "result" Json.Shape.text,
    ← r.nullable 3 "binding" BindingEntry.ofValue?,
    ← r.withDefault 4 "description" Json.Shape.text ""⟩

/-- The shape of a looper. -/
def LooperEntry.ofValue? (v : Value) : Option LooperEntry := do
  let r ← Record.ofValue? 4 v
  return ⟨← r.withDefault 0 "method" Json.Shape.text "",
    ← r.nullable 1 "interval" Scalar.ofValue?,
    ← r.nullable 2 "initial-delay" Scalar.ofValue?,
    ← r.nullable 3 "id-binding" BindingEntry.ofValue?⟩

/-- The shape of a wrapped method. -/
def WrapperEntry.ofValue? (v : Value) : Option WrapperEntry := do
  let r ← Record.ofValue? 5 v
  return ⟨← r.withDefault 0 "method" Json.Shape.text "",
    ← r.withDefault 1 "parameters" (Json.Shape.list ParameterEntry.ofValue?) [],
    ← r.nullable 2 "result" Json.Shape.text,
    ← r.nullable 3 "autogenerated-property" Json.Shape.text,
    ← r.nullable 4 "binding" BindingEntry.ofValue?⟩

/-- The shape of a component type. -/
def ComponentTypeEntry.ofValue? (v : Value) : Option ComponentTypeEntry := do
  let r ← Record.namedOfValue? v
  return ⟨← HeaderEntry.ofRecord? r,
    ← r.nullable 0 "view" InstanceEntry.ofValue?,
    ← r.nullable 0 "controller" ControllerEntry.ofValue?,
    ← r.withDefault 0 "properties" (Json.Shape.list PropertyEntry.ofValue?) [],
    ← r.withDefault 0 "events" (Json.Shape.list EventEntry.ofValue?) [],
    ← r.withDefault 0 "loopers" (Json.Shape.list LooperEntry.ofValue?) [],
    ← r.withDefault 0 "method-wrappers" (Json.Shape.list WrapperEntry.ofValue?) []⟩

/-! ### Declarations -/

/-- A binding whose target is not blank. -/
def binding (entry : BindingEntry) : Except Failure Binding := do
  let kind ← Binding.Kind.read entry.kind
  match Text.nonBlank? entry.target with
  | some target => return ⟨kind, target⟩
  | none => .error (.configuration "Binding target cannot be empty.")

/-- A binding, if there is one. -/
def binding? : Option BindingEntry → Except Failure (Option Binding)
  | none => .ok none
  | some entry => (binding entry).map some

/-- A call whose method is not blank. -/
def call? (entry : Option CallEntry) : Option MethodCall :=
  entry.bind fun e => (Text.nonBlank? e.method).map fun m => ⟨m, Text.trim e.arguments⟩

/-- An object whose class is not blank. -/
def object (entry : InstanceEntry) : Except Failure Instance :=
  match Text.nonBlank? entry.classType with
  | none => .error (.configuration "Class type of an instance cannot be empty.")
  | some type =>
    .ok
      { includes := nonBlankTexts entry.includes
        classType := type
        constructor := entry.constructor.map Text.trim
        init := call? entry.init
        loop := call? entry.loop }

/-- A view, if there is one. -/
def view? : Option InstanceEntry → Except Failure (Option Instance)
  | none => .ok none
  | some entry => (within "View description contains errors." (object entry)).map some

/-- A controller and the binding of the view, if there is one. -/
def controller? : Option ControllerEntry → Except Failure (Option Instance × Option Binding)
  | none => .ok (none, none)
  | some entry =>
    within "Controller description contains errors." do
      let viewBinding ← binding? entry.viewBinding
      let controller ← object entry.object
      return (some controller, viewBinding)

/-- The predefined value of a property, if there is one. -/
def predefined? (name : String) : Option ValueEntry → Except Failure (Option Predefined)
  | none => .ok none
  | some entry =>
    (within ("Unknown value type of property " ++ name ++ ": " ++ entry.kind)
      (Predefined.read entry.kind entry.value.toText)).map some

/-- A property. -/
def property (entry : PropertyEntry) : Except Failure Property := do
  let name := Text.trim entry.name
  let predefined ← predefined? name entry.value
  let binding ← within s!"Description of property {name} contains errors." (binding? entry.binding)
  return {
    name := name
    type := Text.trim entry.type
    predefined := predefined
    binding := binding
    description := Text.trim entry.description }

/-- Parameters with their types and names. -/
def parameters (entries : List ParameterEntry) : Except Failure (List Parameter) :=
  entries.mapM fun p => Parameter.make p.type (p.name.map Text.trim)

/-- An event. -/
def event (entry : EventEntry) : Except Failure Event := do
  let name := Text.trim entry.name
  let parameters ← within s!"Empty parameter type in event {name}." (parameters entry.parameters)
  let binding ← within s!"Binding of event {name} contains errors." (binding? entry.binding)
  return {
    name := name
    parameters := parameters
    result := entry.result.bind Text.nonBlank?
    binding := binding
    description := Text.trim entry.description }

/-- A timing. -/
def timing : Option Scalar → Timing
  | none => .unset
  | some (.int n) => .millis n
  | some other => .read other.toText

/-- A looper. -/
def looper (entry : LooperEntry) : Except Failure Looper :=
  within "Looper description contains errors." do
    let binding ← binding? entry.idBinding
    return {
      method := Text.trim entry.method
      interval := timing entry.interval
      initialDelay := timing entry.initialDelay
      idBinding := binding }

/-- A wrapped method. -/
def methodWrapper (entry : WrapperEntry) : Except Failure MethodWrapper :=
  within "Description of a method wrapper contains errors." do
    match Text.nonBlank? entry.method with
    | none => .error (.configuration "Method wrapper must have a wrapped method.")
    | some method =>
      let parameters ← parameters entry.parameters
      let binding ← binding? entry.binding
      return {
        method := method
        parameters := parameters
        result := entry.result.bind Text.nonBlank?
        publishedAs := entry.publishedAs.bind Text.nonBlank?
        binding := binding }

/-- A component type that keeps its contract. -/
def componentType (entry : ComponentTypeEntry) : Except Failure ComponentType := do
  let view ← view? entry.view
  let (controller, viewBinding) ← controller? entry.controller
  let properties ← entry.properties.mapM property
  let events ← entry.events.mapM event
  let loopers ← entry.loopers.mapM looper
  let methodWrappers ← entry.methodWrappers.mapM methodWrapper
  let type : ComponentType :=
    { view := view
      controller := controller
      viewBinding := viewBinding
      properties := properties
      events := events
      loopers := loopers
      methodWrappers := methodWrappers }
  type.check.mapError ContractFault.toFailure
  return type

/-! ### Modules -/

/-- What a module provides, by the key of its description. -/
def moduleContent (tag : String) (body : Value) : Except Failure (HeaderEntry × Module.Content) :=
  if tag = "component-type" then do
    let entry ← shaped tag ComponentTypeEntry.ofValue? body
    let type ← componentType entry
    return (entry.header, .componentType type)
  else if tag = "library" then do
    let entry ← shaped tag LibraryEntry.ofValue? body
    return (entry.header, .library (nonBlankTexts entry.includes))
  else
    .error (.configuration
      s!"Unknown module type '{tag}' (root element of the module description).")

/-- The headers of a library of the board: those listed, or one with the name of the library. -/
def platformIncludes (entry : PlatformLibraryEntry) : Except Failure (List String) :=
  match Text.nonBlank? entry.includes, Text.nonBlank? entry.name with
  | some list, _ => .ok (nonBlankTexts (Text.splitOn ',' list))
  | none, some name => .ok (nonBlankTexts (Text.splitOn ',' (name ++ ".h")))
  | none, none =>
    .error (.configuration
      "Platform library dependency must have a name or a list of includes.")

/-- The module described by a file, without the name of the file in failures. -/
def readModule (tree : FileTree) (path : Path) : Except Failure Module := do
  let (tag, body) ← (readDocument tree path).mapError DocumentFault.toFailure
  let (header, content) ← moduleContent tag body
  match Text.nonBlank? header.name with
  | none => .error (.configuration "Name of the module cannot be empty.")
  | some name =>
    let includes ← header.dependencies.platformLibraries.mapM platformIncludes
    return {
      name := name
      directory := path.parent?.getD ⟨"."⟩
      requires := nonBlankTexts header.dependencies.modules
      platformIncludes := includes.flatten
      content := content }

/-- The module described by a file. -/
def loadModule (tree : FileTree) (path : Path) : Except Failure Module :=
  within ("Loading of description of a module from file " ++ path.text ++ " failed.")
    (readModule tree path)

end Boardwright.Description
