import Boardwright.Board.Literal
import Boardwright.Generation.Objects

/-!
# Conformance of a project

A project conforms to its modules and its board when every component has a component type, every
declared property has a value that the board accepts, nothing is set that the type does not declare, and
every imported module is a library.

* **`ConformanceFault`**: the ways in which a project can fail to conform.
* **`checkNames`**, **`checkComponent`**, **`checkImports`**: the checks.
-/

namespace Boardwright

/-- The ways in which a project can fail to conform. -/
inductive ConformanceFault where
  | repeatedName (name : String)
  /-- The type of a component is no component type. -/
  | componentType (type component : String)
  /-- A property has no value, or one that is not accepted. -/
  | propertyValue (property component : String)
  /-- A component sets a property that its type does not declare. -/
  | unknownProperty (property component : String)
  /-- A component handles an event that its type does not declare. -/
  | unknownEvent (event component : String)
  /-- An imported module is no library. -/
  | notALibrary (name : String)
  deriving DecidableEq, Repr

namespace ConformanceFault

/-- The message of a fault. -/
def message : ConformanceFault → String
  | .repeatedName name => s!"Duplicated component name: {name}"
  | .componentType type component =>
    s!"Invalid component type ({type}) of component {component}."
  | .propertyValue property component =>
    s!"Invalid or undefined value of property '{property}' of component '{component}'."
  | .unknownProperty property component =>
    s!"Property '{property}' is not supported in component '{component}'."
  | .unknownEvent event component =>
    s!"Event '{event}' is not supported in component '{component}'."
  | .notALibrary name => s!"Library {name} imported by program is not a library module."

/-- The failure that a fault leads to. -/
def toFailure (f : ConformanceFault) : Failure :=
  .compilation f.message

end ConformanceFault

namespace Conformance

/-- The first name that occurred before. -/
def checkNamesFrom (seen : List String) : List Component → Except ConformanceFault Unit
  | [] => .ok ()
  | c :: rest =>
    if c.name ∈ seen then .error (.repeatedName c.name) else checkNamesFrom (c.name :: seen) rest

/-- No two components have one name. -/
def checkNames (components : List Component) : Except ConformanceFault Unit :=
  checkNamesFrom [] components

/-- A declared property has a value that the board and the property accept. -/
def checkProperty (board : Board) (c : Component) (p : Property) : Except ConformanceFault Unit :=
  let value := Generation.effectiveValue c p
  if board.accepts p.type value && p.permits value then .ok ()
  else .error (.propertyValue p.name c.name)

/-- A component sets only what its type declares, and everything that is declared has a value. -/
def checkConfiguration (board : Board) (t : ComponentType) (c : Component) :
    Except ConformanceFault Unit := do
  t.properties.forM (checkProperty board c)
  c.properties.keys.forM fun name =>
    if (t.property? name).isSome then .ok () else .error (.unknownProperty name c.name)
  c.events.keys.forM fun name =>
    if (t.event? name).isSome then .ok () else .error (.unknownEvent name c.name)

/-- A component has a component type and conforms to it. -/
def checkComponent (board : Board) (modules : ModuleMap) (c : Component) :
    Except ConformanceFault Unit :=
  match (modules.get? c.type).bind Module.componentType? with
  | none => .error (.componentType c.type c.name)
  | some t => checkConfiguration board t c

/-- Every imported module is a library. -/
def checkImports (modules : ModuleMap) (p : Project) : Except ConformanceFault Unit :=
  p.libraryImports.forM fun name =>
    if ((modules.get? name).bind Module.library?).isSome then .ok ()
    else .error (.notALibrary name)

end Conformance

end Boardwright
