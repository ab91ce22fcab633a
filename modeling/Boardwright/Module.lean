import Boardwright.ComponentType.Contract
import Boardwright.Dict
import Boardwright.Path

/-!
# Modules

A module is a reusable piece of a project: a component type or a library of headers.  It has a dotted
name, which also says where it lies below a root directory, and may need other modules.
-/

namespace Boardwright

/-- What a module provides. -/
inductive Module.Content where
  /-- A component type. -/
  | componentType (type : ComponentType)
  /-- A library, with the headers it offers. -/
  | library (includes : List String)

/-- A module. -/
structure Module where
  /-- Its dotted name. -/
  name : String
  /-- The directory of its description and its files. -/
  directory : Path
  /-- The names of the modules it needs. -/
  requires : List String := []
  /-- The headers of the board's libraries that it needs. -/
  platformIncludes : List String := []
  /-- What it provides. -/
  content : Module.Content

/-- The relative path of a module: its name with slashes. -/
def modulePath (name : String) : String :=
  String.ofList (name.toList.map fun c => if c = '.' then '/' else c)

/-- The parts of a dotted name. -/
def nameSegments (name : String) : List String :=
  Text.splitOn '.' name

/-- The directory of a module below a root. -/
def moduleDirectory (root : Path) (name : String) : Path :=
  (nameSegments name).foldl Path.join root

namespace Module

/-- The component type of a module, if it provides one. -/
def componentType? (m : Module) : Option ComponentType :=
  match m.content with
  | .componentType t => some t
  | .library _ => none

/-- The headers of a library module. -/
def library? (m : Module) : Option (List String) :=
  match m.content with
  | .componentType _ => none
  | .library includes => some includes

/-- The path by which generated code includes the headers of a module. -/
def includePath (m : Module) : String :=
  modulePath m.name

/-- The directory of a module's headers. -/
def headerDirectory (m : Module) : Path :=
  m.directory.join "include"

/-- The directory of a module's sources. -/
def sourceDirectory (m : Module) : Path :=
  m.directory.join "src"

end Module

/-- Modules by name. -/
abbrev ModuleMap := Dict Module

end Boardwright
