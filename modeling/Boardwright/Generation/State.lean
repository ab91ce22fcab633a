import Boardwright.Board.Platform
import Boardwright.Failure
import Boardwright.Module
import Boardwright.Project
import Boardwright.Settings
import Boardwright.Text.Template

/-!
# Input and shared state of a generation

The generators of a build work on the same input.  What one of them finds out for the others is kept
in a shared state, which also outlives a failure.

* **`Input`**: settings, project, board and modules.
* **`Published`**: values that components offer to templates, besides their properties.
* **`State`**: the shared state.
-/

namespace Boardwright.Generation

/-- The input of all generators. -/
structure Input where
  /-- The settings of the build. -/
  settings : Settings
  /-- The project. -/
  project : Project
  /-- The board. -/
  board : Board
  /-- The modules that the project uses. -/
  modules : ModuleMap
  /-- What decides about values that are left to chance. -/
  chance : Nat := 0

/-- The component type of a component. -/
def Input.componentType (input : Input) (c : Component) : Except Failure ComponentType :=
  match (input.modules.get? c.type).bind Module.componentType? with
  | some t => .ok t
  | none =>
    .error (.compilation
      ("Invalid component type (" ++ c.type ++ ") of component " ++ c.name ++ "."))

/-- Values by component and by name. -/
abbrev Published := Dict (Dict String)

/-- The values after a component has published one. -/
def Published.put (p : Published) (component key value : String) : Published :=
  let values := (p.get? component).getD .empty
  p.insert component (values.insert key value)

/-- What generators share. -/
structure State where
  /-- The namespace of objects that sketches do not use. -/
  privateNamespace : String
  /-- The bytes of permanent storage in use. -/
  storageUsage : Nat := 0
  /-- The declarations of stored items for other files. -/
  storageExterns : List String := []
  /-- The values that components have published. -/
  published : Published := .empty
  deriving DecidableEq

/-- The usual namespace of objects that sketches do not use. -/
def defaultNamespace : String := "acp_private"

/-- The placeholders that a generator has prepared for its templates. -/
abbrev Output := Template.Replacements

end Boardwright.Generation
