import Boardwright.Generation.CoreSource

/-!
# The header that sketches include

The header declares the views of all components and the stored items, and includes what they need.
-/

namespace Boardwright.Generation

/-- The lines of the header for a component: headers to include and the declaration of its view. -/
def headerView (input : Input) (published : Published) (c : Component) :
    Except Failure (List String × List String) := do
  let t ← input.componentType c
  match t.view with
  | none => return ([], [])
  | some view =>
    let type := classOf view (replacements published c t)
    if type.isEmpty then
      .error (.compilation ("Class type for view of component " ++ c.name ++ " is invalid."))
    else
      return (view.includes.map (includeLine c.type), ["extern " ++ type ++ " " ++ c.name ++ ";"])

/-- The failure of an import that is no library. -/
def notALibrary (name : String) : Failure :=
  .compilation s!"Library {name} imported by program is not a library module."

/-- The headers of an imported library. -/
def libraryIncludes (input : Input) (name : String) : Except Failure (List String) :=
  match (input.modules.get? name).bind Module.library? with
  | some files => .ok (files.map (includeLine name))
  | none => .error (notALibrary name)

/-- What the template of the header is filled with. -/
def headerOutput (input : Input) (s : State) : Except Failure Output := do
  let views ← input.project.components.mapM (headerView input s.published)
  let libraries ← input.project.libraryImports.mapM (libraryIncludes input)
  let storage :=
    if s.storageExterns.isEmpty then [] else ["#include <" ++ storageHeaderFile ++ ">"]
  let includes := views.flatMap (·.1) ++ libraries.flatten ++ storage
  return Dict.ofList
    [("includes", Text.mergeLines (Text.dedupLines includes) ""),
     ("views", Text.mergeLines (views.flatMap (·.2)) ""),
     ("eepromUsage", toString s.storageUsage),
     ("eepromVars", Text.mergeLines s.storageExterns "")]

/-- The generator of the header that sketches include. -/
def projectHeader (input : Input) : Generator State Artifacts where
  name := "project-header"
  prepare s := (s, headerOutput input s)
  generate _ output artifacts :=
    save artifacts input.settings.projectHeader
      (Template.fill StoredTemplate.projectHeader.text output)

end Boardwright.Generation
