import Boardwright.Generation.CoreSource

/-!
# The example sketch

The sketch lists the objects that the library offers and has an empty function for every handler that
the project names.  A handler of several events gets one function, told by its head.
-/

namespace Boardwright.Generation

/-- The line between parts of the sketch. -/
def separatorLine : String :=
  "//" ++ String.ofList (List.replicate 70 '-')

/-- The lines of a description, as comments. -/
def descriptionLines (text : String) : List String :=
  ((Text.lines text).filterMap Text.nonBlank?).map fun line => "//   " ++ line

/-- The lines about a component that has a view. -/
def componentSummary (input : Input) (c : Component) : Except Failure (List String) := do
  let t ← input.componentType c
  if t.view.isNone then return []
  return ("// " ++ c.name ++ " (" ++ c.type ++ ")") :: descriptionLines c.description

/-- The lines about a stored item. -/
def itemSummary (item : StoredItem) : List String :=
  let what :=
    match item.length with
    | some n =>
      "eeprom array of type " ++ item.type ++ " with length " ++ toString n.toNat
    | none => "eeprom variable of type " ++ item.type
  ("// " ++ item.name ++ " (" ++ what ++ ")") :: descriptionLines item.description

/-- The lines about all objects. -/
def objectSummary (input : Input) : Except Failure (List String) := do
  let components ← input.project.components.mapM (componentSummary input)
  let objects := components.flatten ++ input.project.storage.flatMap itemSummary
  if objects.isEmpty then return []
  return separatorLine :: "// Summary of available objects:" :: objects ++ [separatorLine]

/-- A function for a handler: the event it was first named for, and its head. -/
structure Stub where
  /-- The event. -/
  origin : String
  /-- The head of the function. -/
  head : String
  deriving DecidableEq, Repr

/-- The functions for the handlers of the program's own events. -/
def programStubs (p : Project) : List Stub :=
  [Project.onStart, Project.onLoop].filterMap fun event =>
    (p.programEvents.get? event).map fun handler =>
      ⟨"Program." ++ event, "void " ++ handler ++ "()"⟩

/-- The functions for the handlers of a component's events. -/
def componentStubs (input : Input) (c : Component) : Except Failure (List Stub) := do
  let t ← input.componentType c
  return t.events.filterMap fun e =>
    match e.binding, c.events.get? e.name with
    | some _, some handler => some ⟨c.name ++ "." ++ e.name, e.handlerHead handler true⟩
    | _, _ => none

/-- The functions without those whose head occurred before. -/
def dedupStubs (seen : List String) : List Stub → List Stub
  | [] => []
  | s :: rest =>
    if s.head ∈ seen then dedupStubs seen rest else s :: dedupStubs (s.head :: seen) rest

/-- The functions for all handlers. -/
def stubs (input : Input) : Except Failure (List Stub) := do
  let components ← input.project.components.mapM (componentStubs input)
  return dedupStubs [] (programStubs input.project ++ components.flatten)

/-- The lines of a function. -/
def Stub.lines (s : Stub) : List String :=
  [separatorLine,
   "// Event callback for " ++ s.origin,
   s.head ++ " \x7b",
   "  // TODO Auto-generated callback stub",
   "\x7d",
   ""]

/-- The headers that the sketch includes. -/
def sketchIncludes (input : Input) (s : State) : List String :=
  let platform :=
    input.modules.values.flatMap fun m => m.platformIncludes.map fun h => "#include <" ++ h ++ ">"
  let storage := if 0 < s.storageUsage then ["#include <EEPROM.h>"] else []
  Text.dedupLines (("#include <" ++ input.settings.libraryName ++ ".h>") :: platform ++ storage)

/-- What the template of the sketch is filled with. -/
def sketchOutput (input : Input) (s : State) : Except Failure Output := do
  let summary ← objectSummary input
  let functions ← stubs input
  return Dict.ofList
    [("includes", Text.mergeLines (sketchIncludes input s) ""),
     ("objectSummary", Text.mergeLines summary ""),
     ("callbacks", Text.mergeLines (functions.flatMap (·.lines)) "")]

/-- The generator of the example sketch. -/
def exampleSketch (input : Input) : Generator State Artifacts where
  name := "example"
  prepare s := (s, sketchOutput input s)
  generate _ output artifacts :=
    save artifacts input.settings.exampleSketch (Template.fill StoredTemplate.sketch.text output)

end Boardwright.Generation
