import Boardwright.Dict
import Boardwright.Text.Lines
import Boardwright.Text.Blank

/-!
# Projects

A project lists the components of a program, the libraries it imports, the handlers of the program's
own events and the items it keeps in permanent storage.
-/

namespace Boardwright

/-- A configured component. -/
structure Component where
  /-- The module with the component type. -/
  type : String
  /-- The name of the component. -/
  name : String
  /-- A text for readers. -/
  description : String := ""
  /-- The values of properties that the component sets. -/
  properties : Dict String := .empty
  /-- The handlers of events. -/
  events : Dict String := .empty
  deriving DecidableEq

/-- A variable or an array in permanent storage. -/
structure StoredItem where
  /-- The name of the variable. -/
  name : String
  /-- The declared type of the value or of the elements. -/
  type : String
  /-- The value before anything was stored. -/
  value : Option String := none
  /-- A text for readers. -/
  description : String := ""
  /-- Whether a copy is kept in working memory. -/
  cached : Bool := false
  /-- The number of elements of an array. -/
  length : Option UInt32 := none
  deriving DecidableEq

/-- The first value of an item, unless it is blank. -/
def StoredItem.initialValue (item : StoredItem) : Option String :=
  item.value.bind Text.nonBlank?

/-- A project. -/
structure Project where
  /-- The name of the board; blank for the default board. -/
  platform : String := ""
  /-- The level of the watchdog, if it is used. -/
  watchdogLevel : Option UInt32 := none
  /-- The components. -/
  components : List Component := []
  /-- The library modules that the user's program uses. -/
  libraryImports : List String := []
  /-- The handlers of the program's own events. -/
  programEvents : Dict String := .empty
  /-- The items in permanent storage. -/
  storage : List StoredItem := []
  /-- How the version of the storage layout is found. -/
  layoutVersion : String := ""
  deriving DecidableEq

namespace Project

/-- The event raised once at the start. -/
def onStart : String := "OnStart"

/-- The event raised in every pass of the loop. -/
def onLoop : String := "OnLoop"

/-- The first component with a name. -/
def component? (p : Project) (name : String) : Option Component :=
  p.components.find? fun c => c.name == name

/-- The modules that a project names: the types of its components and its libraries, each once, in the
order of their first use. -/
def referencedModules (p : Project) : List String :=
  Text.dedupLines (p.components.map (·.type) ++ p.libraryImports)

end Project

end Boardwright
