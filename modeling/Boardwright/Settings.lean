import Boardwright.Failure
import Boardwright.Path
import Boardwright.Text.Blank

/-!
# Settings of a build

The settings say which project is built, where the library goes and what it is called.  The places of
all generated files follow from them.
-/

namespace Boardwright

/-- How the calls of loopers are organised. -/
inductive LooperStrategy where
  /-- A table of loopers and an array of indices ordered by time. -/
  | array
  deriving DecidableEq, Repr

/-- The name of a strategy. -/
def LooperStrategy.name : LooperStrategy → String
  | .array => "array"

/-- The settings of a build. -/
structure Settings where
  /-- The description of the project. -/
  projectFile : Path
  /-- The directory that the library's directory is made in. -/
  outputRoot : Path
  /-- The name of the library. -/
  libraryName : String
  /-- Whether the sources of all modules go into one directory. -/
  mergeSources : Bool := false
  /-- Whether the library is built for debugging. -/
  debugMode : Bool := false
  /-- How the calls of loopers are organised. -/
  looperStrategy : LooperStrategy := .array
  deriving DecidableEq, Repr

namespace Settings

/-- A library's name consists of ASCII letters, digits and spaces, and not of spaces only. -/
def check (s : Settings) : Except Failure Unit :=
  let name := s.libraryName
  if Text.isBlankText name then .error (.configuration "Library name cannot be empty.")
  else if name.toList.all fun c => c.isAlphanum || c == ' ' then .ok ()
  else
    .error (.configuration
      s!"Invalid library name '{name}': only letters, digits and spaces are allowed.")

/-- The directory of the library. -/
def libraryDirectory (s : Settings) : Path :=
  s.outputRoot.join s.libraryName

/-- The directory of the headers. -/
def headerDirectory (s : Settings) : Path :=
  s.libraryDirectory.join "src"

/-- The directory of the sources. -/
def sourceDirectory (s : Settings) : Path :=
  s.headerDirectory.join "sources"

/-- The header that sketches include. -/
def projectHeader (s : Settings) : Path :=
  s.headerDirectory.join (s.libraryName ++ ".h")

/-- The example sketch. -/
def exampleSketch (s : Settings) : Path :=
  let sketch := s.libraryName ++ "Skeleton"
  ((s.libraryDirectory.join "examples").join sketch).join (sketch ++ ".ino")

/-- The file that describes the library. -/
def propertiesFile (s : Settings) : Path :=
  s.libraryDirectory.join "library.properties"

end Settings

end Boardwright
