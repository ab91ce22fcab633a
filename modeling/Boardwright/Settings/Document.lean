import Boardwright.Json.Stream
import Boardwright.Settings

/-!
# Settings as a JSON text

The members of settings are the project file, the output directory and the name of the library, which
must be there, and the remaining settings, which have defaults.  Unknown members are skipped.
-/

namespace Boardwright

/-- The strategy with a name. -/
def LooperStrategy.ofName? (name : String) : Option LooperStrategy :=
  if name = "array" then some .array else none

namespace Settings

/-- The members read so far. -/
structure Parts where
  projectFile : Option String := none
  outputRoot : Option String := none
  libraryName : Option String := none
  mergeSources : Bool := false
  debugMode : Bool := false
  looperStrategy : LooperStrategy := .array

/-- The reader of a value that is put into its place by `put`. -/
def placed {σ α : Type} (r : Json.Reader α) (put : α → σ → σ) : Json.Reader (σ → σ) := fun ts =>
  (r ts).map fun (a, rest) => (put a, rest)

/-- The known members, in the order of the array form. -/
def fields : List (Json.Field Parts) :=
  [⟨"project-file", placed .text fun a s => { s with projectFile := some a }, false⟩,
   ⟨"output-root", placed .text fun a s => { s with outputRoot := some a }, false⟩,
   ⟨"library-name", placed .text fun a s => { s with libraryName := some a }, false⟩,
   ⟨"merge-source-directories", placed .flag fun a s => { s with mergeSources := a }, true⟩,
   ⟨"debug-mode", placed .flag fun a s => { s with debugMode := a }, true⟩,
   ⟨"looper-strategy",
    placed (.choice LooperStrategy.ofName?) fun a s => { s with looperStrategy := a }, true⟩]

/-- The settings, when all members that must be there were found. -/
def Parts.finish (p : Parts) : Except Json.Fault Settings :=
  match p.projectFile, p.outputRoot, p.libraryName with
  | some project, some output, some name =>
    .ok ⟨⟨project⟩, ⟨output⟩, name, p.mergeSources, p.debugMode, p.looperStrategy⟩
  | _, _, _ => .error .misshapen

/-- Reads settings. -/
def read (text : String) : Except Json.Fault Settings :=
  Json.readRecord fields .skip {} Parts.finish text

end Settings

end Boardwright
