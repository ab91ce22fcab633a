import Boardwright.FileTree.Files
import Boardwright.Settings.Document

/-!
# Build configurations

Most of what a build needs can be written into a configuration file and overridden on the command line.
What neither of them says has a default, except the directory of the modules, the project and the output
directory.

* **`BuildConfig`**: the contents of a configuration file.
* **`Overrides`**: what the command line says.
* **`BuildConfig.load`**: the configuration in a file.
* **`BuildConfig.resolve`**: the directory of the modules and the settings of the build.
-/

namespace Boardwright

/-- The contents of a configuration file. -/
structure BuildConfig where
  modulesPath : Option String := none
  projectFile : Option String := none
  outputRoot : Option String := none
  libraryName : Option String := none
  mergeSources : Option Bool := none
  debugMode : Option Bool := none
  looperStrategy : Option LooperStrategy := none
  deriving DecidableEq, Repr

/-- What the command line says about a build. -/
structure Overrides where
  modulesPath : Option String := none
  projectFile : Option String := none
  outputRoot : Option String := none
  libraryName : Option String := none
  mergeSources : Bool := false
  debugMode : Bool := false
  deriving DecidableEq, Repr

namespace BuildConfig

/-- Why a build cannot be configured. -/
inductive Fault where
  /-- The configuration file cannot be read. -/
  | unreadable (path : Path) (fault : IoFault)
  /-- The configuration file is not a configuration. -/
  | invalid (path : Path) (fault : Json.Fault)
  | noModules
  | noProject
  | noOutput
  /-- The name of the project file says nothing about the name of the library. -/
  | noName (project : Path)
  deriving DecidableEq, Repr

/-- The messages of a fault, outermost first. -/
def Fault.chain : Fault → List String
  | .unreadable path fault => ["cannot read build config " ++ path.text, fault.message]
  | .invalid path fault => ["invalid build config " ++ path.text, fault.message]
  | .noModules => ["no modules directory given (--modules or modules-path)"]
  | .noProject => ["no project file given (--project or project-file)"]
  | .noOutput => ["no output directory given (--output or output-root)"]
  | .noName project =>
    ["cannot derive a library name from " ++ project.text ++ "; use --library-name"]

/-- The known members, in the order of the array form. -/
def fields : List (Json.Field BuildConfig) :=
  [⟨"modules-path", Settings.placed (.orNull .text) fun a s => { s with modulesPath := a }, false⟩,
   ⟨"project-file", Settings.placed (.orNull .text) fun a s => { s with projectFile := a }, false⟩,
   ⟨"output-root", Settings.placed (.orNull .text) fun a s => { s with outputRoot := a }, false⟩,
   ⟨"library-name", Settings.placed (.orNull .text) fun a s => { s with libraryName := a }, false⟩,
   ⟨"merge-source-directories",
    Settings.placed (.orNull .flag) fun a s => { s with mergeSources := a }, false⟩,
   ⟨"debug-mode", Settings.placed (.orNull .flag) fun a s => { s with debugMode := a }, false⟩,
   ⟨"looper-strategy",
    Settings.placed (.orNull (.choice LooperStrategy.ofName?)) fun a s =>
      { s with looperStrategy := a }, false⟩]

/-- Reads a configuration; unknown members are refused. -/
def read (text : String) : Except Json.Fault BuildConfig :=
  Json.readRecord fields .refuse {} .ok text

/-- The configuration in a file. -/
def load (tree : FileTree) (path : Path) : Except Fault BuildConfig :=
  match tree.readText path with
  | .error fault => .error (.unreadable path fault)
  | .ok text =>
    match read text with
    | .error fault => .error (.invalid path fault)
    | .ok config => .ok config

/-- The configuration in a file, or the empty one without a file. -/
def load? (tree : FileTree) : Option Path → Except Fault BuildConfig
  | some path => load tree path
  | none => .ok {}

/-- The name of a library after its project file: the letters, digits and spaces of the file's name. -/
def defaultName (project : Path) : Except Fault String :=
  let stem := project.fileStem?.getD ""
  let name := String.ofList (stem.toList.filter fun c => c.isAlphanum || c == ' ')
  if Text.isBlankText name then .error (.noName project) else .ok name

/-- The name of the library. -/
def chosenName (given : Option String) (project : Path) : Except Fault String :=
  match given with
  | some name => .ok name
  | none => defaultName project

/-- A value that must be given. -/
def demand {α : Type} (fault : Fault) : Option α → Except Fault α
  | some a => .ok a
  | none => .error fault

/-- The directory of the modules and the settings of the build. -/
def resolve (config : BuildConfig) (flags : Overrides) : Except Fault (Path × Settings) := do
  let modules ← demand .noModules (flags.modulesPath <|> config.modulesPath)
  let project ← demand .noProject (flags.projectFile <|> config.projectFile)
  let output ← demand .noOutput (flags.outputRoot <|> config.outputRoot)
  let name ← chosenName (flags.libraryName <|> config.libraryName) ⟨project⟩
  let settings : Settings :=
    { projectFile := ⟨project⟩
      outputRoot := ⟨output⟩
      libraryName := name
      mergeSources := flags.mergeSources || config.mergeSources.getD false
      debugMode := flags.debugMode || config.debugMode.getD false
      looperStrategy := config.looperStrategy.getD .array }
  return (⟨modules⟩, settings)

end BuildConfig

end Boardwright
