import Boardwright.Assets
import Boardwright.Closure.Directory
import Boardwright.Conformance
import Boardwright.Description.ProjectDescription
import Boardwright.Generation.Standard

/-!
# Builds

A build turns a project into a library.  First everything is checked without touching a file; then the
directories of the library are made, the files of the modules are copied, and the generators run.  What
was written before a failure stays.

* **`plan`**: the checks, and the input of the generators.
* **`carryOut`**: the changes to the file tree.
* **`buildProject`**, **`build`**: both, for a project and for the description of a project.
-/

namespace Boardwright

/-- What a successful build has done. -/
structure Report where
  /-- The names of all modules, in order. -/
  modules : List String
  /-- The bytes of permanent storage in use. -/
  storageUsage : Nat
  /-- The files of modules, then the generated files. -/
  files : List Path
  deriving DecidableEq

/-- What builds have in common. -/
structure Workshop where
  /-- The directory below which the modules lie. -/
  modulesRoot : Path
  /-- The boards that can be selected. -/
  boards : Board.Registry := .standard
  /-- What decides about values that are left to chance. -/
  chance : Nat := 0

/-- Checks a project, with modules from a source, and gives the input of the generators. -/
def plan (boards : Board.Registry) (chance : Nat) (source : ModuleSource) (settings : Settings)
    (project : Project) : Except Failure Generation.Input := do
  settings.check
  match boards.find? project.platform with
  | none =>
    .error (.compilation ("Unsupported hardware platform '" ++ project.platform ++ "'."))
  | some board =>
    (Conformance.checkNames project.components).mapError ConformanceFault.toFailure
    let modules ←
      (closure source project.referencedModules).result.mapError ClosureFault.toFailure
    (project.components.forM (Conformance.checkComponent board modules)).mapError
      ConformanceFault.toFailure
    (Conformance.checkImports modules project).mapError ConformanceFault.toFailure
    return ⟨settings, project, board, modules, chance⟩

/-- Makes a directory of the library. -/
def makeOutputDirectory (path : Path) (what : String) (a : Artifacts) :
    Artifacts × Except Failure Unit :=
  match a.tree.createDirectories path with
  | (tree, .ok ()) => ({ a with tree := tree }, .ok ())
  | (tree, .error fault) =>
    ({ a with tree := tree }, .error ((Failure.compilation
      ("Output directory for " ++ what ++ " (" ++ path.text ++ ") cannot be created.")).because
        [fault.message]))

/-- Makes the directories of the library and copies the files of all modules. -/
def prepareLibrary (input : Generation.Input) (a : Artifacts) : Artifacts × Except Failure Unit :=
  match makeOutputDirectory input.settings.headerDirectory "includes" a with
  | (a, .error f) => (a, .error f)
  | (a, .ok ()) =>
    match makeOutputDirectory input.settings.sourceDirectory "source files" a with
    | (a, .error f) => (a, .error f)
    | (a, .ok ()) => runAll (Assets.exportModule input.settings) input.modules.values a

/-- Writes the library. -/
def carryOut (input : Generation.Input) (tree : FileTree) : FileTree × Except Failure Report :=
  match prepareLibrary input ⟨tree, []⟩ with
  | (a, .error f) => (a.tree, .error f)
  | (a, .ok ()) =>
    let state : Generation.State := { privateNamespace := Generation.defaultNamespace }
    let run := (Generation.standardPipeline input).run state a
    match run.outcome with
    | .error f => (run.results.tree, .error f)
    | .ok () =>
      (run.results.tree, .ok ⟨input.modules.keys, run.state.storageUsage, run.results.written⟩)

/-- Builds a project. -/
def buildProject (w : Workshop) (settings : Settings) (project : Project) (tree : FileTree) :
    FileTree × Except Failure Report :=
  match plan w.boards w.chance (directorySource tree w.modulesRoot) settings project with
  | .error f => (tree, .error f)
  | .ok input => carryOut input tree

/-- Checks the settings and loads the project that they name. -/
def openProject (settings : Settings) (tree : FileTree) : Except Failure Project := do
  settings.check
  (Description.loadProject tree settings.projectFile).mapError fun f =>
    (Failure.compilation "Project configuration contains errors.").causedBy f

/-- Builds the project that the settings name. -/
def build (w : Workshop) (settings : Settings) (tree : FileTree) :
    FileTree × Except Failure Report :=
  match openProject settings tree with
  | .error f => (tree, .error f)
  | .ok project => buildProject w settings project tree

end Boardwright
