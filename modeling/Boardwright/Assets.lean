import Boardwright.Artifacts
import Boardwright.Failure
import Boardwright.Module
import Boardwright.Settings

/-!
# Files that modules bring along

A module may have a directory of headers and a directory of sources.  Both are copied into the library:
headers below the path of the module, sources also, or all into one directory under names that tell the
modules and directories apart.

The name of a copy is made from the text of the original's name.  The names in a file tree are texts, so
nothing is lost.  On a disk a name may be no UTF-8; what cannot be read in it would be replaced in the copy,
whose name could then be that of another copy.

* **`underscoreEscape`**: a name in which every underscore is doubled.
* **`copyTree`**: a directory with everything in it.
* **`copyMerged`**: the files of a directory and the directories in it, into one directory.
* **`exportModule`**: the files of a module.
-/

namespace Boardwright.Assets

/-- What can go wrong while files are copied. -/
inductive AssetFault where
  | listing (path : Path) (fault : IoFault)
  | creating (path : Path) (fault : IoFault)
  | copying (source target : Path) (fault : IoFault)
  deriving DecidableEq, Repr

/-- The messages of a fault, outermost first. -/
def AssetFault.chain : AssetFault → List String
  | .listing path fault => ["directory " ++ path.text ++ " cannot be listed", fault.message]
  | .creating path fault =>
    ["directory " ++ path.text ++ " does not exist or cannot be created", fault.message]
  | .copying source target fault =>
    ["file " ++ source.text ++ " cannot be copied to " ++ target.text, fault.message]

/-- A name in which every underscore is doubled, as characters. -/
def escapeUnderscores (cs : List Char) : List Char :=
  cs.flatMap fun c => if c = '_' then ['_', '_'] else [c]

/-- A name in which every underscore is doubled. -/
def underscoreEscape (s : String) : String :=
  String.ofList (escapeUnderscores s.toList)

/-- Copies a file. -/
def copyFile (source target : Path) (a : Artifacts) : Artifacts × Except AssetFault Unit :=
  match a.tree.copy source target with
  | .error fault => (a, .error (.copying source target fault))
  | .ok tree => (⟨tree, a.written ++ [target]⟩, .ok ())

/-- Makes a directory. -/
def makeDirectory (path : Path) (a : Artifacts) : Artifacts × Except AssetFault Unit :=
  match a.tree.createDirectories path with
  | (tree, .error fault) => ({ a with tree := tree }, .error (.creating path fault))
  | (tree, .ok ()) => ({ a with tree := tree }, .ok ())

/-- How deep directories may be nested: every level of a path takes at least one character. -/
def maxDepth : Nat := Path.maxBytes + 1

/-- Does a step for the name of every entry of a directory, in the order of the names. -/
def forEntries (source : Path) (a : Artifacts)
    (step : String → Artifacts → Artifacts × Except AssetFault Unit) :
    Artifacts × Except AssetFault Unit :=
  match a.tree.list source with
  | .error fault => (a, .error (.listing source fault))
  | .ok entries => runAll (fun e a => step e.1 a) entries a

/-- Copies the contents of a directory that is nested at most `depth` deep. -/
def copyTree : Nat → Path → Path → Artifacts → Artifacts × Except AssetFault Unit
  | 0, _, target, a => (a, .error (.creating target .nameTooLong))
  | depth + 1, source, target, a =>
    match makeDirectory target a with
    | (a, .error f) => (a, .error f)
    | (a, .ok ()) =>
      forEntries source a fun name a =>
        let path := source.join name
        if a.tree.isDirectory path then copyTree depth path (target.join name) a
        else if a.tree.isFile path then copyFile path (target.join name) a
        else (a, .ok ())

/-- Copies the files of a directory that is nested at most `depth` deep into one directory.  Their names
start with `lead` and the names of the directories they come from. -/
def copyMerged : Nat → Path → Path → String → Artifacts → Artifacts × Except AssetFault Unit
  | 0, source, _, _, a => (a, .error (.listing source .nameTooLong))
  | depth + 1, source, target, lead, a =>
    match makeDirectory target a with
    | (a, .error f) => (a, .error f)
    | (a, .ok ()) =>
      forEntries source a fun name a =>
        let path := source.join name
        let flat := lead ++ underscoreEscape name
        if a.tree.isDirectory path then copyMerged depth path target (flat ++ "_") a
        else if a.tree.isFile path then copyFile path (target.join flat) a
        else (a, .ok ())

/-- The start of the names of a module's sources in one directory. -/
def mergedLead (module : String) : String :=
  String.ofList ((escapeUnderscores module.toList).map fun c => if c = '.' then '_' else c) ++ "_"

/-- Copies the headers of a module, if it has any. -/
def exportHeaders (m : Module) (s : Settings) (a : Artifacts) :
    Artifacts × Except AssetFault Unit :=
  if a.tree.isDirectory m.headerDirectory then
    copyTree maxDepth m.headerDirectory (s.headerDirectory.join m.includePath) a
  else (a, .ok ())

/-- Copies the sources of a module, if it has any. -/
def exportSources (m : Module) (s : Settings) (a : Artifacts) :
    Artifacts × Except AssetFault Unit :=
  if a.tree.isDirectory m.sourceDirectory then
    if s.mergeSources then
      copyMerged maxDepth m.sourceDirectory s.sourceDirectory (mergedLead m.name) a
    else copyTree maxDepth m.sourceDirectory (s.sourceDirectory.join m.includePath) a
  else (a, .ok ())

/-- The failure to copy the files of a module. -/
def exportFailure (m : Module) (f : AssetFault) : Failure :=
  (Failure.compilation ("Files of module '" ++ m.name ++ "' cannot be exported.")).because f.chain

/-- Copies the files of a module. -/
def exportModule (s : Settings) (m : Module) (a : Artifacts) : Artifacts × Except Failure Unit :=
  match exportHeaders m s a with
  | (a, .error f) => (a, .error (exportFailure m f))
  | (a, .ok ()) =>
    match exportSources m s a with
    | (a, .error f) => (a, .error (exportFailure m f))
    | (a, .ok ()) => (a, .ok ())

end Boardwright.Assets
