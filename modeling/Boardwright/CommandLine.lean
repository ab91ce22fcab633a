import Boardwright.Build
import Boardwright.BuildConfig

/-!
# The command line

The arguments of the program are options with a value and flags, each at most once, in a long and
perhaps a short form.  The value of a long option follows it or an equals sign; short flags can be
written together, and the value of a short option follows it, with or without an equals sign or as the
next argument.

* **`CommandLine.Key`**: the options and flags.
* **`CommandLine.parse`**: what the arguments ask for.
* **`CommandLine.run`**: the effect of the arguments on a file tree and what the program says.
-/

namespace Boardwright.CommandLine

/-- The options and flags. -/
inductive Key where
  | project
  | modules
  | output
  | libraryName
  | mergeSources
  | debug
  | clean
  | config
  | verbose
  | help
  | version
  deriving DecidableEq, Repr

namespace Key

/-- The key with a long form. -/
def ofLong? (name : String) : Option Key :=
  [("project", .project), ("modules", .modules), ("output", .output),
   ("library-name", .libraryName), ("merge-sources", .mergeSources), ("debug", .debug),
   ("clean", .clean), ("config", .config), ("verbose", .verbose), ("help", .help),
   ("version", .version)].lookup name

/-- The key with a short form. -/
def ofShort? (c : Char) : Option Key :=
  [('p', .project), ('m', .modules), ('o', .output), ('n', .libraryName), ('c', .config),
   ('v', .verbose), ('h', .help), ('V', .version)].lookup c

/-- Whether a key has a value. -/
def hasValue : Key → Bool
  | .project | .modules | .output | .libraryName | .config => true
  | _ => false

/-- Whether the value of a key may be empty; a path may not. -/
def allowsEmpty : Key → Bool
  | .libraryName => true
  | _ => false

end Key

/-- The options of a build. -/
structure Options where
  /-- What the command line says about the build. -/
  overrides : Overrides := {}
  /-- The configuration file. -/
  config : Option Path := none
  /-- Whether a library from an earlier build is removed first. -/
  clean : Bool := false
  /-- Whether details are logged. -/
  verbose : Bool := false
  deriving DecidableEq, Repr

/-- What the arguments ask for. -/
inductive Request where
  /-- A build. -/
  | build (options : Options)
  /-- The version of the program. -/
  | version
  /-- An explanation of the options. -/
  | help
  /-- Nothing, because they cannot be understood. -/
  | misuse
  deriving DecidableEq, Repr

/-- The options and flags found so far, and their effect. -/
structure Parsing where
  /-- The keys that occurred. -/
  seen : List Key := []
  /-- Their effect. -/
  options : Options := {}

namespace Parsing

/-- The effect of an option with a value. -/
def assign (o : Options) (value : String) : Key → Options
  | .project => { o with overrides := { o.overrides with projectFile := some value } }
  | .modules => { o with overrides := { o.overrides with modulesPath := some value } }
  | .output => { o with overrides := { o.overrides with outputRoot := some value } }
  | .libraryName => { o with overrides := { o.overrides with libraryName := some value } }
  | .config => { o with config := some ⟨value⟩ }
  | _ => o

/-- The effect of a flag. -/
def raise (o : Options) : Key → Options
  | .mergeSources => { o with overrides := { o.overrides with mergeSources := true } }
  | .debug => { o with overrides := { o.overrides with debugMode := true } }
  | .clean => { o with clean := true }
  | .verbose => { o with verbose := true }
  | _ => o

/-- After an option with a value; no option occurs twice. -/
def withValue (p : Parsing) (k : Key) (value : String) : Except Request Parsing :=
  if k ∈ p.seen then .error .misuse
  else if value.isEmpty && !k.allowsEmpty then .error .misuse
  else .ok ⟨k :: p.seen, assign p.options value k⟩

/-- After a flag; no flag occurs twice, and two of them end the parsing. -/
def withFlag (p : Parsing) (k : Key) : Except Request Parsing :=
  match k with
  | .help => .error .help
  | .version => .error .version
  | k => if k ∈ p.seen then .error .misuse else .ok ⟨k :: p.seen, raise p.options k⟩

end Parsing

/-- Whether an argument can be the value of the option before it. -/
def isValue (arg : String) : Bool :=
  arg == "-" || arg.toList.head? != some '-'

/-- What an argument calls for: nothing more, or the next argument as the value of an option. -/
inductive Pending where
  | done (p : Parsing)
  | value (p : Parsing) (k : Key)

/-- Reads an argument that starts with two dashes, after these. -/
def parseLong (p : Parsing) (cs : List Char) : Except Request Pending :=
  let name := String.ofList (cs.takeWhile (· != '='))
  let attached := cs.dropWhile (· != '=')
  match Key.ofLong? name, attached with
  | none, _ => .error .misuse
  | some k, [] => if k.hasValue then .ok (.value p k) else (p.withFlag k).map .done
  | some k, _ :: value =>
    if k.hasValue then (p.withValue k (String.ofList value)).map .done else .error .misuse

/-- Reads the letters of an argument that starts with one dash. -/
def parseShort (p : Parsing) : List Char → Except Request Pending
  | [] => .ok (.done p)
  | c :: cs =>
    match Key.ofShort? c with
    | none => .error .misuse
    | some k =>
      if k.hasValue then
        match cs with
        | [] => .ok (.value p k)
        | '=' :: value => (p.withValue k (String.ofList value)).map .done
        | value => (p.withValue k (String.ofList value)).map .done
      else
        match p.withFlag k with
        | .error r => .error r
        | .ok p => parseShort p cs

/-- Reads one argument. -/
def parseArgument (p : Parsing) (arg : String) : Except Request Pending :=
  match arg.toList with
  | '-' :: '-' :: cs => parseLong p cs
  | '-' :: c :: cs => parseShort p (c :: cs)
  | _ => .error .misuse

/-- Reads arguments. -/
def parseFrom : Pending → List String → Request
  | .done p, [] => .build p.options
  | .value _ _, [] => .misuse
  | .value p k, arg :: rest =>
    if isValue arg then
      match p.withValue k arg with
      | .error r => r
      | .ok p => parseFrom (.done p) rest
    else .misuse
  | .done p, arg :: rest =>
    if arg = "--" then
      if rest.isEmpty then .build p.options else .misuse
    else
      match parseArgument p arg with
      | .error r => r
      | .ok next => parseFrom next rest

/-- What the arguments ask for. -/
def parse (args : List String) : Request :=
  parseFrom (.done {}) args

/-! ### Running -/

/-- What the program leaves behind. -/
structure Session where
  /-- The exit code. -/
  exitCode : Nat
  /-- What is printed. -/
  stdout : String
  /-- The message of an error. -/
  error : Option String
  /-- The files afterwards. -/
  tree : FileTree

/-- The line that names the program and its version. -/
def versionLine : String := "acp-build 0.1.0\n"

/-- The explanation of the options. -/
def helpText : String :=
  "\n".intercalate
    ["Compile an ACP project into an Arduino library",
     "",
     "Usage: acp-build [OPTIONS]",
     "",
     "Options:",
     "  -p, --project <PROJECT>            Project description (JSON)",
     "  -m, --modules <MODULES>            Root directory of the module tree",
     "  -o, --output <OUTPUT>              Directory that receives the generated library",
     "  -n, --library-name <LIBRARY_NAME>  "
       ++ "Name of the generated library (defaults to the project file name)",
     "      --merge-sources                Flatten module sources into a single directory",
     "      --debug                        Build the library with ACP_DEBUG enabled",
     "      --clean                        Remove a previously generated library first",
     "  -c, --config <CONFIG>              "
       ++ "JSON build config; flags take precedence over its values",
     "  -v, --verbose                      Log per-module and per-file detail",
     "  -h, --help                         Print help",
     "  -V, --version                      Print version",
     ""]

/-- The messages of an error in one line. -/
def errorLine (chain : List String) : String :=
  ": ".intercalate chain

/-- The library from an earlier build is removed if that is asked for. -/
def cleaned (o : Options) (settings : Settings) (tree : FileTree) :
    FileTree × Except (List String) Unit :=
  let directory := settings.libraryDirectory
  if o.clean && tree.hasEntry directory then
    match tree.remove directory with
    | (tree, .error fault) =>
      (tree, .error ["cannot remove " ++ directory.text, fault.message])
    | (tree, .ok ()) => (tree, .ok ())
  else (tree, .ok ())

/-- The line about a successful build. -/
def reportLine (settings : Settings) (r : Report) : String :=
  "Library '" ++ settings.libraryName ++ "' generated in " ++ settings.libraryDirectory.text ++ " ("
    ++ toString r.modules.length ++ " modules, " ++ toString r.files.length ++ " files, "
    ++ toString r.storageUsage ++ " bytes of EEPROM)\n"

/-- The directory of the modules and the settings that the options amount to. -/
def configured (o : Options) (tree : FileTree) : Except BuildConfig.Fault (Path × Settings) := do
  let config ← BuildConfig.load? tree o.config
  config.resolve o.overrides

/-- Builds as the options say. -/
def runBuild (chance : Nat) (o : Options) (tree : FileTree) : Session :=
  match configured o tree with
  | .error fault => ⟨1, "", some (errorLine fault.chain), tree⟩
  | .ok (modules, settings) =>
    match cleaned o settings tree with
    | (tree, .error chain) => ⟨1, "", some (errorLine chain), tree⟩
    | (tree, .ok ()) =>
      match build ⟨modules, .standard, chance⟩ settings tree with
      | (tree, .ok report) => ⟨0, reportLine settings report, none, tree⟩
      | (tree, .error f) =>
        let context := "compilation of " ++ settings.projectFile.text ++ " failed"
        ⟨1, "", some (errorLine (context :: f.chain)), tree⟩

/-- Does what the arguments ask for. -/
def run (chance : Nat) (args : List String) (tree : FileTree) : Session :=
  match parse args with
  | .build options => runBuild chance options tree
  | .version => ⟨0, versionLine, none, tree⟩
  | .help => ⟨0, helpText, none, tree⟩
  | .misuse => ⟨2, "", none, tree⟩

end Boardwright.CommandLine
