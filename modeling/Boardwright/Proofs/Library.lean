import Boardwright.Proofs.Changes
import Boardwright.Proofs.Closure
import Boardwright.Proofs.WellNamed

/-!
# The files of a library

All files of a library lie below its directory, each at a place of its own sort: the generated files at
fixed places, and the files of modules at places that are made from the name of the module and from the
names that lead to the file in the module.  Here the places are spelled out, and the permit is given
that a build keeps to: it makes directories on the way to the library and below it, writes and copies to
these places, and looks at nothing but the files of modules.

* **`generatedPlaces`**, **`Asset.place`**: where generated files and files of modules go.
* **`Module.LiesBelow`**: where a module lies that was loaded from a root directory.
* **`Permit.library`**: the permit of a build.
* **`library_admits`**: it admits the build.
* **`library_guards`**: in well named trees the listings show plain names only.
-/

namespace Boardwright

open Generation

/-! ### Generated files -/

theorem headerDirectory_eq (s : Settings) : s.headerDirectory = s.libraryDirectory.below ["src"] := by
  rw [Settings.headerDirectory, Path.below_cons, Path.below_nil]

theorem sourceDirectory_eq (s : Settings) :
    s.sourceDirectory = s.libraryDirectory.below ["src", "sources"] := by
  rw [Settings.sourceDirectory, Settings.headerDirectory, Path.below_cons, Path.below_cons,
    Path.below_nil]

/-- The places of the generated files below the directory of the library. -/
def generatedPlaces (libraryName : String) (usage : Nat) : List (List String) :=
  [["src", "sources", "core.cpp"], ["src", libraryName ++ ".h"], ["src", "acp", "core.h"]]
  ++ (if usage = 0 then [] else [["src", "acp", "eeprom_vars.h"],
    ["src", "sources", "eeprom_vars.cpp"]])
  ++ [["examples", libraryName ++ "Skeleton", libraryName ++ "Skeleton" ++ ".ino"],
    ["library.properties"]]

theorem generatedFiles_eq (settings : Settings) (usage : Nat) :
    generatedFiles settings usage =
      (generatedPlaces settings.libraryName usage).map settings.libraryDirectory.below := by
  have hcore : ∀ p : Path, p.join "acp/core.h" = (p.join "acp").join "core.h" := fun p =>
    @Path.join_slash p "acp" "core.h" (by decide) (by decide)
  have hstorage : ∀ p : Path, p.join storageHeaderFile = (p.join "acp").join "eeprom_vars.h" := fun p =>
    @Path.join_slash p "acp" "eeprom_vars.h" (by decide) (by decide)
  simp only [generatedFiles, generatedPlaces, hcore, hstorage, Settings.sourceDirectory,
    Settings.headerDirectory, Settings.projectHeader, Settings.exampleSketch, Settings.propertiesFile,
    List.map_append, List.map_cons, List.map_nil, Path.below_cons, Path.below_nil]
  split
  · rw [List.map_nil]
  · simp only [List.map_cons, List.map_nil, Path.below_cons, Path.below_nil]

theorem plain_generatedPlaces {settings : Settings} (hcheck : settings.check = .ok ()) (usage : Nat)
    {place : List String} (h : place ∈ generatedPlaces settings.libraryName usage) :
    place ≠ [] ∧ ∀ name ∈ place, isPlainName name = true := by
  have hslash := slash_not_mem_of_isPlainName (Settings.isPlainName_libraryName hcheck)
  have hheader : isPlainName (settings.libraryName ++ ".h") = true :=
    isPlainName_of_mem (c := 'h') (by simp) (by decide) (by simpa using hslash)
  have hsketch : isPlainName (settings.libraryName ++ "Skeleton") = true :=
    isPlainName_of_mem (c := 'S') (by simp) (by decide) (by simpa using hslash)
  have hino : isPlainName (settings.libraryName ++ "Skeleton" ++ ".ino") = true :=
    isPlainName_of_mem (c := 'S') (by simp) (by decide) (by simpa using hslash)
  have hfixed : ∀ name ∈ ["src", "sources", "core.cpp", "acp", "core.h", "eeprom_vars.h",
      "eeprom_vars.cpp", "examples", "library.properties"], isPlainName name = true := by decide
  simp only [List.forall_mem_cons] at hfixed
  simp only [generatedPlaces, List.mem_append, List.mem_cons, List.not_mem_nil, or_false] at h
  rcases h with ((rfl | rfl | rfl) | hstorage) | rfl | rfl
  case inl.inr =>
    split at hstorage
    · simp at hstorage
    · simp only [List.mem_cons, List.not_mem_nil, or_false] at hstorage
      rcases hstorage with rfl | rfl <;> simp [hfixed]
  all_goals simp [hfixed, hheader, hsketch, hino]

/-! ### Files of modules -/

/-- The name of a source when all sources go into one directory. -/
def flatName (module : String) (names : List String) : String :=
  Assets.mergedLead module ++ "_".intercalate (names.map Assets.underscoreEscape)

/-- A file that a module brings along: a header or a source, with the names that lead to it. -/
structure Asset where
  module : Module
  isSource : Bool
  names : List String

namespace Asset

/-- The name of the directory that the file is in. -/
def part (x : Asset) : String := if x.isSource then "src" else "include"

/-- The directory of a module that the file is copied from. -/
def home (x : Asset) : Path := x.module.directory.join x.part

/-- The path of the file in its module. -/
def origin (x : Asset) : Path := x.home.below x.names

/-- All the names that tell the file from others of its sort: the parts of the name of its module, and the
names that lead to it there. -/
def parts (x : Asset) : List String := nameSegments x.module.name ++ x.names

/-- The place of the file below the directory of the library. -/
def place (merge : Bool) (x : Asset) : List String :=
  if x.isSource then
    if merge then ["src", "sources", flatName x.module.name x.names]
    else "src" :: "sources" :: x.parts
  else "src" :: x.parts

/-- The path that the file is brought to. -/
def target (s : Settings) (x : Asset) : Path := s.libraryDirectory.below (x.place s.mergeSources)

/-- The file belongs to one of the modules, as far as its names go. -/
structure Of (input : Input) (x : Asset) : Prop where
  mem : x.module ∈ input.modules.values
  plain : ∀ name ∈ x.names, isPlainName name = true

theorem plain_part (x : Asset) : isPlainName x.part = true := by
  rw [part]
  split <;> decide

end Asset

namespace Assets

theorem mirrored_place (target : Path) {names : List String} (h : names ≠ []) :
    mirrored.place target names = target.below names := by
  induction names generalizing target with
  | nil => exact absurd rfl h
  | cons name rest ih =>
    cases rest with
    | nil => rfl
    | cons next rest => exact ih (target.join name) (by simp)

theorem merged_place (target : Path) (lead : String) {names : List String} (h : names ≠ []) :
    (merged target).place lead names =
      target.join (lead ++ "_".intercalate (names.map underscoreEscape)) := by
  induction names generalizing lead with
  | nil => exact absurd rfl h
  | cons name rest ih =>
    cases rest with
    | nil =>
      rw [List.map_singleton, String.intercalate_singleton]
      rfl
    | cons next rest =>
      rw [Placement.place, ih _ (by simp)]
      simp only [merged, List.map_cons, String.intercalate_cons_cons, String.append_assoc]

variable {s : Settings} {m : Module} {isSource : Bool} {names : List String}

/-- Files of a tree that is copied as it is go where their names lead from the place of the tree. -/
theorem target_of_mirrored {top : List String}
    (hplace : Asset.place s.mergeSources ⟨m, isSource, names⟩ = top ++ names) (h : names ≠ []) :
    Asset.target s ⟨m, isSource, names⟩ = mirrored.place (s.libraryDirectory.below top) names := by
  rw [Asset.target, hplace, Path.below_append, mirrored_place _ h]

theorem target_of_merged (hmerge : s.mergeSources = true) (h : names ≠ []) :
    Asset.target s ⟨m, true, names⟩ = (merged s.sourceDirectory).place (mergedLead m.name) names := by
  have hplace : Asset.place true ⟨m, true, names⟩ = ["src", "sources"] ++ [flatName m.name names] := rfl
  rw [Asset.target, hmerge, hplace, Path.below_append, ← sourceDirectory_eq, merged_place _ _ h,
    Path.below_cons, Path.below_nil, flatName]

theorem headerDirectory_join (h : hasPlainSegments m.name = true) :
    s.headerDirectory.join m.includePath = s.libraryDirectory.below (["src"] ++ nameSegments m.name) := by
  rw [Module.includePath, join_modulePath _ h, headerDirectory_eq, ← Path.below_append]

theorem sourceDirectory_join (h : hasPlainSegments m.name = true) :
    s.sourceDirectory.join m.includePath =
      s.libraryDirectory.below (["src", "sources"] ++ nameSegments m.name) := by
  rw [Module.includePath, join_modulePath _ h, sourceDirectory_eq, ← Path.below_append]

theorem mem_escapeUnderscores {cs : List Char} {c : Char} :
    c ∈ escapeUnderscores cs ↔ c ∈ cs := by
  rw [escapeUnderscores, List.mem_flatMap]
  constructor
  · intro h
    obtain ⟨d, hd, hc⟩ := h
    split at hc <;> simp_all
  · intro h
    refine ⟨c, h, ?_⟩
    split <;> simp_all

end Assets

theorem isPlainName_flatName {module : String} {names : List String}
    (hmodule : hasPlainSegments module = true) (hnames : ∀ name ∈ names, isPlainName name = true) :
    isPlainName (flatName module names) = true := by
  have hunderscore : '_' ∈ (flatName module names).toList := by
    simp [flatName, Assets.mergedLead]
  refine isPlainName_of_mem hunderscore (by decide) ?_
  intro hslash
  rw [flatName, String.toList_append, List.mem_append] at hslash
  rcases hslash with hlead | hrest
  · simp only [Assets.mergedLead, String.toList_append, String.toList_ofList, List.mem_append,
      List.mem_map] at hlead
    rcases hlead with ⟨c, hc, hslash⟩ | hslash
    · have hslash : c = '/' := by
        split at hslash
        · exact absurd hslash (by decide)
        · exact hslash
      rw [hslash, Assets.mem_escapeUnderscores] at hc
      exact not_slash_of_hasPlainSegments hmodule hc
    · exact absurd hslash (by decide)
  · rcases Text.mem_intercalate hrest with hslash | ⟨piece, hpiece, hslash⟩
    · exact absurd hslash (by decide)
    · obtain ⟨name, hname, rfl⟩ := List.mem_map.1 hpiece
      rw [Assets.underscoreEscape, String.toList_ofList, Assets.mem_escapeUnderscores] at hslash
      exact slash_not_mem_of_isPlainName (hnames name hname) hslash

/-- The files of modules have places of plain names. -/
theorem Asset.plain_place {input : Input} {x : Asset} (h : x.Of input)
    (hmodule : hasPlainSegments x.module.name = true) (merge : Bool) :
    x.place merge ≠ [] ∧ ∀ name ∈ x.place merge, isPlainName name = true := by
  have hparts : ∀ name ∈ x.parts, isPlainName name = true :=
    List.forall_mem_append.2 ⟨List.all_eq_true.1 hmodule, h.plain⟩
  have hsrc : isPlainName "src" = true := by decide
  have hsources : isPlainName "sources" = true := by decide
  have hflat := isPlainName_flatName hmodule h.plain
  rw [Asset.place]
  split
  · split
    · exact ⟨by simp, by simp [hsrc, hsources, hflat]⟩
    · exact ⟨by simp, List.forall_mem_cons.2 ⟨hsrc, List.forall_mem_cons.2 ⟨hsources, hparts⟩⟩⟩
  · exact ⟨by simp, List.forall_mem_cons.2 ⟨hsrc, hparts⟩⟩

/-! ### Modules below a root -/

/-- The module lies below a root directory, where the parts of its name lead to. -/
structure Module.LiesBelow (m : Module) (root : Path) : Prop where
  plain : hasPlainSegments m.name = true
  directory : m.directory = root.below (nameSegments m.name)

section Loading

open Fallible

variable {w : Workshop} {settings : Settings} {tree : FileTree} {root : Path} {input : Input}
  {name : String} {m : Module}

/-- The directory of a module is the one that its description is in. -/
theorem directory_of_readModule {path : Path} (h : Description.readModule tree path = .ok m) :
    m.directory = path.parent?.getD ⟨"."⟩ := by
  obtain ⟨⟨tag, body⟩, -, h⟩ := bind_eq_ok_iff.1 h
  obtain ⟨⟨header, content⟩, -, h⟩ := bind_eq_ok_iff.1 h
  dsimp only at h
  split at h
  · cases h
  · obtain ⟨includes, -, h⟩ := bind_eq_ok_iff.1 h
    cases h
    rfl

/-- The names that lead from the root to a file of a module. -/
theorem Asset.origin_eq {x : Asset} (h : x.module.LiesBelow root) :
    x.origin = root.below (nameSegments x.module.name ++ x.part :: x.names) := by
  rw [Asset.origin, Asset.home, h.directory, Path.below_append]
  rfl

theorem loadFrom_eq_ok_iff :
    loadFrom tree root name = .ok m ↔
      hasPlainSegments name = true ∧ tree.isDirectory (moduleDirectory root name) = true ∧
        Description.readModule tree ((moduleDirectory root name).join descriptionFile) = .ok m := by
  rw [loadFrom]
  by_cases hcond : (hasPlainSegments name && tree.isDirectory (moduleDirectory root name)) = true
  · rw [if_pos hcond, Description.loadModule, Description.within, mapError_eq_ok_iff]
    rw [Bool.and_eq_true] at hcond
    exact ⟨fun h => ⟨hcond.1, hcond.2, h⟩, fun h => h.2.2⟩
  · rw [if_neg hcond]
    rw [Bool.and_eq_true] at hcond
    exact ⟨nofun, fun h => absurd ⟨h.1, h.2.1⟩ hcond⟩

theorem directory_of_loadFrom (h : loadFrom tree root name = .ok m) :
    m.directory = root.below (nameSegments name) := by
  obtain ⟨hplain, -, hread⟩ := loadFrom_eq_ok_iff.1 h
  rcases List.eq_nil_or_concat (nameSegments name) with hnil | ⟨before, last, hsegments⟩
  · exact absurd hnil (nameSegments_ne_nil name)
  · have hlast : isPlainName last = true := by
      apply List.all_eq_true.1 hplain
      rw [hsegments]
      simp
    have hdirectory : moduleDirectory root name = (root.below before).join last := by
      rw [moduleDirectory, hsegments, List.concat_eq_append, List.foldl_append]
      rfl
    rw [directory_of_readModule hread, hdirectory, Path.parent?_join_join _ hlast (by decide),
      Option.getD_some, ← hdirectory]
    rfl

/-- The modules of an accepted build are those that their names provide. -/
theorem Accepted.backs (h : Accepted w settings tree input) :
    (directorySource tree w.modulesRoot).Backs input.modules :=
  ((closure_rounds _ _).pending_of_ok (pending_start _ _) h.modules).backs

theorem Accepted.loadFrom (h : Accepted w settings tree input) (hm : m ∈ input.modules.values) :
    loadFrom tree w.modulesRoot m.name = .ok m := by
  obtain ⟨name, hget⟩ := Dict.exists_of_mem_values hm
  have hprovides := h.backs name m hget
  rw [hprovides.named]
  exact hprovides.load

theorem Accepted.liesBelow (h : Accepted w settings tree input) (hm : m ∈ input.modules.values) :
    m.LiesBelow w.modulesRoot :=
  ⟨(loadFrom_eq_ok_iff.1 (h.loadFrom hm)).1, directory_of_loadFrom (h.loadFrom hm)⟩

end Loading

/-! ### The permit of a build -/

/-- The permit of a build: directories on the way to the library and below it, the generated files, and
copies of files of the modules to their places.  Nothing but the files of modules is looked at. -/
def Permit.library (input : Input) : Permit where
  directory := input.settings.libraryDirectory.Along
  write p := ∃ usage, p ∈ generatedFiles input.settings usage
  copy source p := ∃ x : Asset, x.Of input ∧ x.names ≠ [] ∧ source = x.origin ∧
    p = x.target input.settings
  look p := ∃ x : Asset, x.Of input ∧ p = x.origin
  name n := isPlainName n = true
  above h hq := h.parent hq

section Admits

variable {input : Input} {p source : Path}

theorem along_below (p : Path) {names : List String} (h : ∀ name ∈ names, isPlainName name = true) :
    p.Along (p.below names) :=
  (Path.descends_below p h).along

/-- Everything that is written or copied goes below the directory of the library. -/
theorem library_write_below (hcheck : input.settings.check = .ok ())
    (h : (Permit.library input).write p) :
    ∃ place, place ≠ [] ∧ (∀ name ∈ place, isPlainName name = true) ∧
      p = input.settings.libraryDirectory.below place := by
  obtain ⟨usage, hp⟩ := h
  rw [generatedFiles_eq] at hp
  obtain ⟨place, hplace, rfl⟩ := List.mem_map.1 hp
  obtain ⟨hne, hplain⟩ := plain_generatedPlaces hcheck usage hplace
  exact ⟨place, hne, hplain, rfl⟩

theorem library_copy_below (hmodules : ∀ m ∈ input.modules.values, hasPlainSegments m.name = true)
    (h : (Permit.library input).copy source p) :
    ∃ place, place ≠ [] ∧ (∀ name ∈ place, isPlainName name = true) ∧
      p = input.settings.libraryDirectory.below place := by
  obtain ⟨x, hx, -, -, rfl⟩ := h
  obtain ⟨hne, hplain⟩ := x.plain_place hx (hmodules _ hx.mem) input.settings.mergeSources
  exact ⟨_, hne, hplain, rfl⟩

/-- What is looked at has a name of its own. -/
theorem library_look_isAnchor (h : (Permit.library input).look p) :
    p.destination.isAnchor = false := by
  obtain ⟨x, hx, rfl⟩ := h
  have hplain : ∀ name ∈ x.part :: x.names, isPlainName name = true :=
    List.forall_mem_cons.2 ⟨x.plain_part, hx.plain⟩
  have horigin : x.origin = x.module.directory.below (x.part :: x.names) := rfl
  rw [horigin, (Path.descends_below _ hplain).destination]
  cases hrev : (x.part :: x.names).reverse with
  | nil => simp at hrev
  | cons name above =>
    exact Location.isAnchor_cons_of_plain _ (hplain name (List.mem_reverse.1 (by simp [hrev])))

theorem Deed.wellNamed {P : Permit} {a b : Artifacts} (h : Deed P a b) (ha : a.tree.WellNamed) :
    b.tree.WellNamed := by
  cases h with
  | directory => exact ha.set (Path.regular_destination _) _
  | file => exact ha.set (Path.regular_destination _) _

theorem Deeds.wellNamed {P : Permit} {a b : Artifacts} (h : Deeds P a b) (ha : a.tree.WellNamed) :
    b.tree.WellNamed := by
  induction h with
  | refl => exact ha
  | tail _ hstep ih => exact hstep.wellNamed ih

theorem library_guards (input : Input) : (Permit.library input).Guards FileTree.WellNamed := by
  constructor
  · exact fun h ha => h.wellNamed ha
  · intro t p entries ht hp hlist
    exact (ht.listed (library_look_isAnchor hp) hlist).plain

/-- The permit covers a directory of a module that is copied as it is to a place below the library. -/
theorem covers_mirrored {m : Module} (hm : m ∈ input.modules.values) (isSource : Bool)
    {top : List String} (htop : ∀ name ∈ top, isPlainName name = true)
    (hplace : ∀ names : List String,
      Asset.place input.settings.mergeSources ⟨m, isSource, names⟩ = top ++ names) :
    Assets.Covers (Permit.library input) Assets.mirrored (Asset.home ⟨m, isSource, []⟩)
      (input.settings.libraryDirectory.below top) := by
  refine ⟨?_, fun names hnames => ⟨⟨m, isSource, names⟩, ⟨hm, hnames⟩, rfl⟩, ?_⟩
  · intro names hnames
    show input.settings.libraryDirectory.Along
      ((input.settings.libraryDirectory.below top).below names)
    rw [← Path.below_append]
    exact along_below _ (List.forall_mem_append.2 ⟨htop, hnames⟩)
  · intro names hnames hne
    exact ⟨⟨m, isSource, names⟩, ⟨hm, hnames⟩, hne, rfl,
      (Assets.target_of_mirrored (hplace names) hne).symm⟩

/-- The permit covers the sources of a module when all sources go into one directory. -/
theorem covers_merged {m : Module} (hm : m ∈ input.modules.values)
    (hmerge : input.settings.mergeSources = true) :
    Assets.Covers (Permit.library input) (Assets.merged input.settings.sourceDirectory)
      m.sourceDirectory (Assets.mergedLead m.name) := by
  refine ⟨?_, fun names hnames => ⟨⟨m, true, names⟩, ⟨hm, hnames⟩, rfl⟩, ?_⟩
  · intro names _
    simp only [Permit.library, Assets.merged]
    rw [sourceDirectory_eq]
    exact along_below _ (by decide)
  · intro names hnames hne
    exact ⟨⟨m, true, names⟩, ⟨hm, hnames⟩, hne, rfl, (Assets.target_of_merged hmerge hne).symm⟩

theorem library_admits (hcheck : input.settings.check = .ok ())
    (hmodules : ∀ m ∈ input.modules.values, hasPlainSegments m.name = true) :
    (Permit.library input).Admits input := by
  have hsegments : ∀ (fixed : List String), (∀ name ∈ fixed, isPlainName name = true) →
      ∀ m ∈ input.modules.values, ∀ name ∈ fixed ++ nameSegments m.name, isPlainName name = true :=
    fun fixed hfixed m hm => List.forall_mem_append.2 ⟨hfixed, List.all_eq_true.1 (hmodules m hm)⟩
  refine ⟨?_, ?_, ?_, ?_, fun m hm hmerge => covers_merged hm hmerge, ?_⟩
  · rw [headerDirectory_eq]
    exact along_below _ (by decide)
  · rw [sourceDirectory_eq]
    exact along_below _ (by decide)
  · intro m hm
    rw [Assets.headerDirectory_join (hmodules m hm)]
    refine covers_mirrored hm false (hsegments _ (by decide) m hm) ?_
    intro names
    simp [Asset.place, Asset.parts]
  · intro m hm hmerge
    rw [Assets.sourceDirectory_join (hmodules m hm)]
    refine covers_mirrored hm true (hsegments _ (by decide) m hm) ?_
    intro names
    simp [Asset.place, Asset.parts, hmerge]
  · intro usage p hp
    obtain ⟨place, -, hplain, rfl⟩ := library_write_below hcheck ⟨usage, hp⟩
    exact ⟨⟨usage, hp⟩, fun q hq => (along_below _ hplain).parent hq⟩

end Admits

/-! ### Nested modules -/

/-- A project with two modules, one of which lies in the directory of the other.  Both have a header and
a source, and the inner one has no directories for its own. -/
def nestedModules : FileTree :=
  .ofEntries
    [(["project.json"], .file ("\x7b\"project\": \x7b\"platform\": \"ArduinoUno\", \"program\": "
        ++ "\x7b\"imports\": [\"a\", \"a.b\"]\x7d, \"eeprom\": "
        ++ "\x7b\"items\": [\x7b\"name\": \"counter\", \"type\": \"int\"\x7d]\x7d\x7d\x7d").toUTF8),
      (["modules"], .directory), (["a", "modules"], .directory),
      (["description.json", "a", "modules"],
        .file "\x7b\"library\": \x7b\"name\": \"a\"\x7d\x7d".toUTF8),
      (["include", "a", "modules"], .directory), (["b", "include", "a", "modules"], .directory),
      (["c.h", "b", "include", "a", "modules"], .file "1".toUTF8),
      (["src", "a", "modules"], .directory), (["b", "src", "a", "modules"], .directory),
      (["c.cpp", "b", "src", "a", "modules"], .file "1".toUTF8),
      (["b", "a", "modules"], .directory),
      (["description.json", "b", "a", "modules"],
        .file "\x7b\"library\": \x7b\"name\": \"a.b\"\x7d\x7d".toUTF8),
      (["include", "b", "a", "modules"], .directory),
      (["c.h", "include", "b", "a", "modules"], .file "2".toUTF8),
      (["src", "b", "a", "modules"], .directory),
      (["c.cpp", "src", "b", "a", "modules"], .file "2".toUTF8)]

theorem nestedModules_wellNamed : nestedModules.WellNamed :=
  FileTree.wellNamed_ofEntries (by decide)

/-- The settings of its build. -/
def nestedSettings (merge : Bool) : Settings where
  projectFile := ⟨"project.json"⟩
  outputRoot := ⟨"out"⟩
  libraryName := "Demo"
  mergeSources := merge

def nestedWorkshop : Workshop where
  modulesRoot := ⟨"modules"⟩

theorem exists_report_of_texts {w : Workshop} {settings : Settings} {tree : FileTree}
    {texts : List String} (h : (build w settings tree).2.toOption.map
      (fun report => report.files.map Path.text) = some texts) :
    ∃ after report, build w settings tree = (after, .ok report) ∧
      report.files.map Path.text = texts := by
  obtain ⟨report, hreport, htexts⟩ := Option.map_eq_some_iff.1 h
  cases hbuild : build w settings tree with
  | mk after result =>
    rw [hbuild] at hreport
    cases result with
    | error f => cases hreport
    | ok _ =>
      cases hreport
      exact ⟨after, report, rfl, htexts⟩

end Boardwright
