import Boardwright.Build
import Boardwright.Proofs.Paths
import Mathlib.Data.List.Forall2

/-!
# Builds as work

Whatever a build does to files is put together from a few elementary pieces of work: directories are
made, files are written and copied, and now and then it is looked up what a path leads to or what is in a
directory.  The functions of a build are written here in these terms, once; what holds of the elementary
pieces and of the ways to combine them then holds of all of them.

* **`Work`**: something that is done to files and may fail, with the elementary pieces and their
  combinations.
* **`Placement`**, **`copyBy`**: how the copy of a directory is laid out, and the copying.  A tree that is
  copied as it is and one whose files go into one directory are two placements.
* **`saves_standard`**: the second phases of the standard generators save a list of files.
* **`Permit`**: which directories may be made, which files may be written, and what may be looked at.
* **`Lawful`**: the work that keeps to a permit.
* **`prepareLibrary_lawful`**, **`saves_lawful`**: all work of a build keeps to a permit that admits it.
-/

namespace Boardwright

/-- Something that is done to files and may fail. -/
abbrev Work (ε : Type) := Artifacts → Artifacts × Except ε Unit

namespace Work

variable {ε ε' β : Type}

/-! ### Elementary pieces -/

def done : Work ε := fun a => (a, .ok ())

def fail (e : ε) : Work ε := fun a => (a, .error e)

/-- Makes a directory and those above it. -/
def make (p : Path) : Work IoFault := fun a =>
  ({ a with tree := (a.tree.createDirectories p).1 }, (a.tree.createDirectories p).2)

/-- Writes a file and notes its path. -/
def write (p : Path) (content : ByteArray) : Work IoFault := fun a =>
  match a.tree.write p content with
  | .error fault => (a, .error fault)
  | .ok tree => (⟨tree, a.written ++ [p]⟩, .ok ())

/-- Copies a file and notes its new path. -/
def copy (source p : Path) : Work IoFault := fun a =>
  match a.tree.copy source p with
  | .error fault => (a, .error fault)
  | .ok tree => (⟨tree, a.written ++ [p]⟩, .ok ())

/-! ### Combinations -/

/-- One after the other, unless the first one fails. -/
def andThen (f g : Work ε) : Work ε := fun a =>
  match f a with
  | (a, .error e) => (a, .error e)
  | (a, .ok ()) => g a

/-- Work whose failure is told in other words. -/
def blame (f : Work ε) (wrap : ε → ε') : Work ε' := fun a =>
  match f a with
  | (a, .error e) => (a, .error (wrap e))
  | (a, .ok ()) => (a, .ok ())

def ifDirectory (p : Path) (f g : Work ε) : Work ε := fun a =>
  if a.tree.isDirectory p then f a else g a

def ifFile (p : Path) (f g : Work ε) : Work ε := fun a =>
  if a.tree.isFile p then f a else g a

/-- Work that depends on what is in a directory. -/
def listing (p : Path) (wrap : IoFault → ε) (f : List (String × Node) → Work ε) : Work ε := fun a =>
  match a.tree.list p with
  | .error fault => (a, .error (wrap fault))
  | .ok entries => f entries a

theorem done_andThen (f : Work ε) : andThen done f = f := by
  funext a
  rfl

theorem andThen_done (f : Work ε) : andThen f done = f := by
  funext a
  simp only [andThen, done]
  cases f a with
  | mk after outcome => cases outcome <;> rfl

theorem andThen_assoc (f g h : Work ε) : andThen (andThen f g) h = andThen f (andThen g h) := by
  funext a
  simp only [andThen]
  cases f a with
  | mk after outcome => cases outcome <;> rfl

theorem runAll_nil (step : β → Work ε) : runAll step [] = done := by
  funext a
  rfl

theorem runAll_cons (step : β → Work ε) (b : β) (rest : List β) :
    runAll step (b :: rest) = andThen (step b) (runAll step rest) := by
  funext a
  simp only [runAll, andThen]
  cases step b a with
  | mk after outcome => cases outcome <;> rfl

/-! ### Work that succeeds -/

section Success

variable {a c : Artifacts} {f g : Work ε} {p source : Path}

theorem done_eq_ok_iff : (done : Work ε) a = (c, .ok ()) ↔ c = a := by
  rw [done, Prod.mk.injEq, and_iff_left rfl, eq_comm]

theorem andThen_eq_ok_iff :
    andThen f g a = (c, .ok ()) ↔ ∃ b, f a = (b, .ok ()) ∧ g b = (c, .ok ()) := by
  unfold andThen
  cases hf : f a with
  | mk b outcome => cases outcome <;> simp

theorem blame_eq_ok_iff {wrap : ε → ε'} : blame f wrap a = (c, .ok ()) ↔ f a = (c, .ok ()) := by
  unfold blame
  cases hf : f a with
  | mk b outcome => cases outcome <;> simp

theorem listing_eq_ok_iff {wrap : IoFault → ε} {h : List (String × Node) → Work ε} :
    listing p wrap h a = (c, .ok ()) ↔
      ∃ entries, a.tree.list p = .ok entries ∧ h entries a = (c, .ok ()) := by
  unfold listing
  cases hlist : a.tree.list p <;> simp

theorem write_eq_ok_iff {content : ByteArray} :
    write p content a = (c, .ok ()) ↔ a.tree.target p = .ok p.destination ∧
      c = ⟨a.tree.set p.destination (.file content), a.written ++ [p]⟩ := by
  unfold write FileTree.write
  cases htarget : a.tree.target p with
  | error fault => simp [bind, Except.bind]
  | ok l =>
    obtain ⟨-, -, -, -, -, rfl⟩ := FileTree.target_eq_ok_iff.1 htarget
    simp [bind, Except.bind, pure, Except.pure, eq_comm]

theorem copy_eq_ok_iff :
    copy source p a = (c, .ok ()) ↔ ∃ file, a.tree.file source = .ok file ∧
      a.tree.target p = .ok p.destination ∧
        c = ⟨a.tree.set p.destination (.file (if p.destination = source.destination
          then { file with content := ByteArray.empty } else file)), a.written ++ [p]⟩ := by
  unfold copy FileTree.copy
  cases hfile : a.tree.file source with
  | error fault => simp [bind, Except.bind]
  | ok file =>
    obtain ⟨-, hcheck, hpassable, -⟩ := FileTree.file_eq_ok_iff.1 hfile
    rw [FileTree.reach_eq_ok_iff.2 ⟨hcheck, hpassable, rfl⟩]
    cases htarget : a.tree.target p with
    | error fault => simp [bind, Except.bind]
    | ok l =>
      obtain ⟨-, -, -, -, -, rfl⟩ := FileTree.target_eq_ok_iff.1 htarget
      by_cases hself : p.destination = source.destination
      · simp [bind, Except.bind, pure, Except.pure, eq_comm, FileTree.place, hself]
      · simp [bind, Except.bind, pure, Except.pure, eq_comm, FileTree.place, hself]

end Success

theorem runAll_append (step : β → Work ε) (l rest : List β) :
    runAll step (l ++ rest) = andThen (runAll step l) (runAll step rest) := by
  induction l with
  | nil => rw [List.nil_append, runAll_nil, done_andThen]
  | cons b l ih => rw [List.cons_append, runAll_cons, runAll_cons, ih, andThen_assoc]

end Work

/-! ### Copied files -/

namespace Assets

open Work

theorem makeDirectory_eq (p : Path) : makeDirectory p = (make p).blame (.creating p) := by
  funext a
  simp only [makeDirectory, make, blame]
  cases a.tree.createDirectories p with
  | mk tree outcome => cases outcome <;> rfl

theorem copyFile_eq (source p : Path) :
    copyFile source p = (Work.copy source p).blame (.copying source p) := by
  funext a
  simp only [copyFile, Work.copy, blame]
  cases a.tree.copy source p <;> rfl

/-- How the copy of a directory is laid out, with a position of type `χ` for every directory that is
copied: the directory that is made for it, the positions of the directories in it, and the places of
the files in it. -/
structure Placement (χ : Type) where
  directory : χ → Path
  down : χ → String → χ
  file : χ → String → Path
  tooDeep : Path → χ → AssetFault

variable {χ : Type}

/-- The place of a file, by the names that lead to it from the directory that is copied. -/
def Placement.place (k : Placement χ) (x : χ) : List String → Path
  | [] => k.directory x
  | [name] => k.file x name
  | name :: next :: rest => k.place (k.down x name) (next :: rest)

/-- Copies one entry of a directory; `inner` copies the directories in it. -/
def copyEntry (k : Placement χ) (inner : Path → χ → Work AssetFault) (source : Path) (x : χ)
    (name : String) : Work AssetFault :=
  ifDirectory (source.join name) (inner (source.join name) (k.down x name))
    (ifFile (source.join name) (copyFile (source.join name) (k.file x name)) done)

/-- Copies the contents of a directory that is nested at most `depth` deep. -/
def copyBy (k : Placement χ) : Nat → Path → χ → Work AssetFault
  | 0, source, x => fail (k.tooDeep source x)
  | depth + 1, source, x =>
    andThen (makeDirectory (k.directory x))
      (listing source (.listing source) (runAll fun e => copyEntry k (copyBy k depth) source x e.1))

/-- A tree that is copied as it is. -/
def mirrored : Placement Path where
  directory target := target
  down target name := target.join name
  file target name := target.join name
  tooDeep _ target := .creating target .nameTooLong

/-- A tree whose files go into one directory. -/
def merged (target : Path) : Placement String where
  directory _ := target
  down lead name := lead ++ underscoreEscape name ++ "_"
  file lead name := target.join (lead ++ underscoreEscape name)
  tooDeep source _ := .listing source .nameTooLong

theorem forEntries_eq (source : Path) (step : String → Work AssetFault) :
    (fun a => forEntries source a step) =
      listing source (.listing source) (runAll fun e => step e.1) := by
  funext a
  unfold forEntries listing
  cases a.tree.list source <;> rfl

theorem copyTree_eq (depth : Nat) (source target : Path) :
    copyTree depth source target = copyBy mirrored depth source target := by
  induction depth generalizing source target with
  | zero => rfl
  | succ depth ih =>
    have hinner : copyBy mirrored depth = copyTree depth := by
      funext path position
      exact (ih path position).symm
    rw [copyBy, hinner, ← forEntries_eq]
    funext a
    simp only [copyTree, andThen, mirrored]
    cases makeDirectory target a with
    | mk made outcome => cases outcome <;> rfl

theorem copyMerged_eq (depth : Nat) (source target : Path) (lead : String) :
    copyMerged depth source target lead = copyBy (merged target) depth source lead := by
  induction depth generalizing source lead with
  | zero => rfl
  | succ depth ih =>
    have hinner : copyBy (merged target) depth = fun path => copyMerged depth path target := by
      funext path position
      exact (ih path position).symm
    rw [copyBy, hinner, ← forEntries_eq]
    funext a
    simp only [copyMerged, andThen, merged]
    cases makeDirectory target a with
    | mk made outcome => cases outcome <;> rfl

theorem exportHeaders_eq (m : Module) (s : Settings) :
    exportHeaders m s = ifDirectory m.headerDirectory
      (copyBy mirrored maxDepth m.headerDirectory (s.headerDirectory.join m.includePath)) done := by
  rw [← copyTree_eq]
  rfl

theorem exportSources_eq (m : Module) (s : Settings) :
    exportSources m s = ifDirectory m.sourceDirectory
      (if s.mergeSources then
        copyBy (merged s.sourceDirectory) maxDepth m.sourceDirectory (mergedLead m.name)
      else copyBy mirrored maxDepth m.sourceDirectory (s.sourceDirectory.join m.includePath)) done := by
  rw [← copyTree_eq, ← copyMerged_eq]
  funext a
  simp only [exportSources, ifDirectory]
  cases s.mergeSources <;> rfl

theorem exportModule_eq (s : Settings) (m : Module) :
    exportModule s m =
      (andThen (exportHeaders m s) (exportSources m s)).blame (exportFailure m) := by
  funext a
  unfold exportModule andThen blame
  dsimp only
  cases exportHeaders m s a with
  | mk exported outcome =>
    cases outcome with
    | error f => rfl
    | ok _ =>
      dsimp only
      cases exportSources m s exported with
      | mk exported outcome => cases outcome <;> rfl

end Assets

open Work in
theorem makeOutputDirectory_eq (p : Path) (what : String) :
    makeOutputDirectory p what = (make p).blame fun fault => (Failure.compilation
      ("Output directory for " ++ what ++ " (" ++ p.text ++ ") cannot be created.")).because
        [fault.message] := by
  funext a
  simp only [makeOutputDirectory, make, blame]
  cases a.tree.createDirectories p with
  | mk tree outcome => cases outcome <;> rfl

theorem prepareLibrary_eq (input : Generation.Input) :
    prepareLibrary input =
      Work.andThen (makeOutputDirectory input.settings.headerDirectory "includes")
        (Work.andThen (makeOutputDirectory input.settings.sourceDirectory "source files")
          (runAll (Assets.exportModule input.settings) input.modules.values)) := by
  funext a
  unfold prepareLibrary Work.andThen
  cases makeOutputDirectory input.settings.headerDirectory "includes" a with
  | mk made outcome =>
    cases outcome with
    | error f => rfl
    | ok _ =>
      dsimp only
      cases makeOutputDirectory input.settings.sourceDirectory "source files" made with
      | mk made outcome => cases outcome <;> rfl

/-! ### Generated files -/

namespace Generation

open Work

/-- Makes the directory that a path lies in. -/
def makeAbove (p : Path) : Work Failure :=
  match p.parent? with
  | none => done
  | some parent =>
    (make parent).blame (saveFailure ("directory " ++ parent.text ++ " cannot be created"))

/-- Saves a text under a path. -/
def saveFile (f : Path × String) : Work Failure := fun a => save a f.1 f.2

theorem saveFile_eq (p : Path) (content : String) :
    saveFile (p, content) = andThen (makeAbove p) ((Work.write p content.toUTF8).blame
      (saveFailure ("file " ++ p.text ++ " cannot be written"))) := by
  have hparent : (fun a => makeParent a p) = makeAbove p := by
    funext a
    unfold makeParent makeAbove
    cases p.parent? with
    | none => rfl
    | some parent =>
      simp only [make, blame]
      cases a.tree.createDirectories parent with
      | mk tree outcome => cases outcome <;> rfl
  rw [← hparent]
  funext a
  unfold saveFile save andThen Work.write blame
  dsimp only
  cases makeParent a p with
  | mk made outcome =>
    cases outcome with
    | error f => rfl
    | ok _ =>
      dsimp only
      cases made.tree.write p content.toUTF8 <;> rfl

/-- The files that are generated, in their order.  Those about permanent storage are left out when
none is used. -/
def generatedFiles (settings : Settings) (usage : Nat) : List Path :=
  [settings.sourceDirectory.join "core.cpp", settings.projectHeader,
    settings.headerDirectory.join "acp/core.h"]
  ++ (if usage = 0 then [] else [settings.headerDirectory.join storageHeaderFile,
    settings.sourceDirectory.join "eeprom_vars.cpp"])
  ++ [settings.exampleSketch, settings.propertiesFile]

variable {σ : Type}

theorem generateAll_eq (s : σ) (prepared : List (Generator σ Artifacts × Template.Replacements)) :
    generateAll s prepared = runAll (fun x => x.1.generate s x.2) prepared := by
  induction prepared with
  | nil => rfl
  | cons x rest ih =>
    rw [Work.runAll_cons, ← ih]
    funext a
    simp only [generateAll, andThen]
    cases x.1.generate s x.2 a with
    | mk generated outcome => cases outcome <;> rfl

/-- Work that saves files under the given paths. -/
def Saves (f : Work Failure) (paths : List Path) : Prop :=
  ∃ files : List (Path × String), files.map (·.1) = paths ∧ f = runAll saveFile files

theorem saves_done : Saves done [] :=
  ⟨[], rfl, (Work.runAll_nil _).symm⟩

theorem saves_save (p : Path) (content : String) : Saves (fun a => save a p content) [p] := by
  refine ⟨[(p, content)], rfl, ?_⟩
  rw [Work.runAll_cons, Work.runAll_nil, andThen_done]
  rfl

theorem Saves.andThen {f g : Work Failure} {paths more : List Path} (hf : Saves f paths)
    (hg : Saves g more) : Saves (andThen f g) (paths ++ more) := by
  obtain ⟨files, rfl, rfl⟩ := hf
  obtain ⟨rest, rfl, rfl⟩ := hg
  exact ⟨files ++ rest, List.map_append, (Work.runAll_append _ _ _).symm⟩

theorem saves_storageClasses (input : Input) (s : State) (output : Template.Replacements) :
    Saves ((storageClasses input).generate s output) (if s.storageUsage = 0 then [] else
      [input.settings.headerDirectory.join storageHeaderFile,
        input.settings.sourceDirectory.join "eeprom_vars.cpp"]) := by
  by_cases husage : s.storageUsage = 0
  · have hnothing : (storageClasses input).generate s output = done := by
      funext a
      simp only [storageClasses, if_pos husage]
      rfl
    rw [hnothing, if_pos husage]
    exact saves_done
  · have hboth : (storageClasses input).generate s output =
        andThen
          (fun a => save a (input.settings.headerDirectory.join storageHeaderFile)
            (Template.fill StoredTemplate.storageHeader.text output))
          (fun a => save a (input.settings.sourceDirectory.join "eeprom_vars.cpp")
            (Template.fill StoredTemplate.storageSource.text output)) := by
      funext a
      simp only [storageClasses, if_neg husage, andThen]
      split <;> rename_i hsaved <;> rw [hsaved]
    rw [hboth, if_neg husage]
    exact (saves_save _ _).andThen (saves_save _ _)

/-- Second phases save files, if each of them does. -/
theorem saves_generateAll {s : σ} {paths : List (List Path)}
    {prepared : List (Generator σ Artifacts × Template.Replacements)}
    (h : List.Forall₂ (fun g ps => ∀ output, Saves (g.generate s output) ps)
      (prepared.map (·.1)) paths) : Saves (generateAll s prepared) paths.flatten := by
  rw [generateAll_eq]
  induction prepared generalizing paths with
  | nil =>
    cases h
    rw [Work.runAll_nil]
    exact saves_done
  | cons x rest ih =>
    obtain ⟨ps, more, hx, hrest, rfl⟩ := List.forall₂_cons_left_iff.1 h
    rw [Work.runAll_cons]
    exact (hx x.2).andThen (ih hrest)

/-- The second phases of the standard generators save the generated files. -/
theorem saves_standard {input : Input} (s : State)
    {prepared : List (Generator State Artifacts × Template.Replacements)}
    (h : prepared.map (·.1) = (standardPipeline input).generators) :
    Saves (generateAll s prepared) (generatedFiles input.settings s.storageUsage) := by
  have hpaths : generatedFiles input.settings s.storageUsage =
      [[input.settings.sourceDirectory.join "core.cpp"], [input.settings.projectHeader],
        [input.settings.headerDirectory.join "acp/core.h"],
        if s.storageUsage = 0 then [] else [input.settings.headerDirectory.join storageHeaderFile,
          input.settings.sourceDirectory.join "eeprom_vars.cpp"],
        [input.settings.exampleSketch], [input.settings.propertiesFile]].flatten := by
    simp [generatedFiles]
  rw [hpaths]
  apply saves_generateAll
  rw [h]
  refine .cons (fun output => ?_) (.cons (fun output => ?_) (.cons (fun output => ?_)
    (.cons (fun output => ?_) (.cons (fun output => ?_) (.cons (fun output => ?_) .nil)))))
  · simp only [coreSource, saves_save]
  · simp only [projectHeader, saves_save]
  · simp only [coreHeader, saves_save]
  · exact saves_storageClasses input s output
  · simp only [exampleSketch, saves_save]
  · simp only [libraryManifest, saves_save]

end Generation

/-! ### Permits -/

/-- Which directories may be made, which files may be written and copied, and what may be looked at.
The names that a listing can show are restricted to those with `name`.  With a directory the one above
it may be made. -/
structure Permit where
  directory : Path → Prop
  write : Path → Prop
  copy : Path → Path → Prop
  look : Path → Prop
  name : String → Prop
  above : ∀ {p q : Path}, directory p → p.parent? = some q → directory q

/-- Work that keeps to a permit. -/
inductive Lawful (P : Permit) : {ε : Type} → Work ε → Prop where
  | done {ε : Type} : Lawful P (Work.done : Work ε)
  | fail {ε : Type} (e : ε) : Lawful P (Work.fail e)
  | make {p : Path} : P.directory p → Lawful P (Work.make p)
  | write {p : Path} {content : ByteArray} : P.write p → Lawful P (Work.write p content)
  | copy {source p : Path} : P.copy source p → Lawful P (Work.copy source p)
  | andThen {ε : Type} {f g : Work ε} : Lawful P f → Lawful P g → Lawful P (Work.andThen f g)
  | blame {ε ε' : Type} {f : Work ε} {wrap : ε → ε'} : Lawful P f → Lawful P (Work.blame f wrap)
  | ifDirectory {ε : Type} {p : Path} {f g : Work ε} : P.look p → Lawful P f → Lawful P g →
      Lawful P (Work.ifDirectory p f g)
  | ifFile {ε : Type} {p : Path} {f g : Work ε} : P.look p → Lawful P f → Lawful P g →
      Lawful P (Work.ifFile p f g)
  | listing {ε : Type} {p : Path} {wrap : IoFault → ε} {f : List (String × Node) → Work ε} :
      P.look p → (∀ entries, (∀ e ∈ entries, P.name e.1) → Lawful P (f entries)) →
      Lawful P (Work.listing p wrap f)

section Lawful

variable {P : Permit} {β ε χ : Type}

theorem runAll_lawful {step : β → Work ε} {l : List β} (h : ∀ b ∈ l, Lawful P (step b)) :
    Lawful P (runAll step l) := by
  induction l with
  | nil =>
    rw [Work.runAll_nil]
    exact .done
  | cons b rest ih =>
    obtain ⟨hb, hrest⟩ := List.forall_mem_cons.1 h
    rw [Work.runAll_cons]
    exact .andThen hb (ih hrest)

namespace Assets

/-- A permit covers the copy of a directory: it permits the directories that are made for it, to look
at everything in it, and to copy the files in it to their places. -/
structure Covers (P : Permit) (k : Placement χ) (source : Path) (x : χ) : Prop where
  directory : ∀ names : List String, (∀ name ∈ names, P.name name) →
    P.directory (k.directory (names.foldl k.down x))
  look : ∀ names : List String, (∀ name ∈ names, P.name name) → P.look (source.below names)
  copy : ∀ names : List String, (∀ name ∈ names, P.name name) → names ≠ [] →
    P.copy (source.below names) (k.place x names)

variable {k : Placement χ} {source : Path} {x : χ} {name : String}

theorem Covers.down (h : Covers P k source x) (hname : P.name name) :
    Covers P k (source.join name) (k.down x name) := by
  have hcons : ∀ names : List String, (∀ n ∈ names, P.name n) → ∀ n ∈ name :: names, P.name n := by
    intro names hnames
    exact List.forall_mem_cons.2 ⟨hname, hnames⟩
  refine ⟨fun names hnames => h.directory (name :: names) (hcons names hnames),
    fun names hnames => h.look (name :: names) (hcons names hnames), ?_⟩
  intro names hnames hne
  have hcopy := h.copy (name :: names) (hcons names hnames) (by simp)
  cases names with
  | nil => exact absurd rfl hne
  | cons next rest => exact hcopy

theorem copyBy_lawful (depth : Nat) (h : Covers P k source x) :
    Lawful P (copyBy k depth source x) := by
  induction depth generalizing source x with
  | zero => exact .fail _
  | succ depth ih =>
    rw [copyBy, makeDirectory_eq]
    refine .andThen (.blame (.make (h.directory [] (by simp)))) ?_
    refine .listing (h.look [] (by simp)) ?_
    intro entries hentries
    apply runAll_lawful
    intro e he
    have hname : P.name e.1 := hentries e he
    have hlook : P.look (source.join e.1) := h.look [e.1] (by simpa using hname)
    rw [copyEntry, copyFile_eq]
    refine .ifDirectory hlook (ih (h.down hname)) (.ifFile hlook (.blame (.copy ?_)) .done)
    exact h.copy [e.1] (by simpa using hname) (by simp)

end Assets

open Assets in
/-- A permit admits a build: it covers the files of all modules, and permits the directories of the
library and the generated files. -/
structure Permit.Admits (P : Permit) (input : Generation.Input) : Prop where
  headerDirectory : P.directory input.settings.headerDirectory
  sourceDirectory : P.directory input.settings.sourceDirectory
  headers : ∀ m ∈ input.modules.values, Covers P mirrored m.headerDirectory
    (input.settings.headerDirectory.join m.includePath)
  sources : ∀ m ∈ input.modules.values, input.settings.mergeSources = false →
    Covers P mirrored m.sourceDirectory (input.settings.sourceDirectory.join m.includePath)
  mergedSources : ∀ m ∈ input.modules.values, input.settings.mergeSources = true →
    Covers P (merged input.settings.sourceDirectory) m.sourceDirectory (mergedLead m.name)
  generated : ∀ usage, ∀ p ∈ Generation.generatedFiles input.settings usage,
    P.write p ∧ ∀ q, p.parent? = some q → P.directory q

variable {input : Generation.Input}

theorem exportModule_lawful (h : P.Admits input) {m : Module} (hm : m ∈ input.modules.values) :
    Lawful P (Assets.exportModule input.settings m) := by
  have hsourceLook : P.look m.sourceDirectory := by
    cases hmerge : input.settings.mergeSources with
    | false => exact (h.sources m hm hmerge).look [] (by simp)
    | true => exact (h.mergedSources m hm hmerge).look [] (by simp)
  rw [Assets.exportModule_eq, Assets.exportHeaders_eq, Assets.exportSources_eq]
  refine .blame (.andThen ?_ ?_)
  · have hcovers := h.headers m hm
    exact .ifDirectory (hcovers.look [] (by simp)) (Assets.copyBy_lawful _ hcovers) .done
  · refine .ifDirectory hsourceLook ?_ .done
    cases hmerge : input.settings.mergeSources with
    | false => exact Assets.copyBy_lawful _ (h.sources m hm hmerge)
    | true => exact Assets.copyBy_lawful _ (h.mergedSources m hm hmerge)

theorem prepareLibrary_lawful (h : P.Admits input) : Lawful P (prepareLibrary input) := by
  rw [prepareLibrary_eq, makeOutputDirectory_eq, makeOutputDirectory_eq]
  refine .andThen (.blame (.make h.headerDirectory)) ?_
  refine .andThen (.blame (.make h.sourceDirectory)) ?_
  exact runAll_lawful fun m hm => exportModule_lawful h hm

theorem saves_lawful {f : Work Failure} {paths : List Path} (hf : Generation.Saves f paths)
    (h : ∀ p ∈ paths, P.write p ∧ ∀ q, p.parent? = some q → P.directory q) : Lawful P f := by
  obtain ⟨files, rfl, rfl⟩ := hf
  apply runAll_lawful
  intro file hfile
  obtain ⟨hwrite, habove⟩ := h file.1 (List.mem_map.2 ⟨file, hfile, rfl⟩)
  obtain ⟨p, content⟩ := file
  rw [Generation.saveFile_eq]
  refine .andThen ?_ (.blame (.write hwrite))
  unfold Generation.makeAbove
  cases hparent : p.parent? with
  | none => exact .done
  | some q => exact .blame (.make (habove q hparent))

end Lawful

end Boardwright
