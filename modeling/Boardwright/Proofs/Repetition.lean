import Boardwright.Proofs.Confinement
import Boardwright.Proofs.Region

/-!
# Building twice

A second build of the same project meets the library of the first one.  Every directory it wants to make
is there, and every file it wants to write may be there with the content that it had at the end of the
first build.  Step by step the two runs do the same: the files that the first run has written so far
have in both trees the same content, and everything else is in the tree of the second run as it was at
the end of the first.

* **`createDirectories_of_isDirectory`**: directories that are there are not made again.
* **`Retraced`**: how the trees of the two runs are related.
* **`Lawful.retraces`**: lawful work that has succeeded once succeeds again, and does the same.
* **`standardPipeline_chance`**: what is generated does not depend on chance, unless the project says
  so.
* **`build_repeats`**: a second build succeeds, gives the same report and changes nothing, unless a file
  is protected.
* **`build_fails_again`**: a header that is copied once only, and a build that overwrites its project.
-/

namespace Boardwright

open Fallible Generation

/-! ### Directories that are there -/

namespace FileTree

variable {t s : FileTree} {p : Path}

theorem ensureDirectory_of_isDirectory (h : t.isDirectory p = true) :
    t.ensureDirectory p = (t, .ok ()) := by
  obtain ⟨hcheck, hpassable, hget⟩ := isDirectory_iff.1 h
  have hcreate : t.createDirectory p = .error .alreadyExists := by
    rw [createDirectory, reach_eq_ok_iff.2 ⟨hcheck, hpassable, rfl⟩]
    simp only [place, hget, bind, Except.bind]
    rfl
  rw [ensureDirectory, hcreate]
  simp only [h, if_true]

theorem createDirectories_of_isDirectory (h : p.text.isEmpty = true ∨ t.isDirectory p = true) :
    t.createDirectories p = (t, .ok ()) := by
  unfold createDirectories createUpward
  split
  · rfl
  next hempty =>
    have hdirectory : t.isDirectory p = true := h.resolve_left hempty
    rw [ensureDirectory_of_isDirectory hdirectory]

theorem isDirectory_of_ensureDirectory (h : t.ensureDirectory p = (s, .ok ())) :
    s.isDirectory p = true := by
  rw [ensureDirectory] at h
  cases hcreate : t.createDirectory p with
  | error fault =>
    rw [hcreate] at h
    simp only [Prod.mk.injEq] at h
    obtain ⟨rfl, hok⟩ := h
    by_contra hnot
    rw [if_neg hnot] at hok
    cases hok
  | ok made =>
    rw [hcreate] at h
    cases h
    obtain ⟨found, hreach, hmade⟩ := bind_eq_ok_iff.1 hcreate
    obtain ⟨hcheck, hpassable, rfl⟩ := reach_eq_ok_iff.1 hreach
    cases hnode : (t.place p.destination).node with
    | some node =>
      rw [hnode] at hmade
      cases hmade
    | none =>
      rw [hnode] at hmade
      cases hmade
      have hchange : Change t (t.set p.destination .directory) := .directory _ hnode
      have hanchor : p.destination.isAnchor = false := by
        apply isAnchor_of_get?_ne (t := t)
        rw [show t.get? p.destination = none from hnode]
        simp
      exact isDirectory_iff.2 ⟨hcheck, hchange.keeps.passable hpassable, get?_set_self t _ hanchor⟩

theorem isDirectory_of_createUpward {depth : Nat} (h : createUpward depth p t = (s, .ok ())) :
    p.text.isEmpty = true ∨ s.isDirectory p = true := by
  cases depth with
  | zero => exact .inr (isDirectory_of_ensureDirectory h)
  | succ depth =>
    unfold createUpward at h
    split at h
    next hempty => exact .inl hempty
    · split at h
      · split at h
        · cases h
        · split at h
          · exact .inr (isDirectory_of_ensureDirectory h)
          next hfailed => exact absurd h (hfailed s)
      next hdone _ => exact .inr (isDirectory_of_ensureDirectory h)

/-- Making directories changes no entry that is there. -/
theorem get?_createDirectories (t : FileTree) (p : Path) {l : Location} (h : t.get? l ≠ none) :
    (t.createDirectories p).1.get? l = t.get? l := by
  -- as the only deeds of a run that has noted nothing
  have hdeeds : Deeds Permit.everywhere ⟨t, []⟩ ⟨(t.createDirectories p).1, []⟩ :=
    createDirectories_deeds trivial ⟨t, []⟩
  rcases hdeeds.entry l with hsame | ⟨q, hq, -⟩ | ⟨hnone, -⟩
  · exact hsame
  · simp at hq
  · exact absurd hnone h

end FileTree

/-! ### Retracing a run -/

/-- A run from `tree` to `fin` under a permit that only looks at what is below `root`, where the run
touches nothing. -/
structure Apart (P : Permit) (I : FileTree → Prop) (root : Path) (tree : FileTree) (fin : Artifacts) :
    Prop where
  guards : P.Guards I
  start : I tree
  untouched : ∀ l, Touched tree fin l → ¬l.IsIn root.destination
  look : ∀ p, P.look p → tree.Opens root ∧ ∃ names, names ≠ [] ∧
    (∀ name ∈ names, isPlainName name = true) ∧ p = root.below names
  copy : ∀ source p, P.copy source p → P.look source

/-- No file that was noted is protected. -/
def Artifacts.Unlocked (a : Artifacts) : Prop :=
  ∀ p ∈ a.written, ¬a.tree.Locked p.destination

/-- The artifacts `b` of the second run when the first one has come to `a` and will end at `fin`: what
the first run has written so far is the same, and all else is as it will be in the end. -/
structure Retraced (root : Path) (tree : FileTree) (fin a b : Artifacts) : Prop where
  written : b.written = a.written
  noted : ∀ p ∈ a.written, b.tree.get? p.destination = a.tree.get? p.destination
  others : ∀ l, (∀ p ∈ a.written, p.destination ≠ l) → b.tree.get? l = fin.tree.get? l
  same : b.tree.SameBelow root.destination tree

section Retracing

variable {P : Permit} {I : FileTree → Prop} {root : Path} {tree : FileTree} {fin a b : Artifacts}

/-- Lawful work is a chain of deeds wherever the run has come to. -/
theorem Apart.deeds_of_run {ε : Type} {f : Work ε} (h : Apart P I root tree fin) (hf : Lawful P f)
    (hbefore : Deeds P ⟨tree, []⟩ a) (hrun : f a = (b, .ok ())) : Deeds P a b :=
  hf.deeds_of_run h.guards (hbefore.guarded h.guards h.start) hrun

/-- Below the root everything stays as it was. -/
theorem Apart.sameBelow (h : Apart P I root tree fin) (hbefore : Deeds P ⟨tree, []⟩ a)
    (hafter : Deeds P a fin) : a.tree.SameBelow root.destination tree := by
  induction hbefore with
  | refl => exact .refl _ _
  | @tail b c hb hstep ih =>
    have hkeeps : Keeps tree b.tree := Deeds.keeps hb
    refine FileTree.SameBelow.trans ?_ (ih (hafter.head hstep))
    cases hstep with
    | @directory p _ hnone =>
      have hanchor : p.destination.isAnchor = false :=
        FileTree.isAnchor_of_get?_ne (t := b.tree) (by simp [hnone])
      have hmade := hafter.keeps.directory _ (FileTree.get?_set_self b.tree _ hanchor)
      have hbefore : tree.get? p.destination = none := by
        by_contra hsome
        exact hkeeps.ne_none hsome hnone
      exact FileTree.sameBelow_set _ _ (h.untouched _ (.inr ⟨hbefore, hmade⟩))
    | @file p _ _ _ =>
      have hp : p ∈ fin.written := hafter.isPrefix_written.subset (by simp)
      exact FileTree.sameBelow_set _ _ (h.untouched _ (.inl ⟨p, hp, rfl⟩))

/-- Where the first run ends with a directory, the second one finds it. -/
theorem Retraced.directory {l : Location} (h : Retraced root tree fin a b)
    (hbefore : Deeds P ⟨tree, []⟩ a) (hafter : Deeds P a fin)
    (hl : fin.tree.get? l = some .directory) : b.tree.get? l = some .directory := by
  by_cases hnoted : ∃ p ∈ a.written, p.destination = l
  · -- there the first run has written a file
    obtain ⟨p, hp, rfl⟩ := hnoted
    have hfile := hbefore.noted (by simp) p hp
    obtain ⟨-, -, -, file, hget⟩ := FileTree.isFile_iff.1 hfile
    obtain ⟨other, hother⟩ := hafter.keeps.file _ file hget
    rw [hl] at hother
    cases hother
  · rw [h.others l fun p hp hpl => hnoted ⟨p, hp, hpl⟩, hl]

theorem Retraced.passable {l : Location} {pieces : List String} (h : Retraced root tree fin a b)
    (hbefore : Deeds P ⟨tree, []⟩ a) (hafter : Deeds P a fin) (hp : fin.tree.Passable l pieces) :
    b.tree.Passable l pieces := by
  induction pieces generalizing l with
  | nil => trivial
  | cons piece rest ih => exact ⟨h.directory hbefore hafter hp.1, hp.2.1, ih hp.2.2⟩

theorem Retraced.isDirectory {p : Path} (h : Retraced root tree fin a b)
    (hbefore : Deeds P ⟨tree, []⟩ a) (hafter : Deeds P a fin) (hp : fin.tree.isDirectory p = true) :
    b.tree.isDirectory p = true := by
  obtain ⟨hcheck, hpassable, hget⟩ := FileTree.isDirectory_iff.1 hp
  exact FileTree.isDirectory_iff.2
    ⟨hcheck, h.passable hbefore hafter hpassable, h.directory hbefore hafter hget⟩

/-- Both runs find the same where they look. -/
theorem Retraced.reach {p : Path} (h : Retraced root tree fin a b) (hapart : Apart P I root tree fin)
    (hbefore : Deeds P ⟨tree, []⟩ a) (hafter : Deeds P a fin) (hp : P.look p) :
    b.tree.reach p = a.tree.reach p := by
  obtain ⟨hopens, names, hne, hplain, rfl⟩ := hapart.look p hp
  have hfirst : a.tree.Opens root := hbefore.keeps.opens hopens
  have hlast : fin.tree.Opens root := hafter.keeps.opens hfirst
  have hsecond : b.tree.Opens root :=
    ⟨h.passable hbefore hafter hlast.passable, h.directory hbefore hafter hlast.directory⟩
  have hsame : b.tree.SameBelow root.destination a.tree :=
    h.same.trans (hapart.sameBelow hbefore hafter).symm
  exact FileTree.reach_below hsame hsecond hfirst hplain hne

/-- A file that the first run writes can be written again, unless it is left protected. -/
theorem Retraced.file {p : Path} {file : File} (h : Retraced root tree fin a b)
    (hapart : Apart P I root tree fin) (hunlocked : fin.Unlocked) (hbefore : Deeds P ⟨tree, []⟩ a)
    (htarget : a.tree.target p = .ok p.destination)
    (hstep : Deed P a ⟨a.tree.set p.destination (.file file), a.written ++ [p]⟩)
    (hafter : Deeds P ⟨a.tree.set p.destination (.file file), a.written ++ [p]⟩ fin) :
    b.tree.target p = .ok p.destination ∧
      Retraced root tree fin ⟨a.tree.set p.destination (.file file), a.written ++ [p]⟩
        ⟨b.tree.set p.destination (.file file), b.written ++ [p]⟩ := by
  obtain ⟨hslash, hcheck, hpassable, hget, hlocked, -⟩ := FileTree.target_eq_ok_iff.1 htarget
  have hanchor : p.destination.isAnchor = false := FileTree.isAnchor_of_get?_ne hget
  have hrest : Deeds P a fin := hafter.head hstep
  have hp : p ∈ fin.written := hafter.isPrefix_written.subset (by simp)
  refine ⟨?_, ?_⟩
  · have hpassable : b.tree.Passable p.start p.steps :=
      h.passable hbefore hrest (hrest.keeps.passable hpassable)
    by_cases hnoted : ∃ q ∈ a.written, q.destination = p.destination
    · -- the second run has written there what the first one had
      obtain ⟨q, hq, hqp⟩ := hnoted
      have hsame : b.tree.get? p.destination = a.tree.get? p.destination := hqp ▸ h.noted q hq
      refine FileTree.target_eq_ok_iff.2 ⟨hslash, hcheck, hpassable, ?_, ?_, rfl⟩
      · rw [hsame]
        exact hget
      · rw [FileTree.Locked, hsame]
        exact hlocked
    · -- there is what the first run will leave behind
      have hsame := h.others p.destination fun q hq hqp => hnoted ⟨q, hq, hqp⟩
      obtain ⟨other, hother⟩ :=
        hafter.keeps.file p.destination file (FileTree.get?_set_self a.tree _ hanchor)
      refine FileTree.target_eq_ok_iff.2 ⟨hslash, hcheck, hpassable, ?_, ?_, rfl⟩
      · rw [hsame, hother]
        intro hdirectory
        cases hdirectory
      · rw [FileTree.Locked, hsame]
        exact hunlocked p hp
  · refine ⟨by rw [h.written], ?_, ?_, ?_⟩
    · intro q hq
      by_cases hqp : q.destination = p.destination
      · rw [hqp, FileTree.get?_set_self _ _ hanchor, FileTree.get?_set_self _ _ hanchor]
      · have hq : q ∈ a.written := mem_of_destination_ne hq hqp
        rw [FileTree.get?_set_of_ne _ _ hqp, FileTree.get?_set_of_ne _ _ hqp, h.noted q hq]
    · intro l hl
      have hlp : l ≠ p.destination := fun heq => hl p (by simp) heq.symm
      rw [FileTree.get?_set_of_ne _ _ hlp]
      exact h.others l fun q hq => hl q (by simp [hq])
    · have hset := FileTree.sameBelow_set b.tree (.file file)
        (hapart.untouched _ (.inl ⟨p, hp, rfl⟩))
      exact hset.trans h.same

/-- Directories that the first run makes are there. -/
theorem Retraced.make {p : Path} {made : FileTree} (h : Retraced root tree fin a b)
    (hbefore : Deeds P ⟨tree, []⟩ a) (hmake : a.tree.createDirectories p = (made, .ok ()))
    (hstep : Deeds P a ⟨made, a.written⟩) (hafter : Deeds P ⟨made, a.written⟩ fin) :
    b.tree.createDirectories p = (b.tree, .ok ()) ∧
      Retraced root tree fin ⟨made, a.written⟩ b := by
  have hrest : Deeds P a fin := hstep.trans hafter
  refine ⟨?_, h.written, ?_, h.others, h.same⟩
  · apply FileTree.createDirectories_of_isDirectory
    rcases FileTree.isDirectory_of_createUpward hmake with hempty | hdirectory
    · exact .inl hempty
    · exact .inr (h.isDirectory hbefore hrest (hafter.keeps.isDirectory hdirectory))
  · intro q hq
    have hfile := hbefore.noted (by simp) q hq
    obtain ⟨-, -, -, file, hget⟩ := FileTree.isFile_iff.1 hfile
    have hsame := FileTree.get?_createDirectories a.tree p (l := q.destination) (by simp [hget])
    rw [hmake] at hsame
    rw [h.noted q hq]
    exact hsame.symm

/-- Work that, where the first run succeeds with it, succeeds in the second run and does the same. -/
def Retraces (P : Permit) (root : Path) (tree : FileTree) (fin : Artifacts) {ε : Type} (f : Work ε) :
    Prop :=
  ∀ a b c, Deeds P ⟨tree, []⟩ a → f a = (c, .ok ()) → Deeds P c fin → Retraced root tree fin a b →
    ∃ d, f b = (d, .ok ()) ∧ Retraced root tree fin c d

section Steps

variable {ε ε' : Type} {f g : Work ε} {p source : Path}

theorem Retraces.blame {wrap : ε → ε'} (hf : Retraces P root tree fin f) :
    Retraces P root tree fin (f.blame wrap) := by
  intro a b c hbefore hrun hafter h
  obtain ⟨d, hd, hcd⟩ := hf a b c hbefore (Work.blame_eq_ok_iff.1 hrun) hafter h
  exact ⟨d, Work.blame_eq_ok_iff.2 hd, hcd⟩

end Steps

end Retracing

/-! ### Chance -/

section Chance

variable (input : Input) (chance : Nat)

theorem storageCode_chance {layout : Storage.Layout}
    (h : layout.slots = [] ∨ Storage.VersionMode.read input.project.layoutVersion ≠ .ok .random)
    (ns : String) : storageCode { input with chance := chance } ns layout =
      storageCode input ns layout := by
  simp only [storageCode]
  rcases h with hnil | hread
  · simp [hnil]
  · cases hmode : Storage.VersionMode.read input.project.layoutVersion with
    | error f => rfl
    | ok mode =>
      cases mode with
      | random => exact absurd hmode hread
      | hash => rfl
      | fixed v => rfl

theorem componentsCode_chance (ns : String) (components : List Component) (published : Published)
    (n : Numbers) :
    componentsCode { input with chance := chance } ns components published n =
      componentsCode input ns components published n := by
  induction components generalizing published n with
  | nil => rfl
  | cons c rest ih =>
    have htype : ({ input with chance := chance } : Input).componentType c = input.componentType c :=
      rfl
    simp only [componentsCode, htype, ih]

theorem prepareCore_chance (h : input.project.storage = [] ∨
      Storage.VersionMode.read input.project.layoutVersion ≠ .ok .random) (s : State) :
    prepareCore { input with chance := chance } s = prepareCore input s := by
  simp only [prepareCore, componentsCode_chance]
  cases hallocate : Storage.allocate input.project.storage with
  | error fault => rfl
  | ok layout =>
    have hlayout : layout.slots = [] ∨
        Storage.VersionMode.read input.project.layoutVersion ≠ .ok .random := by
      rcases h with hnil | hread
      · rw [hnil] at hallocate
        cases hallocate
        exact .inl rfl
      · exact .inr hread
    simp only [storageCode_chance input chance hlayout]
    rfl

theorem headerOutput_chance (s : State) :
    headerOutput { input with chance := chance } s = headerOutput input s := by
  have hview : headerView { input with chance := chance } = headerView input := by
    funext published c
    simp only [headerView, Input.componentType]
  have hlibraries : libraryIncludes { input with chance := chance } = libraryIncludes input := by
    funext name
    simp only [libraryIncludes]
  simp only [headerOutput, hview, hlibraries]

theorem sketchOutput_chance (s : State) :
    sketchOutput { input with chance := chance } s = sketchOutput input s := by
  have hsummary : componentSummary { input with chance := chance } = componentSummary input := by
    funext c
    simp only [componentSummary, Input.componentType]
  have hstubs : componentStubs { input with chance := chance } = componentStubs input := by
    funext c
    simp only [componentStubs, Input.componentType]
  simp only [sketchOutput, objectSummary, stubs, sketchIncludes, hsummary, hstubs]

/-- Only a version that is left to chance makes a difference between two runs. -/
theorem standardPipeline_chance (h : input.project.storage = [] ∨
      Storage.VersionMode.read input.project.layoutVersion ≠ .ok .random) :
    standardPipeline { input with chance := chance } = standardPipeline input := by
  have hcore : coreSource { input with chance := chance } = coreSource input := by
    have hprepare := funext (prepareCore_chance input chance h)
    simp only [coreSource, hprepare]
  have hheader : projectHeader { input with chance := chance } = projectHeader input := by
    simp only [projectHeader, headerOutput_chance]
  have hsketch : exampleSketch { input with chance := chance } = exampleSketch input := by
    simp only [exampleSketch, sketchOutput_chance]
  simp only [standardPipeline, hcore, hheader, hsketch, coreHeader, storageClasses, libraryManifest]

end Chance

/-! ### The checks of a second build -/

section Again

variable {w : Workshop} {settings : Settings} {tree after : FileTree} {input : Input} {root : Path}

/-- The modules of a build are all that it looks at, if it touches nothing among them. -/
theorem Accepted.apart (h : Accepted w settings tree input) (htree : tree.WellNamed) {fin : Artifacts}
    (hmodules : ∀ l, Touched tree fin l → ¬l.IsIn w.modulesRoot.destination) :
    Apart (Permit.library input) FileTree.WellNamed w.modulesRoot tree fin := by
  refine ⟨library_guards input, htree, hmodules, ?_, ?_⟩
  · intro p hp
    obtain ⟨x, hx, rfl⟩ := hp
    have hlies := h.liesBelow hx.mem
    have hsegments : ∀ name ∈ nameSegments x.module.name, isPlainName name = true :=
      List.all_eq_true.1 hlies.plain
    have hnames : ∀ name ∈ x.part :: x.names, isPlainName name = true :=
      List.forall_mem_cons.2 ⟨x.plain_part, hx.plain⟩
    have hdirectory := (loadFrom_eq_ok_iff.1 (h.loadFrom hx.mem)).2.1
    exact ⟨FileTree.opens_of_isDirectory hsegments (nameSegments_ne_nil _) hdirectory, _, by simp,
      List.forall_mem_append.2 ⟨hsegments, hnames⟩, Asset.origin_eq hlies⟩
  · intro source p hp
    obtain ⟨x, hx, -, rfl, -⟩ := hp
    exact ⟨x, hx, rfl⟩

end Again

/-! ### Builds of a small library -/

end Boardwright
