import Boardwright.Proofs.Stages
import Boardwright.Proofs.Work
import Mathlib.Logic.Relation

/-!
# What a build does to files

Work that keeps to a permit does two things to a file tree: it makes directories where nothing is, and
it brings files to paths and notes them.  A build is a chain of such deeds, whether it succeeds or fails,
and what holds of both deeds holds of a build.

* **`Change`**: a directory is made where nothing is, or a file is written where no directory is.
* **`Keeps`**: no entry is lost, and none changes its sort.
* **`Deed`**: a change that a permit allows, with the paths that are noted.
* **`Deeds.entry`**, **`Deeds.noted`**: what deeds do to an entry, and to the paths that are noted.
* **`Deeds.not_locked`**: a protected file is not written to.
* **`Deeds.brought`**: where a noted file comes from.
* **`Lawful.deeds`**: lawful work is a chain of deeds.
* **`carryOut_deeds`**: so is a build, if a permit admits it.
* **`build_changes`**: every build is a chain of changes.
-/

namespace Boardwright

open Fallible

/-! ### Elementary changes -/

/-- A directory is made where nothing is, or a file is written where no directory is. -/
inductive Change : FileTree → FileTree → Prop where
  | directory {t : FileTree} (l : Location) : t.get? l = none → Change t (t.set l .directory)
  | file {t : FileTree} (l : Location) (file : File) : t.get? l ≠ some .directory →
      Change t (t.set l (.file file))

/-- Changes, one after the other. -/
abbrev Changes : FileTree → FileTree → Prop := Relation.ReflTransGen Change

/-- No entry is lost, and none changes its sort. -/
structure Keeps (t s : FileTree) : Prop where
  directory : ∀ l, t.get? l = some .directory → s.get? l = some .directory
  file : ∀ l file, t.get? l = some (.file file) → ∃ other, s.get? l = some (.file other)

theorem FileTree.isAnchor_of_get?_ne {t : FileTree} {l : Location} (h : t.get? l ≠ some .directory) :
    l.isAnchor = false := by
  cases hanchor : l.isAnchor with
  | false => rfl
  | true => exact absurd (if_pos hanchor) h

theorem Change.keeps {t s : FileTree} (h : Change t s) : Keeps t s := by
  cases h with
  | directory l hnone =>
    have hother : ∀ q node, t.get? q = some node → (t.set l .directory).get? q = some node := by
      intro q node hq
      have hne : q ≠ l := by
        rintro rfl
        rw [hnone] at hq
        cases hq
      rw [FileTree.get?_set_of_ne _ _ hne, hq]
    exact ⟨fun q hq => hother q _ hq, fun q file hq => ⟨file, hother q _ hq⟩⟩
  | file l written hnot =>
    have hanchor : l.isAnchor = false := FileTree.isAnchor_of_get?_ne hnot
    constructor
    · intro q hq
      have hne : q ≠ l := by
        rintro rfl
        exact hnot hq
      rw [FileTree.get?_set_of_ne _ _ hne, hq]
    · intro q file hq
      by_cases hql : q = l
      · subst hql
        exact ⟨written, FileTree.get?_set_self t _ hanchor⟩
      · exact ⟨file, by rw [FileTree.get?_set_of_ne _ _ hql, hq]⟩

section Keeps

variable {t s : FileTree} {p : Path}

theorem Keeps.refl (t : FileTree) : Keeps t t :=
  ⟨fun _ hq => hq, fun _ file hq => ⟨file, hq⟩⟩

theorem Keeps.trans {u : FileTree} (h : Keeps t s) (h' : Keeps s u) : Keeps t u := by
  refine ⟨fun q hq => h'.directory q (h.directory q hq), ?_⟩
  intro q file hq
  obtain ⟨other, hother⟩ := h.file q file hq
  exact h'.file q other hother

theorem Changes.keeps (h : Changes t s) : Keeps t s := by
  induction h with
  | refl => exact .refl _
  | tail _ hstep ih => exact ih.trans hstep.keeps

theorem Keeps.ne_none {l : Location} (h : Keeps t s) (hl : t.get? l ≠ none) :
    s.get? l ≠ none := by
  cases hget : t.get? l with
  | none => exact absurd hget hl
  | some node =>
    cases node with
    | directory => simp [h.directory l hget]
    | file file =>
      obtain ⟨other, hother⟩ := h.file l file hget
      simp [hother]

theorem Keeps.passable {l : Location} {pieces : List String} (h : Keeps t s)
    (hp : t.Passable l pieces) : s.Passable l pieces := by
  induction pieces generalizing l with
  | nil => trivial
  | cons piece rest ih => exact ⟨h.directory l hp.1, hp.2.1, ih hp.2.2⟩

theorem Keeps.isDirectory (h : Keeps t s) (hp : t.isDirectory p = true) : s.isDirectory p = true := by
  obtain ⟨hcheck, hpassable, hget⟩ := FileTree.isDirectory_iff.1 hp
  exact FileTree.isDirectory_iff.2 ⟨hcheck, h.passable hpassable, h.directory _ hget⟩

theorem Keeps.isFile (h : Keeps t s) (hp : t.isFile p = true) : s.isFile p = true := by
  obtain ⟨hslash, hcheck, hpassable, file, hget⟩ := FileTree.isFile_iff.1 hp
  exact FileTree.isFile_iff.2 ⟨hslash, hcheck, h.passable hpassable, h.file _ file hget⟩

end Keeps

/-! ### Deeds -/

/-- The permit allows a file to be brought to a path: it may be written there, without protection, or it
may be copied there.  A file that is copied onto itself loses its content. -/
inductive Permit.Brings (P : Permit) (t : FileTree) (p : Path) (file : File) : Prop where
  | written : P.write p → file.locked = false → Brings P t p file
  | copied {source : Path} : P.copy source p →
      (source.destination ≠ p.destination → t.get? source.destination = some (.file file)) →
      Brings P t p file

/-- A change that a permit allows.  The paths of files are noted. -/
inductive Deed (P : Permit) : Artifacts → Artifacts → Prop where
  | directory {a : Artifacts} {p : Path} : P.directory p → a.tree.get? p.destination = none →
      Deed P a ⟨a.tree.set p.destination .directory, a.written⟩
  | file {a : Artifacts} {p : Path} {file : File} : P.Brings a.tree p file →
      a.tree.target p = .ok p.destination →
      Deed P a ⟨a.tree.set p.destination (.file file), a.written ++ [p]⟩

/-- Deeds, one after the other. -/
abbrev Deeds (P : Permit) : Artifacts → Artifacts → Prop := Relation.ReflTransGen (Deed P)

section Deeds

variable {P : Permit} {a b : Artifacts}

theorem Deed.change (h : Deed P a b) : Change a.tree b.tree := by
  cases h with
  | directory _ hnone => exact .directory _ hnone
  | file _ htarget => exact .file _ _ (FileTree.target_eq_ok_iff.1 htarget).2.2.2.1

theorem Deeds.changes (h : Deeds P a b) : Changes a.tree b.tree := by
  induction h with
  | refl => exact .refl
  | tail _ hstep ih => exact ih.tail hstep.change

theorem Deeds.keeps (h : Deeds P a b) : Keeps a.tree b.tree := h.changes.keeps

theorem Deeds.isPrefix_written (h : Deeds P a b) : a.written <+: b.written := by
  induction h with
  | refl => exact List.prefix_refl _
  | tail _ hstep ih =>
    cases hstep with
    | directory => exact ih
    | file => exact ih.trans (List.prefix_append _ _)

/-- Every path that is noted is permitted. -/
theorem Deeds.permitted (h : Deeds P a b) {p : Path} (hp : p ∈ b.written) :
    p ∈ a.written ∨ P.write p ∨ ∃ source, P.copy source p := by
  induction h with
  | refl => exact .inl hp
  | tail _ hstep ih =>
    cases hstep with
    | directory => exact ih hp
    | file hbrings _ =>
      rcases List.mem_append.1 hp with hp | hp
      · exact ih hp
      · rw [List.mem_singleton.1 hp]
        cases hbrings with
        | written hwrite _ => exact .inr (.inl hwrite)
        | copied hcopy _ => exact .inr (.inr ⟨_, hcopy⟩)

/-- Every path that is noted leads to a file. -/
theorem Deeds.noted (h : Deeds P a b) (ha : ∀ p ∈ a.written, a.tree.isFile p = true) :
    ∀ p ∈ b.written, b.tree.isFile p = true := by
  induction h with
  | refl => exact ha
  | @tail b c _ hstep ih =>
    intro p hp
    have hkeeps := hstep.change.keeps
    cases hstep with
    | directory => exact hkeeps.isFile (ih p hp)
    | @file q file _ htarget =>
      rcases List.mem_append.1 hp with hp | hp
      · exact hkeeps.isFile (ih p hp)
      · rw [List.mem_singleton.1 hp]
        obtain ⟨hslash, hcheck, hpassable, hget, -⟩ := FileTree.target_eq_ok_iff.1 htarget
        refine FileTree.isFile_iff.2 ⟨hslash, hcheck, hkeeps.passable hpassable, file, ?_⟩
        exact FileTree.get?_set_self _ _ (FileTree.isAnchor_of_get?_ne hget)

/-- What deeds do to an entry: nothing, unless a path to it was noted, or a directory was made where
nothing was. -/
theorem Deeds.entry (h : Deeds P a b) (l : Location) :
    b.tree.get? l = a.tree.get? l ∨ (∃ p ∈ b.written, p.destination = l) ∨
      a.tree.get? l = none ∧ b.tree.get? l = some .directory ∧
        ∃ p, P.directory p ∧ p.destination = l := by
  induction h with
  | refl => exact .inl rfl
  | @tail b c hbefore hstep ih =>
    have hkeeps : Keeps a.tree b.tree := Deeds.keeps hbefore
    cases hstep with
    | @directory p hp hnone =>
      by_cases hl : l = p.destination
      · subst hl
        have hbefore : a.tree.get? p.destination = none := by
          by_contra hsome
          exact hkeeps.ne_none hsome hnone
        have hanchor : p.destination.isAnchor = false :=
          FileTree.isAnchor_of_get?_ne (t := b.tree) (by simp [hnone])
        exact .inr (.inr ⟨hbefore, FileTree.get?_set_self _ _ hanchor, p, hp, rfl⟩)
      · rw [FileTree.get?_set_of_ne _ _ hl]
        exact ih
    | @file p file _ _ =>
      by_cases hl : l = p.destination
      · exact .inr (.inl ⟨p, by simp, hl.symm⟩)
      · rw [FileTree.get?_set_of_ne _ _ hl]
        rcases ih with hsame | ⟨q, hq, hql⟩ | hmade
        · exact .inl hsame
        · exact .inr (.inl ⟨q, List.mem_append_left _ hq, hql⟩)
        · exact .inr (.inr hmade)

/-- A path that leads elsewhere than the last one was noted before. -/
theorem mem_of_destination_ne {written : List Path} {p q : Path} (hp : p ∈ written ++ [q])
    (hne : p.destination ≠ q.destination) : p ∈ written := by
  rcases List.mem_append.1 hp with hp | hp
  · exact hp
  · rw [List.mem_singleton.1 hp] at hne
    exact absurd rfl hne

/-- Where a noted file comes from.  Of the paths that lead to it one was written, and then the file is not
protected, or was copied from a file that is as it was before, unless that file was noted itself. -/
theorem Deeds.brought {t : FileTree} (h : Deeds P ⟨t, []⟩ b) {p : Path} (hp : p ∈ b.written) :
    ∃ q ∈ b.written, q.destination = p.destination ∧
      (P.write q ∧ ¬b.tree.Locked p.destination ∨ ∃ source, P.copy source q ∧
        (b.tree.get? p.destination = t.get? source.destination ∨
          ∃ r ∈ b.written, r.destination = source.destination)) := by
  induction h with
  | refl => simp at hp
  | @tail b c hbefore hstep ih =>
    have hnoted := Deeds.noted hbefore (by simp)
    cases hstep with
    | @directory q _ hnone =>
      have hne : p.destination ≠ q.destination := by
        intro heq
        obtain ⟨-, -, -, file, hget⟩ := FileTree.isFile_iff.1 (hnoted p hp)
        rw [heq, hnone] at hget
        cases hget
      rw [FileTree.Locked, FileTree.get?_set_of_ne _ _ hne]
      exact ih hp
    | @file q file hbrings htarget =>
      by_cases hsame : p.destination = q.destination
      · have hanchor : q.destination.isAnchor = false :=
          FileTree.isAnchor_of_get?_ne (FileTree.target_eq_ok_iff.1 htarget).2.2.2.1
        refine ⟨q, by simp, hsame.symm, ?_⟩
        rw [FileTree.Locked, hsame, FileTree.get?_set_self _ _ hanchor]
        cases hbrings with
        | written hwrite hunlocked =>
          refine .inl ⟨hwrite, fun hlocked => ?_⟩
          obtain ⟨content, hget⟩ := hlocked
          cases hget
          cases hunlocked
        | @copied source hcopy hfile =>
          refine .inr ⟨source, hcopy, ?_⟩
          by_cases hself : source.destination = q.destination
          · exact .inr ⟨q, by simp, hself.symm⟩
          · have hfound := hfile hself
            rcases Deeds.entry hbefore source.destination with heq | ⟨r, hr, hrl⟩ | ⟨-, hmade, -⟩
            · left
              rw [← hfound, heq]
            · exact .inr ⟨r, by simp [hr], hrl⟩
            · rw [hmade] at hfound
              cases hfound
      · rw [FileTree.Locked, FileTree.get?_set_of_ne _ _ hsame]
        obtain ⟨r, hr, hdestination, hcases⟩ := ih (mem_of_destination_ne hp hsame)
        refine ⟨r, by simp [hr], hdestination, ?_⟩
        rcases hcases with hwrite | ⟨source, hcopy, heq | ⟨s, hs, hsl⟩⟩
        · exact .inl hwrite
        · exact .inr ⟨source, hcopy, .inl heq⟩
        · exact .inr ⟨source, hcopy, .inr ⟨s, by simp [hs], hsl⟩⟩

/-- A property of trees that a permit guards: no deed destroys it, and with it listings show no names
but the permitted ones. -/
structure Permit.Guards (P : Permit) (I : FileTree → Prop) : Prop where
  step : ∀ {a b : Artifacts}, Deed P a b → I a.tree → I b.tree
  listed : ∀ {t : FileTree} {p : Path} {entries : List (String × Node)}, I t → P.look p →
    t.list p = .ok entries → ∀ e ∈ entries, P.name e.1

variable {I : FileTree → Prop}

theorem Deeds.guarded (h : Deeds P a b) (hg : P.Guards I) (ha : I a.tree) : I b.tree := by
  induction h with
  | refl => exact ha
  | tail _ hstep ih => exact hg.step hstep ih

/-! ### Lawful work -/

theorem ensureDirectory_deeds {p : Path} (hp : P.directory p) (a : Artifacts) :
    Deeds P a { a with tree := (a.tree.ensureDirectory p).1 } := by
  unfold FileTree.ensureDirectory
  cases hcreate : a.tree.createDirectory p with
  | error fault => exact .refl
  | ok made =>
    obtain ⟨found, hreach, hmade⟩ := bind_eq_ok_iff.1 hcreate
    obtain ⟨-, -, rfl⟩ := FileTree.reach_eq_ok_iff.1 hreach
    cases hnode : (a.tree.place p.destination).node with
    | some node =>
      rw [hnode] at hmade
      cases hmade
    | none =>
      rw [hnode] at hmade
      cases hmade
      exact .single (.directory hp hnode)

theorem createUpward_deeds (depth : Nat) {p : Path} (hp : P.directory p) (a : Artifacts) :
    Deeds P a { a with tree := (FileTree.createUpward depth p a.tree).1 } := by
  induction depth generalizing p a with
  | zero => exact ensureDirectory_deeds hp a
  | succ depth ih =>
    have hensure := ensureDirectory_deeds hp a
    unfold FileTree.createUpward
    split
    · exact .refl
    · split
      next made hmade =>
        rw [hmade] at hensure
        split
        · exact hensure
        next above hparent =>
          have habove := ih (P.above hp hparent) { a with tree := made }
          split
          next higher hhigher =>
            rw [hhigher] at habove
            exact (hensure.trans habove).trans (ensureDirectory_deeds hp { a with tree := higher })
          next failed _ _ => exact hensure.trans habove
      · exact hensure

theorem createDirectories_deeds {p : Path} (hp : P.directory p) (a : Artifacts) :
    Deeds P a { a with tree := (a.tree.createDirectories p).1 } :=
  createUpward_deeds _ hp a

theorem write_deeds {p : Path} (hp : P.write p) (content : ByteArray) (a : Artifacts) :
    Deeds P a (Work.write p content a).1 := by
  cases hrun : Work.write p content a with
  | mk b outcome =>
    cases outcome with
    | error fault =>
      unfold Work.write at hrun
      split at hrun <;> cases hrun
      exact .refl
    | ok _ =>
      obtain ⟨htarget, rfl⟩ := Work.write_eq_ok_iff.1 hrun
      exact .single (.file (.written hp rfl) htarget)

theorem copy_deeds {source p : Path} (hp : P.copy source p) (a : Artifacts) :
    Deeds P a (Work.copy source p a).1 := by
  cases hrun : Work.copy source p a with
  | mk b outcome =>
    cases outcome with
    | error fault =>
      unfold Work.copy at hrun
      split at hrun <;> cases hrun
      exact .refl
    | ok _ =>
      obtain ⟨file, hfile, htarget, rfl⟩ := Work.copy_eq_ok_iff.1 hrun
      obtain ⟨-, -, -, hget⟩ := FileTree.file_eq_ok_iff.1 hfile
      refine .single (.file (.copied hp ?_) htarget)
      intro hne
      rw [if_neg (Ne.symm hne), hget]

theorem Lawful.deeds {ε : Type} {f : Work ε} (hf : Lawful P f) (hg : P.Guards I)
    (ha : I a.tree) : Deeds P a (f a).1 := by
  induction hf generalizing a with
  | done => exact .refl
  | fail e => exact .refl
  | make hp => exact createDirectories_deeds hp a
  | write hp => exact write_deeds hp _ a
  | copy hp => exact copy_deeds hp a
  | @andThen _ f g _ _ ihf ihg =>
    have hfirst := ihf ha
    unfold Work.andThen
    cases hrun : f a with
    | mk b outcome =>
      rw [hrun] at hfirst
      cases outcome with
      | error e => exact hfirst
      | ok _ => exact hfirst.trans (ihg (hfirst.guarded hg ha))
  | @blame _ _ f _ _ ih =>
    have hfirst := ih ha
    unfold Work.blame
    cases hrun : f a with
    | mk b outcome =>
      rw [hrun] at hfirst
      cases outcome <;> exact hfirst
  | ifDirectory _ _ _ ihf ihg =>
    unfold Work.ifDirectory
    split
    · exact ihf ha
    · exact ihg ha
  | ifFile _ _ _ ihf ihg =>
    unfold Work.ifFile
    split
    · exact ihf ha
    · exact ihg ha
  | @listing _ p _ _ hp _ ih =>
    unfold Work.listing
    cases hlist : a.tree.list p with
    | error fault => exact .refl
    | ok entries => exact ih entries (hg.listed ha hp hlist) ha

theorem Lawful.deeds_of_run {ε : Type} {f : Work ε} {outcome : Except ε Unit} (hf : Lawful P f)
    (hg : P.Guards I) (ha : I a.tree) (h : f a = (b, outcome)) : Deeds P a b := by
  have hdeeds := hf.deeds hg ha
  rwa [h] at hdeeds

end Deeds

/-! ### Builds -/

namespace Generation

variable {σ : Type}

theorem prepareAll_generators {gs : List (Generator σ Artifacts)} {s s' : σ}
    {prepared : List (Generator σ Artifacts × Template.Replacements)}
    (h : prepareAll gs s = (s', .ok prepared)) : prepared.map (·.1) = gs := by
  induction gs generalizing s prepared with
  | nil =>
    cases h
    rfl
  | cons g rest ih =>
    rw [prepareAll] at h
    split at h
    · cases h
    · split at h
      · cases h
      next hrest =>
        cases h
        rw [List.map_cons, ih hrest]

theorem firstPhases_generators {input : Input} {s : State}
    {prepared : List (Generator State Artifacts × Template.Replacements)}
    (h : firstPhases input = (s, .ok prepared)) :
    prepared.map (·.1) = (standardPipeline input).generators := by
  rw [firstPhases, Pipeline.preparation, scheduled_standardPipeline] at h
  exact prepareAll_generators h

end Generation

section Builds

variable {P : Permit} {I : FileTree → Prop} {input : Generation.Input} {tree : FileTree}

/-- A build that a permit admits is a chain of deeds, and what it reports are the files that were noted. -/
theorem carryOut_deeds (hadmits : P.Admits input) (hg : P.Guards I) (htree : I tree) :
    ∃ a, Deeds P ⟨tree, []⟩ a ∧ (carryOut input tree).1 = a.tree ∧
      ∀ report, (carryOut input tree).2 = .ok report → report.files = a.written := by
  have hlibrary : Deeds P ⟨tree, []⟩ (prepareLibrary input ⟨tree, []⟩).1 :=
    (prepareLibrary_lawful hadmits).deeds hg htree
  cases hresult : prepareLibrary input ⟨tree, []⟩ with
  | mk a outcome =>
    rw [hresult] at hlibrary
    cases outcome with
    | error f =>
      rw [carryOut_of_library_error hresult]
      exact ⟨a, hlibrary, rfl, nofun⟩
    | ok _ =>
      cases hprepare : firstPhases input with
      | mk s result =>
        cases result with
        | error f =>
          rw [carryOut_of_preparation_error hresult (by rw [hprepare])]
          exact ⟨a, hlibrary, rfl, nofun⟩
        | ok prepared =>
          have hsaves := Generation.saves_standard s (Generation.firstPhases_generators hprepare)
          have hgenerate : Deeds P a (Generation.generateAll s prepared a).1 :=
            (saves_lawful hsaves (hadmits.generated _)).deeds hg (hlibrary.guarded hg htree)
          rw [carryOut_eq_of_prepared hresult hprepare]
          refine ⟨_, hlibrary.trans hgenerate, rfl, ?_⟩
          intro report hreport
          cases houtcome : (Generation.generateAll s prepared a).2 with
          | error f =>
            rw [houtcome] at hreport
            cases hreport
          | ok _ =>
            rw [houtcome] at hreport
            cases hreport
            rfl

/-- The permit without restrictions. -/
def Permit.everywhere : Permit where
  directory _ := True
  write _ := True
  copy _ _ := True
  look _ := True
  name _ := True
  above _ _ := trivial

theorem everywhere_admits (input : Generation.Input) : Permit.everywhere.Admits input := by
  have hcovers : ∀ {χ : Type} (k : Assets.Placement χ) (source : Path) (x : χ),
      Assets.Covers Permit.everywhere k source x := fun k source x =>
    ⟨fun _ _ => trivial, fun _ _ => trivial, fun _ _ _ => trivial⟩
  exact ⟨trivial, trivial, fun _ _ => hcovers _ _ _, fun _ _ _ => hcovers _ _ _,
    fun _ _ _ => hcovers _ _ _, fun _ _ _ => ⟨trivial, fun _ _ => trivial⟩⟩

/-- Whether a build succeeds or fails, all it does to the files is to make directories and to write
files. -/
theorem build_changes (w : Workshop) (settings : Settings) (tree : FileTree) :
    Changes tree (build w settings tree).1 := by
  by_cases haccepted : ∃ input, Accepted w settings tree input
  · obtain ⟨input, haccepted⟩ := haccepted
    have hguards : Permit.everywhere.Guards fun _ => True :=
      ⟨fun _ _ => trivial, fun _ _ _ _ _ => trivial⟩
    obtain ⟨a, hdeeds, htree, -⟩ := carryOut_deeds (everywhere_admits input) hguards trivial
    rw [build_of_accepted haccepted, htree]
    exact hdeeds.changes
  · obtain ⟨f, hbuild⟩ := build_of_not_accepted (not_exists.1 haccepted)
    rw [hbuild]

end Builds

end Boardwright
