import Boardwright.Proofs.Library
import Boardwright.Proofs.Region

/-!
# Which files a build brings

A build that succeeds reports the files of its modules and then the generated ones.  Here it is said
exactly which: every file in the directories of a module is brought once, from where it lies in the
module to the place that its names give it.

* **`Permit.only`**: the permit for given copies and given files, which keeps track of what was brought.
* **`Ships`**: work has brought the files in a range, each of them once.
* **`copyBy_ships`**: copying a directory brings the files in it, at every depth.
* **`carryOut_ships`**: a build brings the files of its modules, and then the generated ones.
-/

namespace Boardwright

open Generation Work

/-! ### Tracked deeds -/

/-- The permit for given copies and given files, and for all directories. -/
def Permit.only (copies : List (Path × Path)) (files : List Path) : Permit where
  directory _ := True
  write p := p ∈ files
  copy source p := (source, p) ∈ copies
  look _ := False
  name _ := True
  above _ _ := trivial

section Tracking

variable {a b c : Artifacts} {copies more : List (Path × Path)} {files others : List Path}

theorem Permit.only_guards : (Permit.only copies files).Guards fun _ => True :=
  ⟨fun _ _ => trivial, fun _ hlook => hlook.elim⟩

theorem Deeds.widen (h : Deeds (Permit.only copies files) a b) (hcopies : copies ⊆ more)
    (hfiles : files ⊆ others) : Deeds (Permit.only more others) a b := by
  refine Relation.ReflTransGen.mono ?_ _ _ h
  intro a b hstep
  cases hstep with
  | directory _ hnone => exact .directory trivial hnone
  | file hbrings htarget =>
    refine .file ?_ htarget
    cases hbrings with
    | written hwrite hunlocked => exact .written (hfiles hwrite) hunlocked
    | copied hcopy hcontent => exact .copied (hcopies hcopy) hcontent

/-- Two stretches of tracked deeds make one. -/
theorem Deeds.join (h : Deeds (Permit.only copies files) a b) (h' : Deeds (Permit.only more others) b c) :
    Deeds (Permit.only (copies ++ more) (files ++ others)) a c := by
  have hfirst : Deeds (Permit.only (copies ++ more) (files ++ others)) a b :=
    h.widen (List.subset_append_left _ _) (List.subset_append_left _ _)
  exact hfirst.trans (h'.widen (List.subset_append_right _ _) (List.subset_append_right _ _))

end Tracking

/-! ### Items -/

/-- Work has brought the items in a range that are files, each of them once, from its origin to its
target. -/
structure Ships {ι : Type} (origin target : ι → Path) (range : ι → Prop) (a c : Artifacts)
    (items : List ι) : Prop where
  deeds : Deeds (Permit.only (items.map fun x => (origin x, target x)) []) a c
  written : c.written = a.written ++ items.map target
  nodup : items.Nodup
  inRange : ∀ x ∈ items, range x
  isFile : ∀ x ∈ items, c.tree.isFile (origin x) = true
  complete : ∀ x, range x → a.tree.isFile (origin x) = true → x ∈ items

section Ships

variable {ι κ β ε : Type} {origin target : ι → Path} {range wider : ι → Prop} {a b c : Artifacts}
  {items rest : List ι}

theorem Ships.none (h : ∀ x, range x → a.tree.isFile (origin x) = true → False) :
    Ships origin target range a a [] :=
  ⟨.refl, by simp, .nil, by simp, by simp, fun x hx hfile => (h x hx hfile).elim⟩

theorem Ships.widen (h : Ships origin target range a c items) (hsub : ∀ x, range x → wider x)
    (hrest : ∀ x, wider x → a.tree.isFile (origin x) = true → range x) :
    Ships origin target wider a c items :=
  ⟨h.deeds, h.written, h.nodup, fun x hx => hsub x (h.inRange x hx), h.isFile,
    fun x hx hfile => h.complete x (hrest x hx hfile) hfile⟩

/-- Directories are made first. -/
theorem Ships.afterMaking (hmake : Deeds (Permit.only [] []) a b) (hwritten : b.written = a.written)
    (h : Ships origin target range b c items) : Ships origin target range a c items := by
  refine ⟨hmake.join h.deeds, by rw [h.written, hwritten], h.nodup, h.inRange, h.isFile, ?_⟩
  intro x hx hfile
  exact h.complete x hx (hmake.keeps.isFile hfile)

theorem Ships.append {range' : ι → Prop} (h : Ships origin target range a b items)
    (h' : Ships origin target range' b c rest) (hapart : ∀ x, range x → ¬range' x) :
    Ships origin target (fun x => range x ∨ range' x) a c (items ++ rest) := by
  refine ⟨?_, ?_, ?_, ?_, ?_, ?_⟩
  · rw [List.map_append]
    exact h.deeds.join h'.deeds
  · rw [h'.written, h.written, List.map_append, List.append_assoc]
  · refine h.nodup.append h'.nodup ?_
    intro x hx hx'
    exact hapart x (h.inRange x hx) (h'.inRange x hx')
  · intro x hx
    rcases List.mem_append.1 hx with hx | hx
    · exact .inl (h.inRange x hx)
    · exact .inr (h'.inRange x hx)
  · intro x hx
    rcases List.mem_append.1 hx with hx | hx
    · exact h'.deeds.keeps.isFile (h.isFile x hx)
    · exact h'.isFile x hx
  · intro x hx hfile
    rcases hx with hx | hx
    · exact List.mem_append_left _ (h.complete x hx hfile)
    · exact List.mem_append_right _ (h'.complete x hx (h.deeds.keeps.isFile hfile))

/-- The items under other names. -/
theorem Ships.map {origin' target' : κ → Path} {range' : κ → Prop} {items' : List κ} {f : κ → ι}
    (h : Ships origin' target' range' a c items') (hf : f.Injective)
    (horigin : ∀ y, range' y → origin (f y) = origin' y)
    (htarget : ∀ y, range' y → target (f y) = target' y) :
    Ships origin target (fun x => ∃ y, range' y ∧ f y = x) a c (items'.map f) := by
  have hpairs : (items'.map f).map (fun x => (origin x, target x)) =
      items'.map fun y => (origin' y, target' y) := by
    rw [List.map_map]
    apply List.map_congr_left
    intro y hy
    simp only [Function.comp_apply, horigin y (h.inRange y hy), htarget y (h.inRange y hy)]
  have htargets : (items'.map f).map target = items'.map target' := by
    rw [List.map_map]
    exact List.map_congr_left fun y hy => htarget y (h.inRange y hy)
  refine ⟨?_, ?_, h.nodup.map hf, ?_, ?_, ?_⟩
  · rw [hpairs]
    exact h.deeds
  · rw [h.written, htargets]
  · intro x hx
    obtain ⟨y, hy, rfl⟩ := List.mem_map.1 hx
    exact ⟨y, h.inRange y hy, rfl⟩
  · intro x hx
    obtain ⟨y, hy, rfl⟩ := List.mem_map.1 hx
    rw [horigin y (h.inRange y hy)]
    exact h.isFile y hy
  · intro x hx hfile
    obtain ⟨y, hy, rfl⟩ := hx
    rw [horigin y hy] at hfile
    exact List.mem_map_of_mem (h.complete y hy hfile)

/-- Work that is done step by step, each step with a range of its own. -/
theorem ships_runAll {step : β → Work ε} {range : β → ι → Prop} {l : List β}
    (hstep : ∀ e ∈ l, ∀ a c : Artifacts, a.tree.WellNamed → step e a = (c, .ok ()) →
      ∃ items, Ships origin target (range e) a c items)
    (hapart : l.Pairwise fun e e' => ∀ x, range e x → ¬range e' x) (ha : a.tree.WellNamed)
    (h : runAll step l a = (c, .ok ())) :
    ∃ items, Ships origin target (fun x => ∃ e ∈ l, range e x) a c items := by
  induction l generalizing a with
  | nil =>
    rw [runAll_nil, done_eq_ok_iff] at h
    subst h
    refine ⟨[], .none ?_⟩
    simp
  | cons e l ih =>
    rw [runAll_cons, andThen_eq_ok_iff] at h
    obtain ⟨b, hfirst, hrest⟩ := h
    obtain ⟨hnone, hapart⟩ := List.pairwise_cons.1 hapart
    obtain ⟨items, hitems⟩ := hstep e (by simp) a b ha hfirst
    obtain ⟨more, hmore⟩ := ih (fun e' he' => hstep e' (by simp [he'])) hapart
      (hitems.deeds.wellNamed ha) hrest
    have hboth := hitems.append hmore (by
      intro x hx hother
      obtain ⟨e', he', hx'⟩ := hother
      exact hnone e' he' x hx hx')
    refine ⟨items ++ more, hboth.widen (fun x hx => ?_) (fun x hx _ => ?_)⟩
    · simpa using hx
    · simpa using hx

end Ships

/-! ### Copied directories -/

/-- Names that lead to something in a directory. -/
def PlainNames (names : List String) : Prop :=
  names ≠ [] ∧ ∀ name ∈ names, isPlainName name = true

section Copying

variable {χ : Type} {k : Assets.Placement χ} {source p : Path} {x : χ} {name : String}
  {names : List String} {a c : Artifacts} {t : FileTree}

theorem Path.check_eq_ok_iff :
    p.check = .ok () ↔
      '\x00' ∉ p.text.toList ∧ p.text.isEmpty = false ∧ p.text.utf8ByteSize ≤ Path.maxBytes := by
  unfold Path.check
  split
  next hnul => simp [hnul]
  next hnul =>
    split
    next hempty => simp [hempty]
    next hempty =>
      split
      next hsize => simp [Nat.not_le.2 hsize]
      next hsize => simp [hnul, hempty, Nat.not_lt.1 hsize]

/-- The longer path is refused if the shorter one is. -/
theorem Path.check_of_below (hp : p.text.isEmpty = false)
    (hnames : ∀ name ∈ names, isPlainName name = true) (h : (p.below names).check = .ok ()) :
    p.check = .ok () := by
  have htext : ∃ more, (p.below names).text = p.text ++ more := by
    clear h hp
    induction names generalizing p with
    | nil => exact ⟨"", by simp [Path.below_nil]⟩
    | cons name rest ih =>
      obtain ⟨hname, hrest⟩ := List.forall_mem_cons.1 hnames
      obtain ⟨more, hmore⟩ := ih (p := p.join name) hrest
      refine ⟨p.glue ++ name ++ more, ?_⟩
      rw [Path.below_cons, hmore, Path.join_of_relative p (isAbsoluteText_of_isPlainName hname)]
      simp only [String.append_assoc]
  obtain ⟨more, htext⟩ := htext
  obtain ⟨hnul, -, hsize⟩ := Path.check_eq_ok_iff.1 h
  rw [htext, String.toList_append, List.mem_append, not_or] at hnul
  rw [htext, String.utf8ByteSize_append] at hsize
  exact Path.check_eq_ok_iff.2 ⟨hnul.1, hp, by omega⟩

/-- A path that leads on through a directory shows that there is the directory. -/
theorem isDirectory_of_passable (hname : isPlainName name = true) (hnames : PlainNames names)
    (hcheck : ((p.join name).below names).check = .ok ())
    (hpassable : t.Passable ((p.join name).below names).start ((p.join name).below names).steps) :
    t.isDirectory (p.join name) = true := by
  have hopens := FileTree.opens_of_passable hnames.2 hnames.1 hpassable
  have hcheck := Path.check_of_below (Path.isEmpty_join p hname) hnames.2 hcheck
  exact FileTree.isDirectory_iff.2 ⟨hcheck, hopens.passable, hopens.directory⟩

/-- A file in a directory shows that there is the directory. -/
theorem isDirectory_of_isFile (hname : isPlainName name = true) (hnames : PlainNames names)
    (h : t.isFile ((p.join name).below names) = true) : t.isDirectory (p.join name) = true := by
  obtain ⟨-, hcheck, hpassable, -⟩ := FileTree.isFile_iff.1 h
  exact isDirectory_of_passable hname hnames hcheck hpassable

/-- Something behind the first of the names shows that there is an entry for it. -/
theorem get?_ne_none_of_passable (hname : isPlainName name = true)
    (hnames : ∀ n ∈ names, isPlainName n = true)
    (hpassable : t.Passable ((p.join name).below names).start ((p.join name).below names).steps)
    (hget : t.get? ((p.join name).below names).destination ≠ none) :
    t.get? (name :: p.destination) ≠ none := by
  cases names with
  | nil =>
    rw [Path.below_nil, Path.destination_join p hname] at hget
    exact hget
  | cons next rest =>
    have hopens := FileTree.opens_of_passable hnames (by simp) hpassable
    have hdirectory := hopens.directory
    rw [Path.destination_join p hname] at hdirectory
    simp [hdirectory]

theorem make_tracked (h : make p a = (c, .ok ())) :
    Deeds (Permit.only [] []) a c ∧ c.written = a.written := by
  have hdeeds : Deeds (Permit.only [] []) a { a with tree := (a.tree.createDirectories p).1 } :=
    createDirectories_deeds trivial a
  obtain ⟨rfl, -⟩ := Prod.mk.inj h
  exact ⟨hdeeds, rfl⟩

/-- Names that lead to an entry of a directory, or to something in that entry. -/
def BeginWith (name : String) (names : List String) : Prop :=
  PlainNames names ∧ names.head? = some name

theorem BeginWith.unique {other : String} (h : BeginWith name names) (h' : BeginWith other names) :
    name = other :=
  Option.some.inj (h.2.symm.trans h'.2)

/-- Whatever can be reached in a directory is behind one of its entries. -/
theorem exists_beginWith {entries : List (String × Node)}
    (hentries : ∀ name node, isPlainName name = true → t.get? (name :: p.destination) = some node →
      (name, node) ∈ entries)
    (hnames : PlainNames names) (hpassable : t.Passable (p.below names).start (p.below names).steps)
    (hget : t.get? (p.below names).destination ≠ none) : ∃ e ∈ entries, BeginWith e.1 names := by
  cases names with
  | nil => exact absurd rfl hnames.1
  | cons name rest =>
    obtain ⟨hname, hrest⟩ := List.forall_mem_cons.1 hnames.2
    obtain ⟨node, hnode⟩ := Option.ne_none_iff_exists'.1
      (get?_ne_none_of_passable hname hrest hpassable hget)
    exact ⟨(name, node), hentries name node hname hnode, hnames, rfl⟩

/-- A file deeper down shows that an entry is a directory. -/
theorem isDirectory_of_deeper (hname : isPlainName name = true) (hnames : BeginWith name names)
    (hfile : t.isFile (p.below names) = true) (hne : names ≠ [name]) :
    t.isDirectory (p.join name) = true ∧ ∃ rest, PlainNames rest ∧ name :: rest = names := by
  obtain ⟨hplain, hhead⟩ := hnames
  cases names with
  | nil => cases hhead
  | cons first rest =>
    cases hhead
    have hrest : PlainNames rest := ⟨by simpa using hne, (List.forall_mem_cons.1 hplain.2).2⟩
    exact ⟨isDirectory_of_isFile hname hrest hfile, rest, hrest, rfl⟩

/-- What was brought from an entry of a directory was brought from the directory. -/
theorem Ships.fromEntry {items : List (List String)} (hname : isPlainName name = true)
    (hdirectory : a.tree.isDirectory (source.join name) = true)
    (h : Ships (source.join name).below (k.place (k.down x name)) PlainNames a c items) :
    Ships source.below (k.place x) (BeginWith name) a c (items.map (name :: ·)) := by
  have hmapped : Ships source.below (k.place x) (fun names => ∃ rest, PlainNames rest ∧
      name :: rest = names) a c (items.map (name :: ·)) := by
    refine h.map List.cons_injective (fun _ _ => rfl) ?_
    intro rest hrest
    cases rest with
    | nil => exact absurd rfl hrest.1
    | cons next rest => rfl
  refine hmapped.widen ?_ ?_
  · intro names hnames
    obtain ⟨rest, hrest, rfl⟩ := hnames
    exact ⟨⟨by simp, List.forall_mem_cons.2 ⟨hname, hrest.2⟩⟩, rfl⟩
  · intro names hnames hfile
    have hne : names ≠ [name] := by
      rintro rfl
      obtain ⟨-, -, -, file, hget⟩ := FileTree.isFile_iff.1 hfile
      rw [Path.below_cons, Path.below_nil, (FileTree.isDirectory_iff.1 hdirectory).2.2] at hget
      cases hget
    exact (isDirectory_of_deeper hname hnames hfile hne).2

/-- An entry that is a file is brought. -/
theorem ships_file (hname : isPlainName name = true)
    (hdirectory : ¬a.tree.isDirectory (source.join name) = true)
    (hfile : a.tree.isFile (source.join name) = true)
    (h : Assets.copyFile (source.join name) (k.file x name) a = (c, .ok ())) :
    Ships source.below (k.place x) (BeginWith name) a c [[name]] := by
  rw [Assets.copyFile_eq, blame_eq_ok_iff] at h
  have hdeeds : Deeds (Permit.only [(source.join name, k.file x name)] []) a
      (Work.copy (source.join name) (k.file x name) a).1 :=
    copy_deeds (List.mem_singleton.2 rfl) a
  rw [h] at hdeeds
  obtain ⟨file, -, -, hc⟩ := copy_eq_ok_iff.1 h
  refine ⟨hdeeds, by rw [hc]; rfl, List.nodup_singleton _, ?_, ?_, ?_⟩
  · simpa [BeginWith, PlainNames] using hname
  · simpa [Path.below_cons, Path.below_nil] using hdeeds.keeps.isFile hfile
  · intro names hnames hisFile
    by_contra hne
    rw [List.mem_singleton] at hne
    exact hdirectory (isDirectory_of_deeper hname hnames hisFile hne).1

/-- From an entry that is neither a directory nor a file nothing is brought. -/
theorem ships_nothing (hname : isPlainName name = true)
    (hdirectory : ¬a.tree.isDirectory (source.join name) = true)
    (hfile : ¬a.tree.isFile (source.join name) = true) :
    Ships source.below (k.place x) (BeginWith name) a a [] := by
  refine .none ?_
  intro names hnames hisFile
  by_cases hne : names = [name]
  · subst hne
    exact hfile hisFile
  · exact hdirectory (isDirectory_of_deeper hname hnames hisFile hne).1

/-- Copying an entry of a directory brings the files whose names begin with its name. -/
theorem copyEntry_ships {inner : Path → χ → Work Assets.AssetFault} (hname : isPlainName name = true)
    (hinner : ∀ c : Artifacts, inner (source.join name) (k.down x name) a = (c, .ok ()) →
      ∃ items, Ships (source.join name).below (k.place (k.down x name)) PlainNames a c items)
    (h : Assets.copyEntry k inner source x name a = (c, .ok ())) :
    ∃ items, Ships source.below (k.place x) (BeginWith name) a c items := by
  unfold Assets.copyEntry ifDirectory at h
  split at h
  next hdirectory =>
    obtain ⟨items, hitems⟩ := hinner c h
    exact ⟨_, hitems.fromEntry hname hdirectory⟩
  next hdirectory =>
    unfold ifFile at h
    split at h
    next hfile => exact ⟨_, ships_file hname hdirectory hfile h⟩
    next hfile =>
      rw [done_eq_ok_iff] at h
      subst h
      exact ⟨_, ships_nothing hname hdirectory hfile⟩

/-- Copying a directory brings the files in it, at every depth. -/
theorem copyBy_ships (depth : Nat) (hanchor : source.destination.isAnchor = false)
    (ha : a.tree.WellNamed) (h : Assets.copyBy k depth source x a = (c, .ok ())) :
    ∃ items, Ships source.below (k.place x) PlainNames a c items := by
  induction depth generalizing source x a c with
  | zero =>
    rw [Assets.copyBy] at h
    cases h
  | succ depth ih =>
    rw [Assets.copyBy, andThen_eq_ok_iff] at h
    obtain ⟨b, hmake, h⟩ := h
    obtain ⟨entries, hlist, h⟩ := listing_eq_ok_iff.1 h
    rw [Assets.makeDirectory_eq, blame_eq_ok_iff] at hmake
    obtain ⟨hdeeds, hwritten⟩ := make_tracked hmake
    have hb := hdeeds.wellNamed ha
    have hentries := hb.listed hanchor hlist
    have hstep : ∀ e ∈ entries, ∀ a c : Artifacts, a.tree.WellNamed →
        Assets.copyEntry k (Assets.copyBy k depth) source x e.1 a = (c, .ok ()) →
          ∃ items, Ships source.below (k.place x) (BeginWith e.1) a c items := by
      intro e he a c ha h
      have hname := hentries.plain e he
      refine copyEntry_ships hname ?_ h
      intro c h
      refine ih ?_ ha h
      rw [Path.destination_join source hname]
      exact Location.isAnchor_cons_of_plain _ hname
    obtain ⟨items, hitems⟩ := ships_runAll hstep (by
      refine (List.pairwise_map.1 hentries.nodup).imp ?_
      intro e e' hne names hnames hnames'
      exact hne (hnames.unique hnames')) hb h
    refine ⟨items, .afterMaking hdeeds hwritten (hitems.widen ?_ ?_)⟩
    · intro names hnames
      obtain ⟨e, -, hplain, -⟩ := hnames
      exact hplain
    · intro names hnames hfile
      obtain ⟨-, -, hpassable, file, hget⟩ := FileTree.isFile_iff.1 hfile
      exact exists_beginWith (fun name node _ => (hentries.mem_iff name node).2) hnames hpassable
        (by simp [hget])

end Copying

/-! ### Modules -/

section Modules

variable {χ : Type} {s : Settings} {m : Module} {a c : Artifacts}

/-- One of the directories of a module is brought, if there is one. -/
theorem ships_part {k : Assets.Placement χ} {x : χ} {isSource : Bool} {depth : Nat}
    (hplace : ∀ names, PlainNames names → Asset.target s ⟨m, isSource, names⟩ = k.place x names)
    (ha : a.tree.WellNamed)
    (h : ifDirectory (Asset.home ⟨m, isSource, []⟩)
      (Assets.copyBy k depth (Asset.home ⟨m, isSource, []⟩) x) done a = (c, .ok ())) :
    ∃ items, Ships Asset.origin (Asset.target s)
      (fun y => y.module = m ∧ y.isSource = isSource ∧ PlainNames y.names) a c items := by
  have hpart := Asset.plain_part ⟨m, isSource, []⟩
  unfold ifDirectory at h
  split at h
  next hdirectory =>
    have hanchor : (Asset.home ⟨m, isSource, []⟩).destination.isAnchor = false := by
      rw [Asset.home, Path.destination_join _ hpart]
      exact Location.isAnchor_cons_of_plain _ hpart
    obtain ⟨items, hitems⟩ := copyBy_ships depth hanchor ha h
    have hmapped : Ships Asset.origin (Asset.target s)
        (fun y => ∃ names, PlainNames names ∧ (⟨m, isSource, names⟩ : Asset) = y) a c
        (items.map fun names => ⟨m, isSource, names⟩) := by
      refine hitems.map ?_ (fun _ _ => rfl) hplace
      intro names names' heq
      cases heq
      rfl
    refine ⟨_, hmapped.widen ?_ ?_⟩
    · intro y hy
      obtain ⟨names, hnames, rfl⟩ := hy
      exact ⟨rfl, rfl, hnames⟩
    · intro y hy _
      obtain ⟨module, isSource', names⟩ := y
      obtain ⟨rfl, rfl, hnames⟩ := hy
      exact ⟨names, hnames, rfl⟩
  next hdirectory =>
    rw [done_eq_ok_iff] at h
    subst h
    refine ⟨[], .none ?_⟩
    intro y hy hfile
    obtain ⟨module, isSource', names⟩ := y
    obtain ⟨rfl, rfl, hnames⟩ := hy
    exact hdirectory (isDirectory_of_isFile hpart hnames hfile)

theorem exportModule_ships (hm : hasPlainSegments m.name = true) (ha : a.tree.WellNamed)
    (h : Assets.exportModule s m a = (c, .ok ())) :
    ∃ items, Ships Asset.origin (Asset.target s) (fun y => y.module = m ∧ PlainNames y.names)
      a c items := by
  rw [Assets.exportModule_eq, blame_eq_ok_iff, andThen_eq_ok_iff, Assets.exportHeaders_eq,
    Assets.exportSources_eq] at h
  obtain ⟨b, hheaders, hsources⟩ := h
  have hfirst : ∃ items, Ships Asset.origin (Asset.target s)
      (fun y => y.module = m ∧ y.isSource = false ∧ PlainNames y.names) a b items := by
    refine ships_part ?_ ha hheaders
    intro names hnames
    rw [Assets.headerDirectory_join hm]
    exact Assets.target_of_mirrored (by simp [Asset.place, Asset.parts]) hnames.1
  obtain ⟨headers, hheaders⟩ := hfirst
  have hb := hheaders.deeds.wellNamed ha
  have hsecond : ∃ items, Ships Asset.origin (Asset.target s)
      (fun y => y.module = m ∧ y.isSource = true ∧ PlainNames y.names) b c items := by
    cases hmerge : s.mergeSources with
    | false =>
      rw [hmerge, if_neg (by simp)] at hsources
      refine ships_part ?_ hb hsources
      intro names hnames
      rw [Assets.sourceDirectory_join hm]
      exact Assets.target_of_mirrored (by simp [Asset.place, Asset.parts, hmerge]) hnames.1
    | true =>
      rw [hmerge, if_pos rfl] at hsources
      exact ships_part (fun names hnames => Assets.target_of_merged hmerge hnames.1) hb hsources
  obtain ⟨sources, hsources⟩ := hsecond
  refine ⟨headers ++ sources, (hheaders.append hsources ?_).widen ?_ ?_⟩
  · intro y hy hy'
    rw [hy.2.1] at hy'
    cases hy'.2.1
  · intro y hy
    rcases hy with ⟨hmodule, -, hnames⟩ | ⟨hmodule, -, hnames⟩ <;> exact ⟨hmodule, hnames⟩
  · intro y hy _
    cases hsource : y.isSource with
    | false => exact .inl ⟨hy.1, rfl, hy.2⟩
    | true => exact .inr ⟨hy.1, rfl, hy.2⟩

end Modules

/-! ### Builds -/

namespace Generation

variable {f : Work Failure} {paths : List Path} {a c : Artifacts}

theorem Saves.written (hf : Saves f paths) (h : f a = (c, .ok ())) : c.written = a.written ++ paths := by
  obtain ⟨files, rfl, rfl⟩ := hf
  induction files generalizing a with
  | nil =>
    rw [runAll_nil, done_eq_ok_iff] at h
    simp [h]
  | cons file rest ih =>
    obtain ⟨p, content⟩ := file
    rw [runAll_cons, andThen_eq_ok_iff] at h
    obtain ⟨b, hfile, hrest⟩ := h
    rw [saveFile_eq, andThen_eq_ok_iff] at hfile
    obtain ⟨b', hmake, hwrite⟩ := hfile
    rw [blame_eq_ok_iff, write_eq_ok_iff] at hwrite
    have hb' : b'.written = a.written := by
      unfold makeAbove at hmake
      cases hparent : p.parent? with
      | none =>
        rw [hparent] at hmake
        rw [done_eq_ok_iff.1 hmake]
      | some q =>
        rw [hparent] at hmake
        exact (make_tracked (blame_eq_ok_iff.1 hmake)).2
    rw [ih hrest, hwrite.2]
    simp [hb']

theorem Saves.deeds (hf : Saves f paths) (h : f a = (c, .ok ())) :
    Deeds (Permit.only [] paths) a c := by
  have hlawful : Lawful (Permit.only [] paths) f :=
    saves_lawful hf fun p hp => ⟨hp, fun _ _ => trivial⟩
  exact hlawful.deeds_of_run Permit.only_guards trivial h

end Generation

section Builds

variable {w : Workshop} {settings : Settings} {tree after : FileTree} {input : Input} {report : Report}
  {a c : Artifacts}

/-- The modules of an accepted build are all different. -/
theorem Accepted.nodup_modules (h : Accepted w settings tree input) : input.modules.values.Nodup := by
  have hnames : input.modules.values.map (·.name) = input.modules.keys := by
    rw [Dict.values, Dict.keys, List.map_map]
    apply List.map_congr_left
    intro e he
    exact (h.backs e.1 e.2 (Dict.get?_of_mem_entries he)).named
  have hkeys := Dict.nodup_keys input.modules
  rw [← hnames] at hkeys
  exact hkeys.of_map

theorem prepareLibrary_ships (hnodup : input.modules.values.Nodup)
    (hmodules : ∀ m ∈ input.modules.values, hasPlainSegments m.name = true) (ha : a.tree.WellNamed)
    (h : prepareLibrary input a = (c, .ok ())) :
    ∃ items, Ships Asset.origin (Asset.target input.settings)
      (fun x => x.Of input ∧ x.names ≠ []) a c items := by
  rw [prepareLibrary_eq, andThen_eq_ok_iff, makeOutputDirectory_eq, makeOutputDirectory_eq] at h
  obtain ⟨b, hheaders, h⟩ := h
  obtain ⟨b', hsources, h⟩ := andThen_eq_ok_iff.1 h
  obtain ⟨hfirst, hwritten⟩ := make_tracked (blame_eq_ok_iff.1 hheaders)
  obtain ⟨hsecond, hwritten'⟩ := make_tracked (blame_eq_ok_iff.1 hsources)
  have hstep : ∀ m ∈ input.modules.values, ∀ a c : Artifacts, a.tree.WellNamed →
      Assets.exportModule input.settings m a = (c, .ok ()) →
        ∃ items, Ships Asset.origin (Asset.target input.settings)
          (fun y => y.module = m ∧ PlainNames y.names) a c items :=
    fun m hm a c ha h => exportModule_ships (hmodules m hm) ha h
  obtain ⟨items, hitems⟩ := ships_runAll hstep (by
    refine hnodup.imp ?_
    intro m m' hne y hy hy'
    exact hne (hy.1.symm.trans hy'.1)) (hsecond.wellNamed (hfirst.wellNamed ha)) h
  refine ⟨items, .afterMaking hfirst hwritten (.afterMaking hsecond hwritten' (hitems.widen ?_ ?_))⟩
  · intro x hx
    obtain ⟨m, hm, rfl, hnames⟩ := hx
    exact ⟨⟨hm, hnames.2⟩, hnames.1⟩
  · intro x hx _
    exact ⟨x.module, hx.1.mem, rfl, hx.2, hx.1.plain⟩

/-- The assets are the files that the modules of a build have.  Each of them is brought to its target, and
after them come the generated files. -/
structure Shipment (input : Input) (tree after : FileTree) (report : Report) (assets : List Asset) :
    Prop where
  nodup : assets.Nodup
  inModules : ∀ x ∈ assets, x.Of input ∧ x.names ≠ []
  isFile : ∀ x ∈ assets, after.isFile x.origin = true
  complete : ∀ x : Asset, x.Of input → x.names ≠ [] → tree.isFile x.origin = true → x ∈ assets
  files : report.files = assets.map (Asset.target input.settings) ++
    generatedFiles input.settings report.storageUsage
  deeds : Deeds (Permit.only (assets.map fun x => (x.origin, x.target input.settings))
    (generatedFiles input.settings report.storageUsage)) ⟨tree, []⟩ ⟨after, report.files⟩

theorem carryOut_ships (hnodup : input.modules.values.Nodup)
    (hmodules : ∀ m ∈ input.modules.values, hasPlainSegments m.name = true) (htree : tree.WellNamed)
    (h : carryOut input tree = (after, .ok report)) :
    ∃ assets, Shipment input tree after report assets := by
  obtain ⟨b, s, prepared, hlibrary, hprepare, hgenerate, -, husage⟩ := carryOut_eq_ok_iff.1 h
  obtain ⟨assets, hassets⟩ := prepareLibrary_ships hnodup hmodules htree hlibrary
  have hsaves := saves_standard s (firstPhases_generators hprepare)
  rw [← husage] at hsaves
  have hdeeds := hassets.deeds.join (hsaves.deeds hgenerate)
  refine ⟨assets, hassets.nodup, hassets.inRange, ?_, ?_, ?_, ?_⟩
  · intro x hx
    exact (hsaves.deeds hgenerate).keeps.isFile (hassets.isFile x hx)
  · intro x hx hne hfile
    exact hassets.complete x ⟨hx, hne⟩ hfile
  · have hwritten : report.files = b.written ++ generatedFiles input.settings report.storageUsage :=
      hsaves.written hgenerate
    rw [hwritten, hassets.written, List.nil_append]
  · simpa using hdeeds

/-- A build that succeeds brings the files of the modules that were accepted. -/
theorem build_ships (htree : tree.WellNamed) (h : build w settings tree = (after, .ok report)) :
    ∃ input assets, Accepted w settings tree input ∧ Shipment input tree after report assets := by
  obtain ⟨input, haccepted⟩ := exists_accepted h
  rw [build_of_accepted haccepted] at h
  obtain ⟨assets, hassets⟩ := carryOut_ships haccepted.nodup_modules
    (fun m hm => (haccepted.liesBelow hm).plain) htree h
  exact ⟨input, assets, haccepted, hassets⟩

end Builds

end Boardwright
