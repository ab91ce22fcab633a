import Boardwright.Proofs.Overlaps

/-!
# Names of sources that go into one directory

When all sources go into one directory, the parts of a module's name and the names that lead to a source
are joined by underscores, and the underscores in them are doubled.  Doubling does not make the names
unique: an underscore looks like an empty name between two others, and nothing shows where the name of the
module ends.

* **`underscorePieces`**: a name as it can be read back from a joined one.
* **`splitOn_flatName`**: what can be read back from the name of a source, and so when two are the same.
* **`Tidy`**, **`flatName_eq_iff_of_tidy`**: without underscores at one end of the names, joined names are
  the same only if the parts are.
* **`merged_names`**: both facts, and that sources get these names.
-/

namespace Boardwright

open Generation

/-! ### Interspersed lists -/

section Intersperse

variable {α : Type} {e a a' : α} {l l' rest rest' : List α} {ls ls' : List (List α)}

theorem intersperse_ne_nil (h : l ≠ []) : l.intersperse e ≠ [] := by
  cases l with
  | nil => exact absurd rfl h
  | cons b l => cases l <;> simp

theorem mem_of_mem_intersperse (h : a ∈ l.intersperse e) : a = e ∨ a ∈ l := by
  induction l with
  | nil => simp at h
  | cons b l ih =>
    cases l with
    | nil => exact .inr h
    | cons c l =>
      simp only [List.intersperse_cons_cons, List.mem_cons] at h ih ⊢
      tauto

theorem intersperse_append_inj (hrest : rest.head? ≠ some e) (hrest' : rest'.head? ≠ some e)
    (h : (a :: l).intersperse e ++ rest = (a' :: l').intersperse e ++ rest') :
    a :: l = a' :: l' ∧ rest = rest' := by
  induction l generalizing a a' l' with
  | nil =>
    cases l' with
    | nil =>
      simp only [List.intersperse_singleton, List.cons_append, List.nil_append, List.cons.injEq] at h
      exact ⟨by rw [h.1], h.2⟩
    | cons b' l' =>
      simp only [List.intersperse_singleton, List.intersperse_cons_cons, List.cons_append,
        List.nil_append, List.cons.injEq] at h
      rw [h.2] at hrest
      exact absurd rfl hrest
  | cons b l ih =>
    cases l' with
    | nil =>
      simp only [List.intersperse_singleton, List.intersperse_cons_cons, List.cons_append,
        List.nil_append, List.cons.injEq] at h
      rw [← h.2] at hrest'
      exact absurd rfl hrest'
    | cons b' l' =>
      simp only [List.intersperse_cons_cons, List.cons_append, List.cons.injEq, true_and] at h
      obtain ⟨hl, hr⟩ := ih h.2
      exact ⟨by rw [h.1, hl], hr⟩

/-- Interspersed lists can be told apart when they are put one after the other, if none of them begins with
what is put between. -/
theorem flatMap_intersperse_inj (h : ∀ l ∈ ls, ∃ a ∈ l.head?, a ≠ e)
    (h' : ∀ l ∈ ls', ∃ a ∈ l.head?, a ≠ e)
    (heq : ls.flatMap (·.intersperse e) = ls'.flatMap (·.intersperse e)) : ls = ls' := by
  -- what follows one list begins with the first element of another
  have hhead : ∀ ms : List (List α), (∀ l ∈ ms, ∃ a ∈ l.head?, a ≠ e) →
      (ms.flatMap (·.intersperse e)).head? ≠ some e := by
    intro ms hms
    cases ms with
    | nil => simp
    | cons l ms =>
      obtain ⟨a, ha, hne⟩ := hms l (by simp)
      obtain ⟨l, rfl⟩ := List.head?_eq_some_iff.1 ha
      cases l <;> simpa using hne
  induction ls generalizing ls' with
  | nil =>
    cases ls' with
    | nil => rfl
    | cons l' ls' =>
      obtain ⟨a', ha', -⟩ := h' l' (by simp)
      obtain ⟨l', rfl⟩ := List.head?_eq_some_iff.1 ha'
      cases l' <;> simp at heq
  | cons l ls ih =>
    obtain ⟨a, ha, -⟩ := h l (by simp)
    obtain ⟨l, rfl⟩ := List.head?_eq_some_iff.1 ha
    cases ls' with
    | nil => cases l <;> simp at heq
    | cons l' ls' =>
      obtain ⟨a', ha', -⟩ := h' l' (by simp)
      obtain ⟨l', rfl⟩ := List.head?_eq_some_iff.1 ha'
      have hls := (List.forall_mem_cons.1 h).2
      have hls' := (List.forall_mem_cons.1 h').2
      rw [List.flatMap_cons, List.flatMap_cons] at heq
      obtain ⟨hl, hrest⟩ := intersperse_append_inj (hhead ls hls) (hhead ls' hls') heq
      rw [hl, ih hls hls' hrest]

theorem intersperse_concat (h : l ≠ []) : (l ++ [a]).intersperse e = l.intersperse e ++ [e, a] := by
  induction l with
  | nil => exact absurd rfl h
  | cons b l ih =>
    cases l with
    | nil => rfl
    | cons c l =>
      have hrest := ih (by simp)
      simp only [List.cons_append, List.intersperse_cons_cons] at hrest ⊢
      rw [hrest]

theorem reverse_intersperse (l : List α) : (l.intersperse e).reverse = l.reverse.intersperse e := by
  induction l with
  | nil => rfl
  | cons a l ih =>
    cases l with
    | nil => rfl
    | cons b l =>
      rw [List.intersperse_cons_cons, List.reverse_cons, List.reverse_cons, ih, List.reverse_cons (a := a),
        intersperse_concat (by simp), List.append_assoc]
      rfl

/-- The same holds if none of them ends with what is put between. -/
theorem flatMap_intersperse_inj_of_last (h : ∀ l ∈ ls, ∃ a ∈ l.getLast?, a ≠ e)
    (h' : ∀ l ∈ ls', ∃ a ∈ l.getLast?, a ≠ e)
    (heq : ls.flatMap (·.intersperse e) = ls'.flatMap (·.intersperse e)) : ls = ls' := by
  have hreverse : ∀ ms : List (List α), (ms.flatMap (·.intersperse e)).reverse =
      (ms.map List.reverse).reverse.flatMap (·.intersperse e) := by
    intro ms
    rw [List.reverse_flatMap, ← List.map_reverse, List.flatMap_map]
    congr 1
    funext l
    exact reverse_intersperse l
  have hheads : ∀ ms : List (List α), (∀ l ∈ ms, ∃ a ∈ l.getLast?, a ≠ e) →
      ∀ l ∈ (ms.map List.reverse).reverse, ∃ a ∈ l.head?, a ≠ e := by
    intro ms hms l hl
    obtain ⟨m, hm, rfl⟩ := List.mem_map.1 (List.mem_reverse.1 hl)
    rw [List.head?_reverse]
    exact hms m hm
  have hmaps : (ls.map List.reverse).reverse = (ls'.map List.reverse).reverse := by
    apply flatMap_intersperse_inj (hheads ls h) (hheads ls' h')
    rw [← hreverse, ← hreverse, heq]
  exact List.map_injective_iff.2 List.reverse_injective (List.reverse_injective hmaps)

end Intersperse

/-! ### Joined names -/

/-- The pieces of a name between its underscores, with an empty piece for every underscore. -/
def underscorePieces (name : String) : List String := (Text.splitOn '_' name).intersperse ""

section FlatNames

variable {m m' : String} {r r' : List String}

theorem flatMap_underscorePieces_ne_nil (h : r ≠ []) : r.flatMap underscorePieces ≠ [] := by
  cases r with
  | nil => exact absurd rfl h
  | cons name rest =>
    have hpieces : Text.splitOn '_' name ≠ [] := by
      simpa [Text.splitOn] using Text.splitChars_ne_nil '_' name.toList
    intro hnil
    rw [List.flatMap_cons, List.append_eq_nil_iff] at hnil
    exact intersperse_ne_nil hpieces hnil.1

theorem underscore_not_mem {name piece : String} (h : piece ∈ underscorePieces name) :
    '_' ∉ piece.toList := by
  rcases mem_of_mem_intersperse h with rfl | hpiece
  · simp
  · obtain ⟨cs, hcs, rfl⟩ := List.mem_map.1 hpiece
    rw [String.toList_ofList]
    exact Text.not_mem_of_mem_splitChars hcs

theorem underscoreEscape_eq (name : String) :
    Assets.underscoreEscape name = "_".intercalate (underscorePieces name) := by
  -- with an empty piece for every underscore, each is joined by two
  have hdouble : ∀ l : List String, "_".intercalate (l.intersperse "") = "__".intercalate l := by
    intro l
    induction l with
    | nil => rfl
    | cons a l ih =>
      cases l with
      | nil => rfl
      | cons b l =>
        have hrest : (b :: l).intersperse "" ≠ [] := intersperse_ne_nil (by simp)
        have hunderscores : "__" = "_" ++ "_" := rfl
        rw [List.intersperse_cons_cons, String.intercalate_cons_cons,
          String.intercalate_cons_of_ne_nil hrest, ih, String.intercalate_cons_cons, String.empty_append,
          hunderscores]
        simp only [String.append_assoc]
  rw [underscorePieces, hdouble]
  apply String.toList_injective
  have hpieces : (Text.splitOn '_' name).map String.toList = Text.splitChars '_' name.toList := by
    simp [Text.splitOn, List.map_map, Function.comp_def]
  have hflat := Text.intercalate_splitChars_flatMap '_' ['_', '_'] (fun c => [c]) name.toList
  simp only [List.flatMap_singleton', List.map_id'] at hflat
  rw [String.toList_intercalate, hpieces, Assets.underscoreEscape, String.toList_ofList]
  exact hflat.symm

theorem mergedLead_eq (m : String) :
    Assets.mergedLead m = "_".intercalate ((nameSegments m).map Assets.underscoreEscape) ++ "_" := by
  have hsegments : ((nameSegments m).map Assets.underscoreEscape).map String.toList =
      (Text.splitChars '.' m.toList).map Assets.escapeUnderscores := by
    simp [nameSegments, Text.splitOn, Assets.underscoreEscape, Function.comp_def]
  rw [Assets.mergedLead]
  congr 1
  apply String.toList_injective
  rw [String.toList_ofList, String.toList_intercalate, hsegments]
  have hflat := Text.intercalate_splitChars_flatMap '.' ['_']
    (fun c => if c = '_' then ['_', '_'] else [c]) m.toList
  refine Eq.trans ?_ hflat.symm
  rw [Assets.escapeUnderscores, List.map_flatMap]
  congr 1
  funext c
  by_cases hunderscore : c = '_'
  · simp [hunderscore]
  · by_cases hdot : c = '.' <;> simp [hunderscore, hdot]

theorem flatName_eq (m : String) (h : r ≠ []) :
    flatName m r = "_".intercalate ((nameSegments m ++ r).flatMap underscorePieces) := by
  have hjoin : ∀ names : List String, "_".intercalate (names.map Assets.underscoreEscape) =
      "_".intercalate (names.flatMap underscorePieces) := by
    intro names
    induction names with
    | nil => rfl
    | cons name rest ih =>
      cases rest with
      | nil => simp [underscoreEscape_eq]
      | cons next rest =>
        have hrest : (next :: rest).flatMap underscorePieces ≠ [] :=
          flatMap_underscorePieces_ne_nil (by simp)
        have hname : underscorePieces name ≠ [] := by
          simpa using flatMap_underscorePieces_ne_nil (r := [name]) (by simp)
        have hcons : (name :: next :: rest).flatMap underscorePieces =
            underscorePieces name ++ (next :: rest).flatMap underscorePieces := rfl
        rw [hcons, String.intercalate_append_of_ne_nil hname hrest, ← ih, ← underscoreEscape_eq]
        exact String.intercalate_cons_cons
  rw [← hjoin, List.map_append, String.intercalate_append_of_ne_nil
    (by simpa using nameSegments_ne_nil m) (by simpa using h), flatName, mergedLead_eq]

/-- What can be read back from the name of a source.  An underscore in a part is read as an empty part
between two others. -/
theorem splitOn_flatName (m : String) (h : r ≠ []) :
    Text.splitOn '_' (flatName m r) = (nameSegments m ++ r).flatMap underscorePieces := by
  rw [flatName_eq m h]
  refine Text.splitOn_intercalate rfl ?_ ?_
  · exact flatMap_underscorePieces_ne_nil (by simp [h])
  · intro piece hpiece
    obtain ⟨name, -, hname⟩ := List.mem_flatMap.1 hpiece
    exact underscore_not_mem hname

/-- Two names of sources are the same if and only if the same is read back from them. -/
theorem flatName_eq_iff (h : r ≠ []) (h' : r' ≠ []) :
    flatName m r = flatName m' r' ↔
      (nameSegments m ++ r).flatMap underscorePieces =
        (nameSegments m' ++ r').flatMap underscorePieces := by
  constructor
  · intro heq
    rw [← splitOn_flatName m h, heq, splitOn_flatName m' h']
  · intro heq
    rw [flatName_eq m h, heq, flatName_eq m' h']

/-! ### Names without underscores at one end -/

/-- No name begins with an underscore, or none ends with one. -/
def Tidy (names : List String) : Prop :=
  (∀ name ∈ names, name.toList.head? ≠ some '_') ∨ ∀ name ∈ names, name.toList.getLast? ≠ some '_'

theorem exists_head_splitOn {name : String} (hne : name.toList ≠ [])
    (h : name.toList.head? ≠ some '_') : ∃ piece ∈ (Text.splitOn '_' name).head?, piece ≠ "" := by
  cases hcs : name.toList with
  | nil => exact absurd hcs hne
  | cons c cs =>
    have hc : c ≠ '_' := by
      intro heq
      rw [hcs, heq] at h
      exact h rfl
    rw [Text.splitOn, hcs, Text.splitChars, if_neg hc]
    cases hs : Text.splitChars '_' cs with
    | nil => exact absurd hs (Text.splitChars_ne_nil '_' cs)
    | cons p ps =>
      refine ⟨String.ofList (c :: p), rfl, ?_⟩
      intro hempty
      simpa using congrArg String.toList hempty

theorem exists_getLast_splitOn {name : String} (hne : name.toList ≠ [])
    (h : name.toList.getLast? ≠ some '_') : ∃ piece ∈ (Text.splitOn '_' name).getLast?, piece ≠ "" := by
  have hlast : ∀ (cs : List Char) (c : Char), c ≠ '_' →
      ∃ before, (Text.splitChars '_' (cs ++ [c])).getLast? = some (before ++ [c]) := by
    intro cs c hc
    induction cs with
    | nil => exact ⟨[], by simp [Text.splitChars, hc]⟩
    | cons d cs ih =>
      obtain ⟨before, hbefore⟩ := ih
      cases hs : Text.splitChars '_' (cs ++ [c]) with
      | nil => exact absurd hs (Text.splitChars_ne_nil '_' _)
      | cons p ps =>
        rw [hs] at hbefore
        by_cases hd : d = '_'
        · exact ⟨before, by simp [Text.splitChars, hd, hs, hbefore]⟩
        · cases ps with
          | nil =>
            refine ⟨d :: before, ?_⟩
            obtain rfl : p = before ++ [c] := by simpa using hbefore
            simp [Text.splitChars, hd, hs]
          | cons q qs =>
            refine ⟨before, ?_⟩
            rw [List.getLast?_cons_cons] at hbefore
            simp [Text.splitChars, hd, hs, hbefore]
  obtain ⟨cs, c, hcs⟩ : ∃ cs c, name.toList = cs ++ [c] :=
    ⟨_, _, (List.dropLast_append_getLast hne).symm⟩
  have hc : c ≠ '_' := by
    intro heq
    rw [hcs, heq] at h
    simp at h
  obtain ⟨before, hbefore⟩ := hlast cs c hc
  refine ⟨String.ofList (before ++ [c]), ?_, ?_⟩
  · rw [Text.splitOn, hcs, List.getLast?_map, hbefore]
    rfl
  · intro hempty
    simpa using congrArg String.toList hempty

/-- Tidy names are the same if the same is read back from them. -/
theorem eq_of_tidy (hne : ∀ name ∈ r ++ r', name.toList ≠ []) (htidy : Tidy (r ++ r'))
    (h : r.flatMap underscorePieces = r'.flatMap underscorePieces) : r = r' := by
  have hsplits : (r.map (Text.splitOn '_')).flatMap (·.intersperse "") =
      (r'.map (Text.splitOn '_')).flatMap (·.intersperse "") := by
    rw [List.flatMap_map, List.flatMap_map]
    exact h
  have hinjective : Function.Injective (Text.splitOn '_') := by
    intro name name' heq
    have hjoined : ∀ s : String, "_".intercalate (Text.splitOn '_' s) = s := fun s =>
      Text.intercalate_splitOn rfl s
    rw [← hjoined name, heq, hjoined]
  have hleft : ∀ name ∈ r, name ∈ r ++ r' := fun _ hname => List.mem_append_left _ hname
  have hright : ∀ name ∈ r', name ∈ r ++ r' := fun _ hname => List.mem_append_right _ hname
  refine List.map_injective_iff.2 hinjective ?_
  rcases htidy with hheads | hlasts
  · have hhead : ∀ name ∈ r ++ r', ∃ piece ∈ (Text.splitOn '_' name).head?, piece ≠ "" :=
      fun name hname => exists_head_splitOn (hne name hname) (hheads name hname)
    exact flatMap_intersperse_inj (List.forall_mem_map.2 fun name hname => hhead name (hleft name hname))
      (List.forall_mem_map.2 fun name hname => hhead name (hright name hname)) hsplits
  · have hlast : ∀ name ∈ r ++ r', ∃ piece ∈ (Text.splitOn '_' name).getLast?, piece ≠ "" :=
      fun name hname => exists_getLast_splitOn (hne name hname) (hlasts name hname)
    exact flatMap_intersperse_inj_of_last
      (List.forall_mem_map.2 fun name hname => hlast name (hleft name hname))
      (List.forall_mem_map.2 fun name hname => hlast name (hright name hname)) hsplits

theorem Tidy.mono {names names' : List String} (h : Tidy names) (hsub : names' ⊆ names) : Tidy names' := by
  rcases h with hheads | hlasts
  · exact .inl fun name hname => hheads name (hsub hname)
  · exact .inr fun name hname => hlasts name (hsub hname)

theorem flatName_eq_iff_of_tidy (hm : hasPlainSegments m = true) (hm' : hasPlainSegments m' = true)
    (hr : PlainNames r) (hr' : PlainNames r')
    (htidy : Tidy ((nameSegments m ++ r) ++ (nameSegments m' ++ r'))) :
    flatName m r = flatName m' r' ↔ nameSegments m ++ r = nameSegments m' ++ r' := by
  rw [flatName_eq_iff hr.1 hr'.1]
  refine ⟨eq_of_tidy ?_ htidy, fun heq => by rw [heq]⟩
  intro name hname
  simp only [List.mem_append] at hname
  apply Path.toList_ne_nil_of_isPlainName
  rcases hname with (hname | hname) | hname | hname
  · exact List.all_eq_true.1 hm name hname
  · exact hr.2 name hname
  · exact List.all_eq_true.1 hm' name hname
  · exact hr'.2 name hname

end FlatNames

/-! ### Builds -/

section Merged

variable {w : Workshop} {settings : Settings} {tree after : FileTree} {report : Report}

/-- The sources of modules go into one directory under their joined names.  None overwrites another if no
module lies in the directory of another and the names are tidy. -/
theorem merged_ships (htree : tree.WellNamed) (hmerge : settings.mergeSources = true)
    (hbuild : build w settings tree = (after, .ok report)) :
    ∃ input assets, Accepted w settings tree input ∧ Shipment input tree after report assets ∧
      (∀ x ∈ assets, x.isSource = true →
        x.target settings = settings.sourceDirectory.join (flatName x.module.name x.names)) ∧
      (Unnested input.modules.values → Tidy (assets.flatMap Asset.parts) →
        ∀ x ∈ assets, ∀ y ∈ assets, x.isSource = true → y.isSource = true →
          x.target settings = y.target settings → x = y) := by
  obtain ⟨input, assets, haccepted, hshipment⟩ := build_ships htree hbuild
  have hplace : ∀ x : Asset, x.isSource = true →
      x.place true = ["src", "sources"] ++ [flatName x.module.name x.names] := by
    intro x hsource
    rw [Asset.place, if_pos hsource, if_pos rfl]
    rfl
  refine ⟨input, assets, haccepted, hshipment, ?_, ?_⟩
  · intro x hx hsource
    rw [Asset.target, hmerge, hplace x hsource, Path.below_append, ← sourceDirectory_eq,
      Path.below_cons, Path.below_nil]
  · intro hunnested htidy x hx y hy hsource hsource' heq
    obtain ⟨hof, hnames⟩ := hshipment.inModules x hx
    obtain ⟨hof', hnames'⟩ := hshipment.inModules y hy
    have hflat : flatName x.module.name x.names = flatName y.module.name y.names := by
      rw [Asset.target, Asset.target, hmerge] at heq
      have hplaces := Path.below_injective (hshipment.plain_place haccepted hx true)
        (hshipment.plain_place haccepted hy true) heq
      rw [hplace x hsource, hplace y hsource'] at hplaces
      simpa using hplaces
    have hparts : x.parts = y.parts := by
      refine (flatName_eq_iff_of_tidy (haccepted.liesBelow hof.mem).plain
        (haccepted.liesBelow hof'.mem).plain ⟨hnames, hof.plain⟩ ⟨hnames', hof'.plain⟩ ?_).1 hflat
      refine htidy.mono (List.append_subset.2 ⟨?_, ?_⟩)
      · exact fun name hname => List.mem_flatMap.2 ⟨x, hx, hname⟩
      · exact fun name hname => List.mem_flatMap.2 ⟨y, hy, hname⟩
    exact hunnested.eq_of_parts hof.mem hof'.mem (by rw [hsource, hsource']) hparts

/-- **When joined names are the same.**  For names of modules that can be loaded and names that lead to
sources, the names under which the sources go into one directory are the same if and only if the same is
read back from them; for tidy names, if and only if the parts are the same.  A build that merges sources
gives them these names. -/
theorem merged_names {m m' : String} {r r' : List String} (hm : hasPlainSegments m = true)
    (hm' : hasPlainSegments m' = true) (hr : PlainNames r) (hr' : PlainNames r') :
    (flatName m r = flatName m' r' ↔ (nameSegments m ++ r).flatMap underscorePieces =
      (nameSegments m' ++ r').flatMap underscorePieces) ∧
    (Tidy ((nameSegments m ++ r) ++ (nameSegments m' ++ r')) →
      (flatName m r = flatName m' r' ↔ nameSegments m ++ r = nameSegments m' ++ r')) ∧
    ∀ (w : Workshop) (settings : Settings) (tree after : FileTree) (report : Report), tree.WellNamed →
      settings.mergeSources = true → build w settings tree = (after, .ok report) →
        ∃ input assets, Accepted w settings tree input ∧ Shipment input tree after report assets ∧
          (∀ x ∈ assets, x.isSource = true →
            x.target settings = settings.sourceDirectory.join (flatName x.module.name x.names)) ∧
          (Unnested input.modules.values → Tidy (assets.flatMap Asset.parts) →
            ∀ x ∈ assets, ∀ y ∈ assets, x.isSource = true → y.isSource = true →
              x.target settings = y.target settings → x = y) :=
  ⟨flatName_eq_iff hr.1 hr'.1, flatName_eq_iff_of_tidy hm hm' hr hr',
    fun _ _ _ _ _ htree hmerge hbuild => merged_ships htree hmerge hbuild⟩

end Merged

theorem nestedModules_merged :
    ∃ after report, build nestedWorkshop (nestedSettings true) nestedModules = (after, .ok report) ∧
      report.files.map Path.text = ["out/Demo/src/a/b/c.h", "out/Demo/src/sources/a_b_c.cpp",
        "out/Demo/src/a/b/c.h", "out/Demo/src/sources/a_b_c.cpp", "out/Demo/src/sources/core.cpp",
        "out/Demo/src/Demo.h", "out/Demo/src/acp/core.h", "out/Demo/src/acp/eeprom_vars.h",
        "out/Demo/src/sources/eeprom_vars.cpp", "out/Demo/examples/DemoSkeleton/DemoSkeleton.ino",
        "out/Demo/library.properties"] :=
  exists_report_of_texts (by decide +kernel)

/-- The same name for two sources: once nothing shows where the name of the module ends, once an underscore
is at the end of one name or at the start of the other.  In the build of nested modules one of the sources
is lost. -/
theorem flatName_collision :
    hasPlainSegments "a" = true ∧ hasPlainSegments "a.b" = true ∧ hasPlainSegments "a_" = true ∧
      flatName "a" ["b", "c.cpp"] = flatName "a.b" ["c.cpp"] ∧
      flatName "a" ["_b.cpp"] = flatName "a_" ["b.cpp"] ∧
      ∃ after report, build nestedWorkshop (nestedSettings true) nestedModules = (after, .ok report) ∧
        (report.files.map Path.text).count "out/Demo/src/sources/a_b_c.cpp" = 2 := by
  obtain ⟨after, report, hbuild, hfiles⟩ := nestedModules_merged
  refine ⟨by decide, by decide, by decide, by decide, by decide, after, report, hbuild, ?_⟩
  rw [hfiles]
  decide

theorem merged_names_nested :
    hasPlainSegments "a" = true ∧ hasPlainSegments "a.b" = true ∧ PlainNames ["b", "c.cpp"] ∧
      PlainNames ["c.cpp"] ∧ flatName "a" ["b", "c.cpp"] = flatName "a.b" ["c.cpp"] ∧
      ∃ after report input assets,
        build nestedWorkshop (nestedSettings true) nestedModules = (after, .ok report) ∧
          Shipment input nestedModules after report assets ∧
            ∀ x ∈ assets, x.isSource = true → x.target (nestedSettings true) =
              (nestedSettings true).sourceDirectory.join (flatName x.module.name x.names) := by
  have hplain : PlainNames ["b", "c.cpp"] := ⟨by simp, by decide⟩
  have hplain' : PlainNames ["c.cpp"] := ⟨by simp, by decide⟩
  have hsegments : hasPlainSegments "a" = true := by decide
  have hsegments' : hasPlainSegments "a.b" = true := by decide
  obtain ⟨hsame, -, hbuilds⟩ := merged_names hsegments hsegments' hplain hplain'
  obtain ⟨after, report, hbuild, -⟩ := nestedModules_merged
  obtain ⟨input, assets, -, hshipment, htargets, -⟩ :=
    hbuilds nestedWorkshop _ _ after report nestedModules_wellNamed rfl hbuild
  exact ⟨hsegments, hsegments', hplain, hplain', hsame.2 (by decide), after, report, input, assets,
    hbuild, hshipment, htargets⟩

end Boardwright
