import Boardwright.Closure
import Boardwright.Proofs.Dict

/-!
# Closures are the reachable modules

A closure is loaded in rounds: each round loads a layer of names, and the names that the loaded
modules need and that are not loaded yet are the next layer.

* **`Reachable`**: the least set with the trimmed seeds that is closed under what modules require.
* **`Provides`**: a name by which a module can be part of a closure.
* **`Rounds`**: the rounds as a relation that sets no bound on their number.
* **`Pending`**: what holds between two rounds.  Everything loaded and everything in the next layer
  is reachable, and nothing that is reachable in one step from a loaded module is missing from both.

The rounds come to an end because every one of them loads a name that was not loaded before
(`loadLayers_rounds`).  Then the layer is empty, and `Pending` says that the loaded names are
closed.
-/

namespace Boardwright

variable {source : ModuleSource} {seeds layer : List String} {modules modules' : ModuleMap}
  {name : String} {m : Module} {f : ClosureFault}

/-! ### Names that a closure needs and names it can have -/

/-- The names that are reachable from the seeds, blanks around them removed, through what modules
require. -/
inductive ModuleSource.Reachable (source : ModuleSource) (seeds : List String) : String → Prop
  | seed {name : String} : name ∈ seeds.map Text.trim → Reachable source seeds name
  | required {name needed : String} {m : Module} : Reachable source seeds name →
      source.load name = .ok m → needed ∈ m.requires → Reachable source seeds needed

/-- A name that is not empty and by which a module is found that has this name. -/
structure ModuleSource.Provides (source : ModuleSource) (name : String) (m : Module) : Prop where
  nonempty : name ≠ ""
  load : source.load name = .ok m
  named : m.name = name

theorem ModuleSource.fetch_eq_ok_iff :
    source.fetch name = .ok m ↔ source.load name = .ok m ∧ m.name = name := by
  rw [ModuleSource.fetch]
  cases source.load name with
  | error e => simp
  | ok m' =>
    by_cases hname : m'.name = name
    · simp only [hname, if_true, Except.ok.injEq]
      constructor
      · rintro rfl
        exact ⟨rfl, hname⟩
      · exact And.left
    · simp only [hname, if_false, Except.ok.injEq, reduceCtorEq, false_iff]
      rintro ⟨rfl, h⟩
      exact hname h

/-- Every module of the map is the one that its name provides. -/
def ModuleSource.Backs (source : ModuleSource) (modules : ModuleMap) : Prop :=
  ∀ name m, modules.get? name = some m → source.Provides name m

theorem ModuleSource.Backs.insert (h : source.Backs modules) (hp : source.Provides name m) :
    source.Backs (modules.insert name m) := by
  intro q m' hq
  rw [Dict.get?_insert] at hq
  by_cases hname : q = name
  · rw [if_pos hname, Option.some.injEq] at hq
    rw [hname, ← hq]
    exact hp
  · rw [if_neg hname] at hq
    exact h q m' hq

/-- Only names of the source can be keys of such a map, and each of them once. -/
theorem ModuleSource.Backs.length_le (h : source.Backs modules) :
    modules.keys.length ≤ source.names.length := by
  have hsub : modules.keys ⊆ source.names := by
    intro q hq
    obtain ⟨m, hm⟩ := Dict.mem_keys_iff.1 hq
    exact source.mem_names (h q m hm).load
  exact (modules.nodup_keys.subperm hsub).length_le

/-! ### One layer -/

/-- A layer is loaded when all its names can be had, and adds exactly these. -/
theorem loadLayer_ok (hb : source.Backs modules)
    (h : (loadLayer source layer modules).result = .ok modules') :
    source.Backs modules' ∧ ∀ q, q ∈ modules'.keys ↔ q ∈ layer ∨ q ∈ modules.keys := by
  induction layer generalizing modules with
  | nil =>
    cases h
    exact ⟨hb, by simp⟩
  | cons name rest ih =>
    rw [loadLayer] at h
    by_cases hempty : name.isEmpty
    · rw [if_pos hempty] at h
      cases h
    · rw [if_neg hempty] at h
      cases hfetch : source.fetch name with
      | error e =>
        rw [hfetch] at h
        cases h
      | ok m =>
        rw [hfetch] at h
        obtain ⟨hload, hnamed⟩ := ModuleSource.fetch_eq_ok_iff.1 hfetch
        have hp : source.Provides name m := ⟨by simpa using hempty, hload, hnamed⟩
        obtain ⟨hb', hkeys⟩ := ih (hb.insert hp) h
        refine ⟨hb', fun q => ?_⟩
        rw [hkeys, Dict.mem_keys_insert, List.mem_cons]
        tauto

/-- A layer that fails has a name that cannot be had. -/
theorem loadLayer_error (h : (loadLayer source layer modules).result = .error f) :
    ∃ name ∈ layer, ∀ m, ¬ source.Provides name m := by
  induction layer generalizing modules with
  | nil => cases h
  | cons name rest ih =>
    rw [loadLayer] at h
    by_cases hempty : name.isEmpty
    · exact ⟨name, by simp, fun m hp => hp.nonempty (by simpa using hempty)⟩
    · rw [if_neg hempty] at h
      cases hfetch : source.fetch name with
      | error e =>
        refine ⟨name, by simp, fun m hp => ?_⟩
        rw [ModuleSource.fetch_eq_ok_iff.2 ⟨hp.load, hp.named⟩] at hfetch
        cases hfetch
      | ok m =>
        rw [hfetch] at h
        obtain ⟨q, hq, hnot⟩ := ih h
        exact ⟨q, by simp [hq], hnot⟩

/-- Only an empty name makes a layer fail for an empty name. -/
theorem mem_of_loadLayer_emptyName (h : (loadLayer source layer modules).result = .error .emptyName) :
    "" ∈ layer := by
  induction layer generalizing modules with
  | nil => cases h
  | cons name rest ih =>
    rw [loadLayer] at h
    by_cases hempty : name.isEmpty
    · rw [String.isEmpty_iff] at hempty
      simp [hempty]
    · rw [if_neg hempty, ModuleSource.fetch] at h
      cases hload : source.load name with
      | error e =>
        rw [hload] at h
        cases h
      | ok m =>
        rw [hload] at h
        by_cases hname : m.name = name
        · simp only [if_pos hname] at h
          exact List.mem_cons_of_mem _ (ih h)
        · simp only [if_neg hname] at h
          cases h

theorem mem_sortedNames {names : List String} : name ∈ sortedNames names ↔ name ∈ names := by
  rw [sortedNames, Dict.mem_keys_ofList]
  simp

/-- The next layer: what the modules of this one require and what is not loaded. -/
theorem mem_nextLayer :
    name ∈ nextLayer modules layer ↔
      name ∉ modules.keys ∧ ∃ q ∈ layer, ∃ m, modules.get? q = some m ∧ name ∈ m.requires := by
  rw [nextLayer, mem_sortedNames, List.mem_filter, List.mem_flatMap, Bool.not_eq_true',
    ← Bool.not_eq_true, Dict.contains_iff, and_comm]
  refine and_congr_right fun _ => exists_congr fun q => and_congr_right fun _ => ?_
  cases modules.get? q with
  | none => simp
  | some m => simp

/-! ### The rounds -/

/-- The rounds from a layer on, as many as it takes, and what they end with. -/
inductive Rounds (source : ModuleSource) : List String → ModuleMap → Loading → Prop
  | done {modules : ModuleMap} : Rounds source [] modules ⟨[], .ok modules⟩
  | fail {layer : List String} {modules : ModuleMap} {f : ClosureFault} : layer ≠ [] →
      (loadLayer source layer modules).result = .error f →
      Rounds source layer modules ⟨(loadLayer source layer modules).loads, .error f⟩
  | next {layer : List String} {modules modules' : ModuleMap} {after : Loading} : layer ≠ [] →
      (loadLayer source layer modules).result = .ok modules' →
      Rounds source (nextLayer modules' layer) modules' after →
      Rounds source layer modules
        ⟨(loadLayer source layer modules).loads ++ after.loads, after.result⟩

/-- A number of rounds that exceeds the names which are not loaded yet is never used up: a layer
that is not empty loads one of them. -/
theorem loadLayers_rounds {rounds : ℕ} (hb : source.Backs modules)
    (hfresh : ∀ name ∈ layer, name ∉ modules.keys)
    (hrounds : source.names.length < rounds + modules.keys.length) :
    Rounds source layer modules (loadLayers source rounds layer modules) := by
  induction rounds generalizing layer modules with
  | zero =>
    have := hb.length_le
    omega
  | succ rounds ih =>
    cases layer with
    | nil => exact Rounds.done
    | cons name rest =>
      cases hresult : (loadLayer source (name :: rest) modules).result with
      | error f =>
        simp only [loadLayers, hresult]
        exact Rounds.fail (List.cons_ne_nil name rest) hresult
      | ok modules' =>
        simp only [loadLayers, hresult]
        refine Rounds.next (List.cons_ne_nil name rest) hresult ?_
        obtain ⟨hb', hkeys⟩ := loadLayer_ok hb hresult
        have hgrow : modules.keys.length < modules'.keys.length :=
          Dict.length_keys_lt (fun q hq => (hkeys q).2 (Or.inr hq))
            ((hkeys name).2 (Or.inl (by simp))) (hfresh name (by simp))
        exact ih hb' (fun q hq => (mem_nextLayer.1 hq).1) (by omega)

theorem closure_rounds (source : ModuleSource) (seeds : List String) :
    Rounds source (sortedNames (seeds.map Text.trim)) .empty (closure source seeds) := by
  rw [closure]
  refine loadLayers_rounds ?_ ?_ ?_
  · intro name m h
    simp at h
  · simp
  · simp

/-! ### What holds between two rounds -/

/-- The loaded modules and the next layer, seen from the names that are reachable. -/
structure Pending (source : ModuleSource) (seeds layer : List String) (modules : ModuleMap) :
    Prop where
  backs : source.Backs modules
  loaded : ∀ name ∈ modules.keys, source.Reachable seeds name
  fresh : ∀ name ∈ layer, source.Reachable seeds name ∧ name ∉ modules.keys
  seeded : ∀ name ∈ seeds.map Text.trim, name ∈ modules.keys ∨ name ∈ layer
  closed : ∀ name m, modules.get? name = some m →
    ∀ needed ∈ m.requires, needed ∈ modules.keys ∨ needed ∈ layer

theorem pending_start (source : ModuleSource) (seeds : List String) :
    Pending source seeds (sortedNames (seeds.map Text.trim)) .empty where
  backs := fun name m h => by simp at h
  loaded := by simp
  fresh := fun name h => ⟨.seed (mem_sortedNames.1 h), by simp⟩
  seeded := fun name h => Or.inr (mem_sortedNames.2 h)
  closed := fun name m h => by simp at h

/-- One round keeps what holds between two rounds. -/
theorem Pending.step (hp : Pending source seeds layer modules)
    (h : (loadLayer source layer modules).result = .ok modules') :
    Pending source seeds (nextLayer modules' layer) modules' := by
  obtain ⟨hb', hkeys⟩ := loadLayer_ok hp.backs h
  have hloaded : ∀ name ∈ modules'.keys, source.Reachable seeds name := by
    intro name hname
    rcases (hkeys name).1 hname with hlayer | hold
    · exact (hp.fresh name hlayer).1
    · exact hp.loaded name hold
  refine ⟨hb', hloaded, ?_, ?_, ?_⟩
  · intro name hname
    obtain ⟨hnot, q, -, m, hq, hneeded⟩ := mem_nextLayer.1 hname
    have hreach := hloaded q (Dict.mem_keys_of_get? hq)
    exact ⟨.required hreach (hb' q m hq).load hneeded, hnot⟩
  · intro name hname
    exact Or.inl ((hkeys name).2 (hp.seeded name hname).symm)
  · intro name m hname needed hneeded
    by_cases hin : needed ∈ modules'.keys
    · exact Or.inl hin
    rcases (hkeys name).1 (Dict.mem_keys_of_get? hname) with hlayer | hold
    · exact Or.inr (mem_nextLayer.2 ⟨hin, name, hlayer, m, hname, hneeded⟩)
    · -- a module loaded in an earlier round: the source gives the same module for its name
      obtain ⟨m', hm'⟩ := Dict.mem_keys_iff.1 hold
      have hsame : m' = m := by
        have hload := (hp.backs name m' hm').load
        rw [(hb' name m hname).load] at hload
        exact (Except.ok.inj hload).symm
      subst hsame
      exact Or.inl ((hkeys needed).2 (hp.closed name m' hm' needed hneeded).symm)

/-- When nothing is left to load, the loaded names are the reachable ones. -/
theorem Pending.mem_keys_iff (hp : Pending source seeds [] modules) :
    name ∈ modules.keys ↔ source.Reachable seeds name := by
  refine ⟨hp.loaded name, fun hreach => ?_⟩
  induction hreach with
  | seed hseed => simpa using hp.seeded _ hseed
  | @required q needed m _ hload hneeded ih =>
    obtain ⟨m', hm'⟩ := Dict.mem_keys_iff.1 ih
    have hload' := (hp.backs q m' hm').load
    rw [hload] at hload'
    cases hload'
    simpa using hp.closed q m hm' needed hneeded

/-! ### Whole closures -/

/-- Rounds that succeed end with nothing left to load. -/
theorem Rounds.pending_of_ok {loading : Loading} (hr : Rounds source layer modules loading)
    (hp : Pending source seeds layer modules) (h : loading.result = .ok modules') :
    Pending source seeds [] modules' := by
  induction hr with
  | done =>
    cases h
    exact hp
  | fail => cases h
  | next _ hresult _ ih => exact ih (hp.step hresult) h

/-- Rounds that fail have come upon a reachable name that cannot be had. -/
theorem Rounds.exists_of_error {loading : Loading} (hr : Rounds source layer modules loading)
    (hp : Pending source seeds layer modules) (h : loading.result = .error f) :
    ∃ name, source.Reachable seeds name ∧ ∀ m, ¬ source.Provides name m := by
  induction hr with
  | done => cases h
  | fail _ hresult =>
    obtain ⟨name, hname, hnot⟩ := loadLayer_error hresult
    exact ⟨name, (hp.fresh name hname).1, hnot⟩
  | next _ hresult _ ih => exact ih (hp.step hresult) h

/-- Rounds that fail for an empty name have come upon one. -/
theorem Rounds.reachable_of_emptyName {loading : Loading} (hr : Rounds source layer modules loading)
    (hp : Pending source seeds layer modules) (h : loading.result = .error .emptyName) :
    source.Reachable seeds "" := by
  induction hr with
  | done => cases h
  | fail _ hresult =>
    cases h
    exact (hp.fresh "" (mem_of_loadLayer_emptyName hresult)).1
  | next _ hresult _ ih => exact ih (hp.step hresult) h

/-! ### Sources with more modules -/

section More

variable {source' : ModuleSource}

end More

/-- **A closure is the set of reachable modules.**  Its rounds come to an end; they succeed exactly
when every reachable name is not empty and is the name of the module found by it; and then the names
of the closure are the reachable ones, each with the module found by it. -/
theorem closure_eq_reachable (source : ModuleSource) (seeds : List String) :
    Rounds source (sortedNames (seeds.map Text.trim)) .empty (closure source seeds) ∧
    ((∃ modules, (closure source seeds).result = .ok modules) ↔
      ∀ name, source.Reachable seeds name →
        name ≠ "" ∧ ∃ m, source.load name = .ok m ∧ m.name = name) ∧
    ∀ modules, (closure source seeds).result = .ok modules →
      (∀ name, name ∈ modules.keys ↔ source.Reachable seeds name) ∧
      ∀ name m, modules.get? name = some m → source.load name = .ok m ∧ m.name = name := by
  have hrounds := closure_rounds source seeds
  have hstart := pending_start source seeds
  refine ⟨hrounds, ⟨?_, ?_⟩, ?_⟩
  · rintro ⟨modules, h⟩ name hreach
    have hend := hrounds.pending_of_ok hstart h
    obtain ⟨m, hm⟩ := Dict.mem_keys_iff.1 (hend.mem_keys_iff.2 hreach)
    have hprovides := hend.backs name m hm
    exact ⟨hprovides.nonempty, m, hprovides.load, hprovides.named⟩
  · intro hall
    cases h : (closure source seeds).result with
    | ok modules => exact ⟨modules, rfl⟩
    | error f =>
      obtain ⟨name, hreach, hnot⟩ := hrounds.exists_of_error hstart h
      obtain ⟨hne, m, hload, hnamed⟩ := hall name hreach
      exact absurd ⟨hne, hload, hnamed⟩ (hnot m)
  · intro modules h
    have hend := hrounds.pending_of_ok hstart h
    refine ⟨fun name => hend.mem_keys_iff, fun name m hm => ?_⟩
    have hprovides := hend.backs name m hm
    exact ⟨hprovides.load, hprovides.named⟩

end Boardwright
