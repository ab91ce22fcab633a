import Boardwright.Proofs.ByteOrder
import Boardwright.Proofs.Closure
import Mathlib.Data.Set.Finite.Lattice

/-!
# Closures are loaded layer by layer

The names that a closure needs lie in layers: first the seeds, then what the modules of a layer require
and what is in no layer so far.  The layers are sets that say nothing about an order of loading.  Here
it is shown that the names are loaded layer by layer, each layer in the order of bytes, up to the first
name that is refused.

* **`ModuleSource.layer`**: the layers.
* **`ListsInOrder`**: a row of names that lists a layer.
* **`ModuleSource.Rejects`**: a name that is refused, with the fault.
* **`loadLayer_cases`**: a row is loaded to its end or up to the first name that is refused.
* **`AtLayer`**: what holds before a layer is loaded.  The loaded names are those of the layers before
  it.
* **`Follows`**: the rows, one after the other, up to the first name that is refused.
* **`closure_follows_layers`**: a closure follows the rows of its layers.
-/

namespace Boardwright

variable {source : ModuleSource} {seeds row : List String} {rows : ℕ → List String} {k : ℕ}
  {modules modules' : ModuleMap} {name : String} {f : ClosureFault} {loading : Loading}

/-! ### Layers -/

/-- The names that the modules of a layer require. -/
def ModuleSource.requiredBy (source : ModuleSource) (layer : Set String) : Set String :=
  {needed | ∃ name ∈ layer, ∃ m, source.load name = .ok m ∧ needed ∈ m.requires}

/-- The layers of names: the seeds, blanks around them removed, and then what the modules of a layer
require and what is neither in this layer nor in one before it. -/
def ModuleSource.layer (source : ModuleSource) (seeds : List String) : ℕ → Set String
  | 0 => {name | name ∈ seeds.map Text.trim}
  | k + 1 =>
    {name | name ∈ source.requiredBy (layer source seeds k) ∧ ∀ j, j ≤ k → name ∉ layer source seeds j}

namespace ModuleSource

theorem mem_layer_zero : name ∈ source.layer seeds 0 ↔ name ∈ seeds.map Text.trim := by
  rw [layer]
  rfl

theorem mem_layer_succ :
    name ∈ source.layer seeds (k + 1) ↔
      name ∈ source.requiredBy (source.layer seeds k) ∧ ∀ j ≤ k, name ∉ source.layer seeds j := by
  rw [layer]
  rfl

theorem not_mem_layer_of_lt {j : ℕ} (hjk : j < k) (hj : name ∈ source.layer seeds j) :
    name ∉ source.layer seeds k := by
  cases k with
  | zero => omega
  | succ k =>
    intro hk
    exact (mem_layer_succ.1 hk).2 j (by omega) hj

theorem finite_requiredBy (source : ModuleSource) {layer : Set String} (h : layer.Finite) :
    (source.requiredBy layer).Finite := by
  have hunion : source.requiredBy layer ⊆
      ⋃ name ∈ layer, {needed | ∃ m, source.load name = .ok m ∧ needed ∈ m.requires} := by
    rintro needed ⟨name, hname, hneeded⟩
    exact Set.mem_biUnion hname hneeded
  refine (h.biUnion ?_).subset hunion
  intro name _
  cases hload : source.load name with
  | error cause => simp
  | ok m =>
    refine m.requires.finite_toSet.subset ?_
    rintro needed ⟨m', hm', hneeded⟩
    cases hm'
    exact hneeded

theorem finite_layer (source : ModuleSource) (seeds : List String) (k : ℕ) :
    (source.layer seeds k).Finite := by
  induction k with
  | zero =>
    refine (seeds.map Text.trim).finite_toSet.subset ?_
    intro name hname
    exact mem_layer_zero.1 hname
  | succ k ih =>
    refine (source.finite_requiredBy ih).subset ?_
    intro name hname
    exact (mem_layer_succ.1 hname).1

/-- Behind an empty layer there are only empty ones. -/
theorem layer_eq_empty {j : ℕ} (h : source.layer seeds k = ∅) (hj : k ≤ j) :
    source.layer seeds j = ∅ := by
  induction j, hj using Nat.le_induction with
  | base => exact h
  | succ j _ ih =>
    rw [Set.eq_empty_iff_forall_notMem]
    intro name hname
    obtain ⟨⟨q, hq, -⟩, -⟩ := mem_layer_succ.1 hname
    rw [ih] at hq
    exact hq

end ModuleSource

/-! ### Rows of names -/

/-- A row has the names of a layer in it, in the order of their bytes and each once. -/
structure ListsInOrder (row : List String) (layer : Set String) : Prop where
  sorted : ByteSorted row
  mem_iff : ∀ name, name ∈ row ↔ name ∈ layer

theorem ListsInOrder.unique {row' : List String} {layer : Set String} (h : ListsInOrder row layer)
    (h' : ListsInOrder row' layer) : row = row' :=
  h.sorted.eq_of_mem_iff h'.sorted fun name => (h.mem_iff name).trans (h'.mem_iff name).symm

theorem exists_listsInOrder {layer : Set String} (h : layer.Finite) : ∃ row, ListsInOrder row layer := by
  refine ⟨sortedNames h.toFinset.toList, byteSorted_keys _, ?_⟩
  intro name
  rw [mem_sortedNames, Finset.mem_toList, Set.Finite.mem_toFinset]

/-! ### Names that are refused -/

/-- A name that is refused, and the fault it leads to: it is empty, or nothing can be loaded by it, or
what is loaded has another name. -/
inductive ModuleSource.Rejects (source : ModuleSource) : String → ClosureFault → Prop
  | empty : Rejects source "" .emptyName
  | unloadable {name : String} {cause : Failure} : name ≠ "" → source.load name = .error cause →
      Rejects source name (.unloadable name cause)
  | misnamed {name : String} {m : Module} : name ≠ "" → source.load name = .ok m → m.name ≠ name →
      Rejects source name (.misnamed name)

/-- What is said about a name that is refused. -/
def refusalMessage (name : String) : String :=
  if name = "" then "Module name cannot be empty." else "Invalid description file of module " ++ name

/-- A name that is refused is the one that the message is about. -/
theorem ModuleSource.Rejects.message (h : source.Rejects name f) :
    f.toFailure.message = refusalMessage name := by
  cases h with
  | empty => rfl
  | unloadable hne => rw [refusalMessage, if_neg hne]; rfl
  | misnamed hne => rw [refusalMessage, if_neg hne]; rfl

/-- A name that is not empty provides a module or is refused when it is fetched. -/
theorem ModuleSource.fetch_cases (source : ModuleSource) (hne : name ≠ "") :
    (∃ m, source.fetch name = .ok m ∧ source.Provides name m) ∨
      ∃ f, source.fetch name = .error f ∧ source.Rejects name f := by
  rw [ModuleSource.fetch]
  cases hload : source.load name with
  | error cause => exact .inr ⟨_, rfl, .unloadable hne hload⟩
  | ok m =>
    by_cases hnamed : m.name = name
    · exact .inl ⟨m, if_pos hnamed, hne, hload, hnamed⟩
    · exact .inr ⟨_, if_neg hnamed, .misnamed hne hload hnamed⟩

/-! ### One row -/

/-- The look-ups that are made for a name before it is refused: none for the empty name. -/
def lookUpsOf (name : String) : List String :=
  if name = "" then [] else [name]

/-- A row is loaded to its end, or up to the first name that is refused. -/
theorem loadLayer_cases (source : ModuleSource) (row : List String) (modules : ModuleMap) :
    (∃ modules', loadLayer source row modules = ⟨row, .ok modules'⟩ ∧
      ∀ name ∈ row, ∃ m, source.Provides name m) ∨
    ∃ before bad after f, row = before ++ bad :: after ∧
      (∀ name ∈ before, ∃ m, source.Provides name m) ∧ source.Rejects bad f ∧
      loadLayer source row modules = ⟨before ++ lookUpsOf bad, .error f⟩ := by
  induction row generalizing modules with
  | nil => exact .inl ⟨modules, rfl, by simp⟩
  | cons name rest ih =>
    by_cases hempty : name = ""
    · subst hempty
      exact .inr ⟨[], "", rest, .emptyName, rfl, by simp, .empty, rfl⟩
    · have hnot : ¬name.isEmpty = true := by simpa using hempty
      simp only [loadLayer, if_neg hnot]
      rcases source.fetch_cases hempty with ⟨m, hfetch, hprovides⟩ | ⟨f, hfetch, hrejects⟩
      · simp only [hfetch]
        rcases ih (modules.insert name m) with
          ⟨modules', hrest, hall⟩ | ⟨before, bad, after, f, rfl, hbefore, hbad, hrest⟩
        · refine .inl ⟨modules', by rw [hrest], ?_⟩
          exact List.forall_mem_cons.2 ⟨⟨m, hprovides⟩, hall⟩
        · refine .inr ⟨name :: before, bad, after, f, rfl, ?_, hbad, by rw [hrest]; rfl⟩
          exact List.forall_mem_cons.2 ⟨⟨m, hprovides⟩, hbefore⟩
      · refine .inr ⟨[], name, rest, f, rfl, by simp, hrejects, ?_⟩
        simp only [hfetch, lookUpsOf, if_neg hempty]
        rfl

/-! ### From layer to layer -/

/-- Before layer `k` is loaded, the loaded modules are those of the layers before it. -/
structure AtLayer (source : ModuleSource) (seeds : List String) (k : ℕ) (modules : ModuleMap) : Prop where
  backs : source.Backs modules
  mem_keys : ∀ name, name ∈ modules.keys ↔ ∃ j < k, name ∈ source.layer seeds j

theorem atLayer_zero (source : ModuleSource) (seeds : List String) :
    AtLayer source seeds 0 .empty where
  backs := fun name m h => by simp at h
  mem_keys := by simp

theorem AtLayer.succ (hat : AtLayer source seeds k modules)
    (hrow : ListsInOrder row (source.layer seeds k))
    (h : (loadLayer source row modules).result = .ok modules') :
    AtLayer source seeds (k + 1) modules' := by
  obtain ⟨hbacks, hkeys⟩ := loadLayer_ok hat.backs h
  refine ⟨hbacks, fun name => ?_⟩
  rw [hkeys, hrow.mem_iff, hat.mem_keys]
  constructor
  · rintro (hk | ⟨j, hj, hmem⟩)
    · exact ⟨k, Nat.lt_succ_self k, hk⟩
    · exact ⟨j, by omega, hmem⟩
  · rintro ⟨j, hj, hmem⟩
    rcases Nat.lt_succ_iff_lt_or_eq.1 hj with hlt | rfl
    · exact .inr ⟨j, hlt, hmem⟩
    · exact .inl hmem

/-- What is not loaded yet of what a loaded layer requires is the next layer. -/
theorem AtLayer.listsInOrder_nextLayer (hat : AtLayer source seeds (k + 1) modules)
    (hrow : ListsInOrder row (source.layer seeds k)) :
    ListsInOrder (nextLayer modules row) (source.layer seeds (k + 1)) := by
  refine ⟨byteSorted_keys _, fun name => ?_⟩
  -- a name of the layer is loaded, and the module loaded by it is the one in the map
  have hloaded : ∀ q ∈ row, ∀ m, modules.get? q = some m ↔ source.load q = .ok m := by
    intro q hq m
    obtain ⟨m', hm'⟩ : ∃ m', modules.get? q = some m' := by
      rw [← Dict.mem_keys_iff, hat.mem_keys]
      exact ⟨k, Nat.lt_succ_self k, (hrow.mem_iff q).1 hq⟩
    rw [hm', (hat.backs q m' hm').load, Option.some.injEq, Except.ok.injEq]
  have hnew : name ∉ modules.keys ↔ ∀ j ≤ k, name ∉ source.layer seeds j := by
    simp only [hat.mem_keys, not_exists, not_and, Nat.lt_succ_iff]
  have hneeded : (∃ q ∈ row, ∃ m, modules.get? q = some m ∧ name ∈ m.requires) ↔
      name ∈ source.requiredBy (source.layer seeds k) := by
    constructor
    · rintro ⟨q, hq, m, hm, hmem⟩
      exact ⟨q, (hrow.mem_iff q).1 hq, m, (hloaded q hq m).1 hm, hmem⟩
    · rintro ⟨q, hq, m, hm, hmem⟩
      have hq' := (hrow.mem_iff q).2 hq
      exact ⟨q, hq', m, (hloaded q hq' m).2 hm, hmem⟩
  rw [mem_nextLayer, hnew, hneeded, ModuleSource.mem_layer_succ, and_comm]

/-! ### Whole closures -/

/-- The names of `n` rows from row `k` on. -/
def namesFrom (rows : ℕ → List String) (k n : ℕ) : List String :=
  (List.range' k n).flatMap rows

/-- Names are looked up row by row from row `k` on, each of them once: until all further rows are empty,
or up to the first name that is refused, and then the fault is about this name. -/
inductive Follows (source : ModuleSource) (rows : ℕ → List String) (k : ℕ) : Loading → Prop
  | toTheEnd {n : ℕ} {modules : ModuleMap} :
      (∀ j, k + n ≤ j → rows j = []) →
      (∀ name ∈ namesFrom rows k n, ∃ m, source.Provides name m) →
      Follows source rows k ⟨namesFrom rows k n, .ok modules⟩
  | upTo {n : ℕ} {before after : List String} {bad : String} {f : ClosureFault} :
      rows (k + n) = before ++ bad :: after →
      (∀ name ∈ namesFrom rows k n ++ before, ∃ m, source.Provides name m) →
      source.Rejects bad f → f.toFailure.message = refusalMessage bad →
      Follows source rows k ⟨namesFrom rows k n ++ before ++ lookUpsOf bad, .error f⟩

theorem namesFrom_succ (rows : ℕ → List String) (k n : ℕ) :
    namesFrom rows k (n + 1) = rows k ++ namesFrom rows (k + 1) n := by
  rw [namesFrom, List.range'_succ, List.flatMap_cons, namesFrom]

/-- A row whose names can all be had stands before the rows that follow it. -/
theorem Follows.cons (h : Follows source rows (k + 1) loading)
    (hrow : ∀ name ∈ rows k, ∃ m, source.Provides name m) :
    Follows source rows k ⟨rows k ++ loading.loads, loading.result⟩ := by
  cases h with
  | @toTheEnd n modules hend hall =>
    simp only [← namesFrom_succ]
    refine .toTheEnd (fun j hj => hend j (by omega)) ?_
    rw [namesFrom_succ]
    exact List.forall_mem_append.2 ⟨hrow, hall⟩
  | @upTo n before after bad f hsplit hall hbad hmessage =>
    simp only [← List.append_assoc, ← namesFrom_succ]
    refine @Follows.upTo _ _ _ (n + 1) before after _ _ ?_ ?_ hbad hmessage
    · rw [← hsplit]
      congr 1
      omega
    · rw [namesFrom_succ, List.append_assoc]
      exact List.forall_mem_append.2 ⟨hrow, hall⟩

theorem Rounds.follows (hrows : ∀ k, ListsInOrder (rows k) (source.layer seeds k))
    (hr : Rounds source row modules loading) (hrow : row = rows k)
    (hat : AtLayer source seeds k modules) : Follows source rows k loading := by
  induction hr generalizing k with
  | done =>
    have hempty : source.layer seeds k = ∅ := by
      rw [Set.eq_empty_iff_forall_notMem]
      intro name hname
      rw [← (hrows k).mem_iff, ← hrow] at hname
      exact List.not_mem_nil hname
    refine Follows.toTheEnd (n := 0) (fun j hj => ?_) (by simp [namesFrom])
    rw [List.eq_nil_iff_forall_not_mem]
    intro name hname
    rw [(hrows j).mem_iff, ModuleSource.layer_eq_empty hempty hj] at hname
    exact hname
  | @fail row modules f _ hresult =>
    subst hrow
    rcases loadLayer_cases source (rows k) modules with
      ⟨modules', hload, -⟩ | ⟨before, bad, after, f', hsplit, hbefore, hbad, hload⟩
    · rw [hload] at hresult
      cases hresult
    · rw [hload] at hresult ⊢
      cases hresult
      exact Follows.upTo (n := 0) hsplit hbefore hbad hbad.message
  | @next row modules modules' after _ hresult _ ih =>
    subst hrow
    rcases loadLayer_cases source (rows k) modules with
      ⟨modules'', hload, hall⟩ | ⟨before, bad, rest, f, -, -, -, hload⟩
    · have hat' := hat.succ (hrows k) hresult
      have hnext := (hat'.listsInOrder_nextLayer (hrows k)).unique (hrows (k + 1))
      rw [hload]
      exact (ih hnext hat').cons hall
    · rw [hload] at hresult
      cases hresult

/-- The rows of layers have no name in common. -/
theorem nodup_namesFrom (hrows : ∀ k, ListsInOrder (rows k) (source.layer seeds k)) (k n : ℕ) :
    (namesFrom rows k n).Nodup := by
  rw [namesFrom, List.nodup_flatMap]
  refine ⟨fun j _ => (hrows j).sorted.nodup, ?_⟩
  refine (List.pairwise_lt_range' 1 Nat.one_pos).imp ?_
  intro i j hij name hi hj
  rw [(hrows i).mem_iff] at hi
  rw [(hrows j).mem_iff] at hj
  exact ModuleSource.not_mem_layer_of_lt hij hi hj

theorem Follows.nodup (hrows : ∀ k, ListsInOrder (rows k) (source.layer seeds k))
    (h : Follows source rows k loading) : loading.loads.Nodup := by
  cases h with
  | toTheEnd => exact nodup_namesFrom hrows k _
  | @upTo n before after bad f hsplit =>
    have hlast : namesFrom rows k (n + 1) = namesFrom rows k n ++ before ++ bad :: after := by
      rw [namesFrom, List.range'_1_concat, List.flatMap_append, List.flatMap_singleton, hsplit, namesFrom,
        List.append_assoc]
    have hlookUps : (lookUpsOf bad).Sublist (bad :: after) := by
      rw [lookUpsOf]
      split
      · exact List.nil_sublist _
      · exact (List.nil_sublist after).cons_cons bad
    refine List.Nodup.sublist ?_ (nodup_namesFrom hrows k (n + 1))
    rw [hlast]
    exact (List.Sublist.refl _).append hlookUps

/-- **A closure is loaded layer by layer.**  The names are looked up in the order of the layers, in each
layer in the order of bytes, and each name once, up to the first one that is refused; then the fault is
about this name. -/
theorem closure_follows_layers (source : ModuleSource) (seeds : List String) :
    ∃ rows : ℕ → List String, (∀ k, ListsInOrder (rows k) (source.layer seeds k)) ∧
      (closure source seeds).loads.Nodup ∧ Follows source rows 0 (closure source seeds) := by
  choose rows hrows using fun k => exists_listsInOrder (source.finite_layer seeds k)
  have hseeds : ListsInOrder (sortedNames (seeds.map Text.trim)) (source.layer seeds 0) := by
    refine ⟨byteSorted_keys _, fun name => ?_⟩
    rw [mem_sortedNames, ModuleSource.mem_layer_zero]
  have hfollows : Follows source rows 0 (closure source seeds) :=
    (closure_rounds source seeds).follows hrows (hseeds.unique (hrows 0)) (atLayer_zero source seeds)
  exact ⟨rows, hrows, hfollows.nodup hrows, hfollows⟩

-- a name that is required on the way is looked up once, and a refused name ends the layer
example :
    let library := fun name requires : _ => Except.ok ⟨name, ⟨"m"⟩, requires, [], .library []⟩
    (closure (collectionSource (Dict.ofList
      [("a", library "a" ["d", "b"]), ("b", library "b" ["a", "e"]), ("d", library "c" [])]))
      [" a", "a"]).loads = ["a", "b", "d"] := by
  decide +kernel

end Boardwright
