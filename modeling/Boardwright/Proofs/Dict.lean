import Boardwright.Closure
import Mathlib.Data.List.Nodup
import Mathlib.Data.List.Perm.Subperm

/-!
# Keys of dictionaries

What the keys of a dictionary are after its operations, and that they are distinct.  Together with
the laws about `get?` beside the definitions, nothing else about the entries of a dictionary is
needed.

* **`get?_ofList_eq_some_iff`**: what a dictionary that is made from pairs has for a key.
* **`forall_get?_ofList_iff`**: when it has all the pairs.
-/

namespace Boardwright.Dict

variable {α : Type} {d : Dict α} {k q : String} {v : α}

/-- Every key of an entry list has a value. -/
theorem exists_findValue?_of_mem {l : List (String × α)} (h : k ∈ l.map (·.1)) :
    ∃ v, findValue? k l = some v := by
  induction l with
  | nil => simp at h
  | cons e rest ih =>
    by_cases he : k = e.1
    · exact ⟨e.2, by rw [findValue?, if_pos he]⟩
    · obtain ⟨v, hv⟩ := ih (by simpa [he] using h)
      exact ⟨v, by rw [findValue?, if_neg he, hv]⟩

theorem mem_keys_iff : k ∈ d.keys ↔ ∃ v, d.get? k = some v :=
  ⟨exists_findValue?_of_mem, fun ⟨_, h⟩ => mem_keys_of_get? h⟩

theorem get?_of_mem_entries (h : (k, v) ∈ d.entries) : d.get? k = some v := by
  obtain ⟨entries, hincreasing⟩ := d
  show findValue? k entries = some v
  induction entries with
  | nil => simp at h
  | cons e rest ih =>
    obtain ⟨hfirst, hrest⟩ := List.pairwise_cons.1 hincreasing
    rcases List.mem_cons.1 h with rfl | hmem
    · rw [findValue?, if_pos rfl]
    · have hne : k ≠ e.1 := fun hk => String.lt_irrefl _ (hk ▸ hfirst (k, v) hmem)
      rw [findValue?, if_neg hne]
      exact ih hrest hmem

theorem exists_of_mem_values (h : v ∈ d.values) : ∃ k, d.get? k = some v := by
  obtain ⟨e, he, rfl⟩ := List.mem_map.1 h
  exact ⟨e.1, get?_of_mem_entries he⟩

theorem contains_iff : d.contains k = true ↔ k ∈ d.keys := by
  rw [contains, mem_keys_iff, Option.isSome_iff_exists]

@[simp] theorem keys_empty : (empty : Dict α).keys = [] := rfl

theorem mem_keys_insert : q ∈ (d.insert k v).keys ↔ q = k ∨ q ∈ d.keys := by
  rw [mem_keys_iff, mem_keys_iff, get?_insert]
  by_cases h : q = k
  · simp [h]
  · simp [h]

theorem nodup_keys (d : Dict α) : d.keys.Nodup := by
  rw [keys, List.Nodup, List.pairwise_map]
  refine d.increasing.imp ?_
  intro a b hab heq
  exact String.lt_irrefl _ (heq ▸ hab)

theorem mem_keys_foldl_insert (l : List (String × α)) (d : Dict α) :
    q ∈ (l.foldl (fun d e => d.insert e.1 e.2) d).keys ↔ q ∈ d.keys ∨ q ∈ l.map (·.1) := by
  induction l generalizing d with
  | nil => simp
  | cons e l ih =>
    rw [List.foldl_cons, ih, mem_keys_insert, List.map_cons, List.mem_cons]
    tauto

theorem mem_keys_ofList {l : List (String × α)} : q ∈ (ofList l).keys ↔ q ∈ l.map (·.1) := by
  rw [ofList, mem_keys_foldl_insert]
  simp

/-! ### Lists of pairs -/

/-- The list has the pair, and behind it no other one with its key. -/
def LastIn (l : List (String × α)) (q : String) (v : α) : Prop :=
  ∃ before after, l = before ++ (q, v) :: after ∧ ∀ e ∈ after, e.1 ≠ q

theorem get?_foldl_insert_of_forall_ne {l : List (String × α)} {d : Dict α} (h : ∀ e ∈ l, e.1 ≠ q) :
    (l.foldl (fun d e => d.insert e.1 e.2) d).get? q = d.get? q := by
  induction l generalizing d with
  | nil => rfl
  | cons e l ih =>
    obtain ⟨he, hl⟩ := List.forall_mem_cons.1 h
    rw [List.foldl_cons, ih hl, get?_insert_of_ne _ _ (Ne.symm he)]

theorem LastIn.mem {l : List (String × α)} (h : LastIn l q v) : (q, v) ∈ l := by
  obtain ⟨before, after, rfl, -⟩ := h
  simp

theorem LastIn.get?_ofList {l : List (String × α)} (h : LastIn l q v) : (ofList l).get? q = some v := by
  obtain ⟨before, after, rfl, hafter⟩ := h
  rw [ofList, List.foldl_append, List.foldl_cons, get?_foldl_insert_of_forall_ne hafter, get?_insert_self]

/-- A key that is listed has a last pair. -/
theorem exists_lastIn {l : List (String × α)} (h : q ∈ l.map (·.1)) : ∃ v, LastIn l q v := by
  induction l with
  | nil => simp at h
  | cons e l ih =>
    by_cases hl : q ∈ l.map (·.1)
    · obtain ⟨v, before, after, rfl, hafter⟩ := ih hl
      exact ⟨v, e :: before, after, rfl, hafter⟩
    · have he : e.1 = q := by
        rcases List.mem_cons.1 h with heq | hmem
        · exact heq.symm
        · exact absurd hmem hl
      refine ⟨e.2, [], l, by rw [← he]; rfl, ?_⟩
      intro other hother heq
      exact hl (heq ▸ List.mem_map_of_mem hother)

/-- Of the pairs with one key the last one counts. -/
theorem get?_ofList_eq_some_iff {l : List (String × α)} :
    (ofList l).get? q = some v ↔ LastIn l q v := by
  constructor
  · intro h
    have hkey : q ∈ l.map (·.1) := mem_keys_ofList.1 (mem_keys_iff.2 ⟨v, h⟩)
    obtain ⟨w, hlast⟩ := exists_lastIn hkey
    rw [hlast.get?_ofList] at h
    cases h
    exact hlast
  · exact LastIn.get?_ofList

theorem mem_of_get?_ofList {l : List (String × α)} (h : (ofList l).get? q = some v) : (q, v) ∈ l :=
  (get?_ofList_eq_some_iff.1 h).mem

/-- No pair is lost if and only if pairs with one key have one value. -/
theorem forall_get?_ofList_iff {l : List (String × α)} :
    (∀ e ∈ l, (ofList l).get? e.1 = some e.2) ↔ ∀ e ∈ l, ∀ e' ∈ l, e.1 = e'.1 → e.2 = e'.2 := by
  constructor
  · intro h e he e' he' heq
    have hfirst := h e he
    rw [heq, h e' he'] at hfirst
    exact (Option.some.inj hfirst).symm
  · intro h e he
    obtain ⟨v, hlast⟩ := exists_lastIn (List.mem_map_of_mem (f := (·.1)) he)
    rw [hlast.get?_ofList, h e he _ hlast.mem rfl]

/-! ### Sizes -/

/-- A dictionary with the keys of another one and at least one more is longer. -/
theorem length_keys_lt {d' : Dict α} (hsub : ∀ q ∈ d.keys, q ∈ d'.keys) (hk : k ∈ d'.keys)
    (hnot : k ∉ d.keys) : d.keys.length < d'.keys.length := by
  have hcons : (k :: d.keys).Nodup := List.nodup_cons.2 ⟨hnot, d.nodup_keys⟩
  have hle := (hcons.subperm (List.cons_subset.2 ⟨hk, hsub⟩)).length_le
  rwa [List.length_cons] at hle

end Boardwright.Dict
