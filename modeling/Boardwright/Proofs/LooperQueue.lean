import Boardwright.Proofs.LooperSection
import Mathlib.Data.List.Nodup

/-!
# The queue of loopers

Beside the table the program has an array of its rows, by the times of their first calls.  A looper that
is missing from it would never be called, and one that occurs twice would be called twice as often.

* **`Precedes`**: which of two loopers is called first.
* **`byDelay_perm`**, **`byDelay_pairwise`**: the array has every looper once, and those called first
  come first.
* **`ShowsQueue`**: a section with the rows and the array in their places.
* **`queue_sorted_by_delay`**: the section of any loopers shows them so.
-/

namespace Boardwright.Generation

open StoredTemplate

variable {records : List LooperRecord}

/-! ### Order -/

/-- A looper is called before another one: its first delay is shorter, or it is the same and the number
is smaller. -/
def Precedes (records : List LooperRecord) (i j : ℕ) : Prop :=
  ∃ r s, records[i]? = some r ∧ records[j]? = some s ∧
    (r.initialDelay < s.initialDelay ∨ r.initialDelay = s.initialDelay ∧ i < j)

instance (records : List LooperRecord) : DecidableRel (Precedes records) := fun i j =>
  decidable_of_iff
    (∃ r ∈ records[i]?, ∃ s ∈ records[j]?,
      r.initialDelay < s.initialDelay ∨ r.initialDelay = s.initialDelay ∧ i < j)
    (by simp only [Precedes, Option.mem_def, exists_and_left])

theorem Precedes.asymm {i j : ℕ} (h : Precedes records i j) : ¬ Precedes records j i := by
  rintro ⟨s', r', hs', hr', hback⟩
  obtain ⟨r, s, hr, hs, horder⟩ := h
  cases hr.symm.trans hr'
  cases hs.symm.trans hs'
  omega

/-- There is only one order in which the loopers can be listed. -/
theorem eq_of_pairwise_precedes {order order' : List ℕ} (h : order.Pairwise (Precedes records))
    (h' : order'.Pairwise (Precedes records)) (hperm : order.Perm order') : order = order' :=
  hperm.eq_of_pairwise (fun _ _ _ _ hab hba => absurd hba hab.asymm) h h'

theorem delaysFrom_eq (i : ℕ) (records : List LooperRecord) :
    delaysFrom i records = (records.zipIdx i).map fun r => (r.1.initialDelay, r.2) := by
  induction records generalizing i with
  | nil => rfl
  | cons r rest ih => rw [delaysFrom, ih, List.zipIdx_cons, List.map_cons]

theorem getElem?_delaysFrom (i k : ℕ) (records : List LooperRecord) :
    (delaysFrom i records)[k]? = records[k]?.map fun r => (r.initialDelay, i + k) := by
  rw [delaysFrom_eq, List.getElem?_map, List.getElem?_zipIdx, Option.map_map]
  rfl

/-- The array has the number of every looper once. -/
theorem byDelay_perm (records : List LooperRecord) : (byDelay records).Perm (List.range records.length) := by
  have hnumbers : (delaysFrom 0 records).map (·.2) = List.range records.length := by
    rw [delaysFrom_eq, List.map_map, List.range_eq_range', ← List.zipIdx_map_snd]
    rfl
  rw [← hnumbers]
  exact (List.mergeSort_perm _ _).map _

/-- Sorting by the delays alone keeps loopers with equal delays in the order of their numbers. -/
theorem pairwise_sorted_delays (records : List LooperRecord) :
    ((delaysFrom 0 records).mergeSort fun a b => decide (a.1 ≤ b.1)).Pairwise fun a b =>
      a.1 < b.1 ∨ a.1 = b.1 ∧ a.2 ≤ b.2 := by
  have htrans : ∀ a b c : ℤ × ℕ, decide (a.1 ≤ b.1) = true → decide (b.1 ≤ c.1) = true →
      decide (a.1 ≤ c.1) = true := by
    intro a b c hab hbc
    exact decide_eq_true (Int.le_trans (of_decide_eq_true hab) (of_decide_eq_true hbc))
  have htotal : ∀ a b : ℤ × ℕ, (decide (a.1 ≤ b.1) || decide (b.1 ≤ a.1)) = true := by
    intro a b
    rw [Bool.or_eq_true, decide_eq_true_eq, decide_eq_true_eq]
    exact Int.le_total a.1 b.1
  -- the numbers are the places in the list that is sorted, and sorting is stable in these
  have hplace : ∀ x ∈ (delaysFrom 0 records).zipIdx, x.1.2 = x.2 := by
    intro x hx
    have hget : (delaysFrom 0 records)[x.2]? = some x.1 := List.mem_zipIdx_iff_getElem?.1 hx
    rw [getElem?_delaysFrom, Nat.zero_add] at hget
    obtain ⟨r, -, hr⟩ := Option.map_eq_some_iff.1 hget
    rw [← hr]
  have hstable := List.pairwise_mergeSort (List.zipIdxLE_trans htrans) (List.zipIdxLE_total htotal)
    (delaysFrom 0 records).zipIdx
  rw [← List.mergeSort_zipIdx, List.pairwise_map]
  refine hstable.imp_of_mem ?_
  intro a b ha hb hab
  rw [hplace a (List.mem_mergeSort.1 ha), hplace b (List.mem_mergeSort.1 hb)]
  simp only [List.zipIdxLE, decide_eq_true_eq] at hab
  split at hab
  · next hle =>
    split at hab
    · next hge => exact .inr ⟨Int.le_antisymm hle hge, of_decide_eq_true hab⟩
    · next hge => exact .inl (Int.not_le.1 hge)
  · cases hab

/-- Of two loopers in the array, the one that is called first comes first. -/
theorem byDelay_pairwise (records : List LooperRecord) : (byDelay records).Pairwise (Precedes records) := by
  have hnodup : (byDelay records).Nodup := (byDelay_perm records).nodup_iff.2 List.nodup_range
  rw [byDelay, List.Nodup, List.pairwise_map] at hnodup
  rw [byDelay, List.pairwise_map]
  have hmem : ∀ x ∈ (delaysFrom 0 records).mergeSort fun a b => decide (a.1 ≤ b.1),
      ∃ r, records[x.2]? = some r ∧ r.initialDelay = x.1 := by
    intro x hx
    rw [List.mem_mergeSort, List.mem_iff_getElem?] at hx
    obtain ⟨k, hk⟩ := hx
    rw [getElem?_delaysFrom, Nat.zero_add] at hk
    obtain ⟨r, hr, rfl⟩ := Option.map_eq_some_iff.1 hk
    exact ⟨r, hr, rfl⟩
  refine ((pairwise_sorted_delays records).and hnodup).imp_of_mem ?_
  rintro a b ha hb ⟨hle, hne⟩
  obtain ⟨r, hr, hrdelay⟩ := hmem a ha
  obtain ⟨s, hs, hsdelay⟩ := hmem b hb
  refine ⟨r, s, hr, hs, ?_⟩
  rw [hrdelay, hsdelay]
  exact hle.imp_right fun hequal => ⟨hequal.1, Nat.lt_of_le_of_ne hequal.2 hne⟩

/-! ### Rows -/

theorem length_rowsFrom (i : ℕ) (records : List LooperRecord) :
    (rowsFrom i records).length = records.length := by
  induction records generalizing i with
  | nil => rfl
  | cons r rest ih => rw [rowsFrom, List.length_cons, List.length_cons, ih]

/-- A row ends in a comma if another one follows. -/
theorem getElem?_rowsFrom {k : ℕ} {r : LooperRecord} (i : ℕ) (hr : records[k]? = some r) :
    (rowsFrom i records)[k]? = some ((⟨r.initialDelay, handlerName (i + k)⟩ : TableRow).text ++
      if k + 1 < records.length then "," else "") := by
  induction records generalizing i k with
  | nil => cases hr
  | cons first rest ih =>
    cases k with
    | zero =>
      cases hr
      cases rest with
      | nil => simp [rowsFrom, TableRow.text]
      | cons next rest => simp [rowsFrom, TableRow.text]
    | succ k =>
      have hnumber : i + 1 + k = i + (k + 1) := by omega
      rw [rowsFrom, List.getElem?_cons_succ, ih (i + 1) hr, hnumber, List.length_cons]
      simp only [Nat.add_lt_add_iff_right]

/-! ### The section -/

/-- A section with the rows of the table and the array in their places. -/
def ShowsQueue (rows : List String) (order : List ℕ) (text : String) : Prop :=
  ∃ lead trail, text = ended "\r\n"
    (lead ++ ["Looper loopers[LOOPERS_COUNT] = \x7b " ++ Text.mergeLines rows Template.indent ++ " \x7d;",
      "Looper* pq[LOOPERS_COUNT] = " ++ queueText order ++ ";"] ++ trail)

theorem showsQueue_looperSection (hne : records ≠ []) (ns : String) :
    ShowsQueue (rowsFrom 0 records) (byDelay records) (looperSection records ns) := by
  obtain ⟨lead, between, trail, hsection⟩ := exists_looperSection hne ns
  refine ⟨lead ++ ["// Generated looper handlers", functionsText (looperFunctions 0 records),
    "// End of looper handlers"] ++ between ++ ["#define LOOPERS_COUNT " ++ toString records.length],
    trail, ?_⟩
  rw [hsection]
  simp only [List.append_assoc, List.cons_append, List.nil_append]

/-- **The queue is sorted by the delays.**  The section of any loopers shows their rows and an array
with the number of every looper once.  The array goes by the first delays, and loopers with equal delays
come in the order of their numbers.  Every row but the last ends in a comma. -/
theorem queue_sorted_by_delay (hne : records ≠ []) (ns : String) :
    ∃ (rows : List String) (order : List ℕ), ShowsQueue rows order (looperSection records ns) ∧
      order.Perm (List.range records.length) ∧ order.Pairwise (Precedes records) ∧
      rows.length = records.length ∧
      ∀ k r, records[k]? = some r →
        rows[k]? = some ("\x7b" ++ toString r.initialDelay ++ ", ENABLED, " ++ handlerName k ++ "\x7d" ++
          if k + 1 < records.length then "," else "") := by
  refine ⟨rowsFrom 0 records, byDelay records, showsQueue_looperSection hne ns, byDelay_perm records,
    byDelay_pairwise records, length_rowsFrom 0 records, ?_⟩
  intro k r hr
  rw [getElem?_rowsFrom 0 hr, Nat.zero_add]
  rfl

def chimes : List LooperRecord :=
  [⟨"chime", "strike", some 1, 30⟩, ⟨"chime", "ring", some 1, 10⟩, ⟨"chime", "hum", some 1, 30⟩,
    ⟨"chime", "rest", none, 0⟩]

/-- Two of the delays are the same. -/
theorem queue_of_chimes :
    ∃ rows : List String, ShowsQueue rows [3, 1, 0, 2] (looperSection chimes "acp") ∧
      rows[2]? = some "\x7b30, ENABLED, looper_handler_2\x7d," ∧
      rows[3]? = some "\x7b0, ENABLED, looper_handler_3\x7d" := by
  have hne : chimes ≠ [] := List.cons_ne_nil _ _
  obtain ⟨rows, order, hshows, hperm, hpairwise, -, hrows⟩ := queue_sorted_by_delay hne "acp"
  obtain rfl : order = [3, 1, 0, 2] :=
    eq_of_pairwise_precedes hpairwise (by decide) (hperm.trans (by decide))
  exact ⟨rows, hshows, hrows 2 _ rfl, hrows 3 _ rfl⟩

end Boardwright.Generation
