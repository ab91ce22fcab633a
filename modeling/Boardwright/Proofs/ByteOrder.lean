import Boardwright.Proofs.Dict
import Mathlib.Tactic.SplitIfs

/-!
# The order of bytes

Dictionaries list their keys by code points.  In UTF-8 the first byte of a character says how many bytes
there are, and more bytes belong to greater characters; so the order of code points is the order of the
bytes, and what a dictionary lists is in the order of bytes.

* **`Text.bytes`**: the bytes of a text.
* **`Text.bytes_lt`**: texts are ordered as their bytes are.
* **`ByteSorted`**: names in the order of their bytes, each once; **`ByteSorted.eq_of_mem_iff`**: they are
  determined by what is among them.
-/

namespace Boardwright

namespace Text

open String

/-- The bytes of a text. -/
def bytes (s : String) : List UInt8 := s.toUTF8.data.toList

theorem bytes_eq (s : String) : bytes s = s.toList.flatMap utf8EncodeChar := by
  have hs : s = String.ofList s.toList := String.ofList_toList.symm
  rw [bytes, toUTF8_eq_toByteArray, hs, String.toByteArray_ofList, String.toList_ofList]
  simp [List.utf8Encode]

theorem utf8EncodeChar_ne_nil (c : Char) : utf8EncodeChar c ≠ [] := by
  simp only [utf8EncodeChar]
  split_ifs <;> exact List.cons_ne_nil _ _

/-- A smaller character has smaller bytes, whatever follows it. -/
theorem utf8EncodeChar_append_lt {c d : Char} (h : c < d) (x y : List UInt8) :
    utf8EncodeChar c ++ x < utf8EncodeChar d ++ y := by
  have hlt : c.val.toNat < d.val.toNat := h
  have hbound : d.val.toNat < 0x110000 := by
    rcases d.valid with hd | hd
    · omega
    · omega
  simp only [utf8EncodeChar]
  generalize c.val.toNat = m at *
  generalize d.val.toNat = n at *
  -- the bytes are digits to the base 64, and each is taken from the ones below it
  have hsecond : ∀ v : ℕ, v / 4096 = v / 64 / 64 := fun v => by rw [Nat.div_div_eq_div_mul]
  have hthird : ∀ v : ℕ, v / 262144 = v / 64 / 64 / 64 := fun v => by
    rw [Nat.div_div_eq_div_mul, Nat.div_div_eq_div_mul]
  simp only [hsecond, hthird]
  split_ifs <;>
    simp only [List.cons_append, List.nil_append, List.cons_lt_cons_iff, UInt8.lt_iff_toNat_lt,
      UInt8.toNat_ofNat', ← UInt8.toNat_inj] <;>
    omega

theorem flatMap_utf8EncodeChar_lt {cs ds : List Char} (h : cs < ds) :
    cs.flatMap utf8EncodeChar < ds.flatMap utf8EncodeChar := by
  induction h with
  | @nil d ds =>
    rw [List.flatMap_nil, List.flatMap_cons]
    cases hd : utf8EncodeChar d with
    | nil => exact absurd hd (utf8EncodeChar_ne_nil d)
    | cons byte rest => exact List.nil_lt_cons _ _
  | rel hcd =>
    rw [List.flatMap_cons, List.flatMap_cons]
    exact utf8EncodeChar_append_lt hcd _ _
  | cons _ ih =>
    rw [List.flatMap_cons, List.flatMap_cons]
    exact List.append_left_lt ih

/-- Texts are ordered as their bytes are. -/
theorem bytes_lt {a b : String} (h : a < b) : bytes a < bytes b := by
  rw [bytes_eq, bytes_eq]
  exact flatMap_utf8EncodeChar_lt (String.lt_iff.1 h)

end Text

/-- Names in the order of their bytes, each once. -/
def ByteSorted (names : List String) : Prop :=
  names.Pairwise fun a b => Text.bytes a < Text.bytes b

theorem byteSorted_keys {α : Type} (d : Dict α) : ByteSorted d.keys := by
  rw [ByteSorted, Dict.keys, List.pairwise_map]
  exact d.increasing.imp Text.bytes_lt

theorem ByteSorted.nodup {names : List String} (h : ByteSorted names) : names.Nodup := by
  refine h.imp ?_
  intro a b hab heq
  exact List.lt_irrefl _ (heq ▸ hab)

/-- There is one way to sort. -/
theorem ByteSorted.eq_of_mem_iff {names others : List String} (h : ByteSorted names)
    (h' : ByteSorted others) (hmem : ∀ name, name ∈ names ↔ name ∈ others) : names = others := by
  have hperm : names.Perm others := (List.perm_ext_iff_of_nodup h.nodup h'.nodup).2 hmem
  exact hperm.eq_of_pairwise (fun a b _ _ hab hba => absurd hba (List.lt_asymm hab)) h h'

end Boardwright
