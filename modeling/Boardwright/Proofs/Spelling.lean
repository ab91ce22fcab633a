import Boardwright.Board.Literal
import Boardwright.Proofs.Declarations
import Boardwright.Proofs.Numerals

/-!
# How numbers, pins and ports are spelled

A board reads a number into a word of 32 or 64 bits, and a number that does not fit is refused before it
is compared with anything.  Here the accepted texts are described by their characters and by the number
they stand for, however large it is.  The words are wide enough for every bound that a number is
compared with, so nothing is lost.

* **`IntegerType.Fits`**: the numbers that fit into the bytes of a type.
* **`IndexBelow`**, **`AnalogPinBelow`**, **`PortBelow`**: indices of pins and ports below a bound.
* **`Board.Spells`**: how numbers, pins, interrupts and ports are written.
* **`accepts_iff_spells`**: a board accepts exactly what is written like this.
-/

namespace Boardwright

open Text (Digits Numeral)

variable {b : Board} {cs digits : List Char} {count : UInt32} {i : IntegerType} {n : ℤ} {m : ℕ}
    {type v : String}
  {t : ValueType}

/-! ### Whole numbers -/

/-- The numbers that fit into the bytes of a type, in two's complement if it is signed. -/
def IntegerType.Fits (i : IntegerType) (n : ℤ) : Prop :=
  if i.signed then -2 ^ (8 * i.bytes - 1) ≤ n ∧ n < 2 ^ (8 * i.bytes - 1)
  else 0 ≤ n ∧ n < 2 ^ (8 * i.bytes)

theorem IntegerType.fits_iff : i.Fits n ↔ i.least ≤ n ∧ n ≤ i.greatest := by
  have hpow : ∀ k : ℕ, ((Nat.pow 2 k : ℕ) : ℤ) = 2 ^ k := by
    intro k
    show ((2 ^ k : ℕ) : ℤ) = 2 ^ k
    push_cast
    rfl
  rw [Fits, least, greatest, Nat.mul_comm i.bytes, hpow, hpow]
  split
  · rw [Int.le_sub_one_iff]
  · rw [Int.le_sub_one_iff]

instance (i : IntegerType) (n : ℤ) : Decidable (i.Fits n) :=
  decidable_of_iff (i.least ≤ n ∧ n ≤ i.greatest) IntegerType.fits_iff.symm

theorem bytes_le_four (htype : ValueType.ofName? type = some (.integer i)) : i.bytes ≤ 4 := by
  have hrows : ∀ row ∈ ValueType.table, row.2.size ≤ 4 := by decide
  exact hrows _ (Storage.mem_table_of_ofName? htype)

theorem IntegerType.Fits.bounds (h : i.Fits n) (hbytes : i.bytes ≤ 4) : -4294967296 ≤ n ∧ n ≤ 4294967295 := by
  have hpow : ∀ k ≤ 32, (2 : ℤ) ^ k ≤ 2 ^ 32 := fun k hk => pow_le_pow_right₀ (by decide) hk
  have hsigned := hpow (8 * i.bytes - 1) (by omega)
  have hunsigned := hpow (8 * i.bytes) (by omega)
  rw [Fits] at h
  split at h
  · omega
  · omega

/-- Every number of a type with at most four bytes is a number of 64 bits. -/
theorem IntegerType.Fits.int64 (h : i.Fits n) (hbytes : i.bytes ≤ 4) :
    Text.int64Min ≤ n ∧ n ≤ Text.int64Max := by
  have hbounds := h.bounds hbytes
  rw [Text.int64Min, Text.int64Max]
  omega

theorem int64?_eq_some_iff : Text.int64? (String.ofList cs) = some n ↔
    Numeral cs n ∧ Text.int64Min ≤ n ∧ n ≤ Text.int64Max := by
  rw [Text.int64?, Option.filter_eq_some_iff, String.toList_ofList, Text.integer?_eq_some_iff,
    Bool.and_eq_true, decide_eq_true_eq, decide_eq_true_eq]

/-! ### Indices -/

/-- The text is one decimal digit or more, of a number below a bound. -/
def IndexBelow (bound : ℕ) (cs : List Char) : Prop :=
  ∃ m < bound, cs ≠ [] ∧ Digits 10 cs m

theorem index?_eq_some_iff :
    Text.index? cs = some m ↔ (cs ≠ [] ∧ Digits 10 cs m) ∧ m < Text.word32Bound := by
  rw [Text.index?, Option.filter_eq_some_iff, Text.natural?_eq_some_iff, decide_eq_true_eq]

/-- An index that is too large for 32 bits is not below any count of 32 bits. -/
theorem isIndexBelow_iff : isIndexBelow cs count = true ↔ IndexBelow count.toNat cs := by
  have hcount : count.toNat < Text.word32Bound := count.toNat_lt
  unfold isIndexBelow
  constructor
  · intro h
    split at h
    · next m hm => exact ⟨m, of_decide_eq_true h, (index?_eq_some_iff.1 hm).1⟩
    · cases h
  · intro h
    obtain ⟨m, hm, hdigits⟩ := h
    rw [index?_eq_some_iff.2 ⟨hdigits, hm.trans hcount⟩]
    exact decide_eq_true hm

/-- The text is the letter `A` and an index below a bound. -/
def AnalogPinBelow (bound : ℕ) (cs : List Char) : Prop :=
  ∃ digits, cs = 'A' :: digits ∧ IndexBelow bound digits

theorem isAnalogPin_iff : isAnalogPin cs count = true ↔ AnalogPinBelow count.toNat cs := by
  unfold isAnalogPin AnalogPinBelow
  split
  · rw [isIndexBelow_iff]
    simp
  · next hother =>
    simp only [Bool.false_eq_true, false_iff]
    intro h
    obtain ⟨digits, rfl, -⟩ := h
    exact hother digits rfl

/-! ### Ports -/

/-- The text is `Serial` for port zero, or `Serial` and the digits of another port, without leading
zeros. -/
def PortBelow (bound : ℕ) (cs : List Char) : Prop :=
  cs = "Serial".toList ∧ 0 < bound ∨
    ∃ digits, cs = "Serial".toList ++ digits ∧ digits.head? ≠ some '0' ∧
      ∃ m < bound, 1 ≤ m ∧ digits ≠ [] ∧ Digits 10 digits m

/-- Digits without a leading zero stand for a positive number. -/
theorem pos_of_digits (hne : digits ≠ []) (hzero : digits.head? ≠ some '0') (h : Digits 10 digits m) :
    0 < m := by
  obtain ⟨ds, -, rfl, rfl⟩ := h
  rw [Nat.pos_iff_ne_zero]
  intro hm
  -- if the number were zero, so would be its first digit
  cases ds with
  | nil => exact hne rfl
  | cons d ds =>
    have hd : d = 0 := Nat.digits_zero_of_eq_zero (by decide) hm d (by simp)
    rw [hd] at hzero
    exact hzero rfl

/-- The number of a port: nothing behind its name, or digits that do not begin with a zero. -/
theorem serialNumber?_eq_some_iff : serialNumber? cs = some m ↔
    cs = "Serial".toList ∧ m = 0 ∨
      ∃ digits, cs = "Serial".toList ++ digits ∧ digits.head? ≠ some '0' ∧ Text.index? digits = some m := by
  have hname : "Serial".toList = ['S', 'e', 'r', 'i', 'a', 'l'] := rfl
  rw [hname]
  constructor
  · intro h
    unfold serialNumber? at h
    split at h
    · next rest =>
      split at h
      · cases h
        exact .inl ⟨rfl, rfl⟩
      · next c tail =>
        rw [Option.ite_none_left_eq_some] at h
        refine .inr ⟨c :: tail, rfl, ?_, h.2⟩
        rw [List.head?_cons, ne_eq, Option.some.injEq]
        exact h.1
    · cases h
  · intro h
    rcases h with ⟨rfl, rfl⟩ | ⟨digits, rfl, hzero, hm⟩
    · rfl
    · cases digits with
      | nil => cases hm
      | cons c tail =>
        have hc : c ≠ '0' := fun hc => hzero (congrArg some hc)
        show (if c = '0' then none else Text.index? (c :: tail)) = some m
        rw [if_neg hc, hm]

theorem acceptsPresent_serial_iff :
    b.acceptsPresent .hardwareSerial cs = true ↔ PortBelow b.hardwareSerials.toNat cs := by
  have hcount : b.hardwareSerials.toNat < Text.word32Bound := b.hardwareSerials.toNat_lt
  have hread : b.acceptsPresent .hardwareSerial cs = true ↔
      ∃ m, serialNumber? cs = some m ∧ m < b.hardwareSerials.toNat := by
    rw [Board.acceptsPresent]
    cases serialNumber? cs with
    | none => simp
    | some m => simp
  simp only [hread, serialNumber?_eq_some_iff, index?_eq_some_iff, PortBelow]
  constructor
  · intro h
    rcases h with ⟨m, ⟨hcs, rfl⟩ | ⟨digits, hcs, hzero, hdigits, -⟩, hm⟩
    · exact .inl ⟨hcs, hm⟩
    · exact .inr ⟨digits, hcs, hzero, m, hm, pos_of_digits hdigits.1 hzero hdigits.2, hdigits⟩
  · intro h
    rcases h with ⟨hcs, hm⟩ | ⟨digits, hcs, hzero, m, hm, -, hdigits⟩
    · exact ⟨0, .inl ⟨hcs, rfl⟩, hm⟩
    · exact ⟨m, .inr ⟨digits, hcs, hzero, hdigits, hm.trans hcount⟩, hm⟩

/-! ### Values on a board -/

/-- The types whose values have a number in them. -/
def ValueType.hasNumber : ValueType → Bool
  | .integer _ | .analogPin | .digitalPin | .pin | .interrupt | .hardwareSerial => true
  | _ => false

/-- How values with a number in them are written on a board. -/
def Board.Spells (b : Board) : ValueType → List Char → Prop
  | .integer i, cs => ∃ n, Numeral cs n ∧ i.Fits n
  | .digitalPin, cs => IndexBelow b.digitalPins.toNat cs
  | .interrupt, cs => IndexBelow b.interrupts.toNat cs
  | .analogPin, cs => AnalogPinBelow b.analogPins.toNat cs
  | .pin, cs => AnalogPinBelow b.analogPins.toNat cs ∨ IndexBelow b.digitalPins.toNat cs
  | .hardwareSerial, cs => PortBelow b.hardwareSerials.toNat cs
  | _, _ => False

theorem acceptsPresent_integer_iff (hbytes : i.bytes ≤ 4) :
    b.acceptsPresent (.integer i) cs = true ↔ ∃ n, Numeral cs n ∧ i.Fits n := by
  have hread : b.acceptsPresent (.integer i) cs = true ↔
      ∃ n, Text.int64? (String.ofList cs) = some n ∧ i.least ≤ n ∧ n ≤ i.greatest := by
    rw [Board.acceptsPresent]
    cases Text.int64? (String.ofList cs) with
    | none => simp
    | some n => simp
  simp only [hread, int64?_eq_some_iff, ← IntegerType.fits_iff]
  constructor
  · intro h
    obtain ⟨n, ⟨hnumeral, -⟩, hfits⟩ := h
    exact ⟨n, hnumeral, hfits⟩
  · intro h
    obtain ⟨n, hnumeral, hfits⟩ := h
    exact ⟨n, ⟨hnumeral, hfits.int64 hbytes⟩, hfits⟩

/-- The value of a type that is not a text is checked without the blanks around it. -/
theorem accepts_eq_acceptsPresent (htype : ValueType.ofName? type = some t) (hstring : t ≠ .string)
    (hflash : t ≠ .flashString) : b.accepts type (some v) = b.acceptsPresent t (Text.trim v).toList := by
  rw [Board.accepts, htype, Text.trim, String.toList_ofList]
  cases t with
  | string => exact absurd rfl hstring
  | flashString => exact absurd rfl hflash
  | _ => rfl

/-- **Values are accepted by their spelling.**  A number, a pin, an interrupt or a port is accepted
exactly if it is written as it should be and the number in it is within its bounds. -/
theorem accepts_iff_spells (htype : ValueType.ofName? type = some t) (ht : t.hasNumber = true) :
    b.accepts type (some v) = true ↔ b.Spells t (Text.trim v).toList := by
  have hpresent : b.accepts type (some v) = b.acceptsPresent t (Text.trim v).toList := by
    apply accepts_eq_acceptsPresent htype
    · intro hstring
      subst hstring
      cases ht
    · intro hflash
      subst hflash
      cases ht
  rw [hpresent]
  cases t with
  | integer i => exact acceptsPresent_integer_iff (bytes_le_four htype)
  | digitalPin => exact isIndexBelow_iff
  | interrupt => exact isIndexBelow_iff
  | analogPin => exact isAnalogPin_iff
  | pin => rw [Board.acceptsPresent, Bool.or_eq_true, isAnalogPin_iff, isIndexBelow_iff, Board.Spells]
  | hardwareSerial => exact acceptsPresent_serial_iff
  | _ => cases ht

/-- A board with as many digital pins as can be counted. -/
def wideBoard : Board := ⟨"Wide", 4294967295, 6, 2, 3, 9⟩

/-- A negative zero is a byte, and leading zeros do not make an index too long.  A number that would be
one if it were cut to 64 bits is refused, and so is a port with a leading zero. -/
theorem accepts_iff_spells_wide :
    wideBoard.accepts "byte" (some " -00 ") = true ∧
      wideBoard.accepts "digital-pin" (some "0000000000000000000004294967294") = true ∧
      ¬ wideBoard.accepts "int" (some "18446744073709551617") = true ∧
      ¬ wideBoard.accepts "hardware-serial" (some "Serial02") = true := by
  refine ⟨?_, ?_, ?_, ?_⟩
  · rw [accepts_iff_spells (t := .integer ⟨false, 1, ""⟩) (by decide +kernel) rfl]
    exact ⟨0, Text.integer?_eq_some_iff.1 (by decide +kernel), by decide⟩
  · rw [accepts_iff_spells (t := .digitalPin) (by decide +kernel) rfl]
    exact ⟨4294967294, by decide, Text.natural?_eq_some_iff.1 (by decide +kernel)⟩
  · rw [accepts_iff_spells (t := .integer ⟨true, 2, ""⟩) (by decide +kernel) rfl]
    intro h
    obtain ⟨n, hn, hfits⟩ := h
    have hread : Text.integer? (Text.trim "18446744073709551617").toList = some 18446744073709551617 := by
      decide +kernel
    obtain rfl : 18446744073709551617 = n :=
      Option.some.inj (hread.symm.trans (Text.integer?_eq_some_iff.2 hn))
    revert hfits
    decide
  · rw [accepts_iff_spells (t := .hardwareSerial) (by decide +kernel) rfl]
    have hport : (Text.trim "Serial02").toList = "Serial".toList ++ ['0', '2'] := by decide +kernel
    rw [hport]
    intro h
    rcases h with ⟨hcs, -⟩ | ⟨digits, hcs, hzero, -⟩
    · exact absurd hcs (by decide)
    · obtain rfl := List.append_cancel_left hcs
      exact hzero rfl

end Boardwright
