import Boardwright.Text.Numeral
import Mathlib.Data.Nat.Digits.Defs
import Mathlib.Tactic.Ring

/-!
# Numerals and the numbers they stand for

Numerals are read from the left, digit by digit.  Here they are described without a reader: a run of
digits stands for the number with these digits, and a numeral is such a run behind an optional sign.

* **`Digits`**: a run of digits of a base and its number; **`natural?_eq_some_iff_toLower`**: the reader
  finds it, in small and in capital letters; **`natural?_eq_some_iff`**: without letters, in the base
  ten.
* **`Signed`**: an unsigned numeral behind an optional sign.
* **`Numeral`**: a sign and decimal digits; **`integer?_eq_some_iff`**: the reader finds its number.
* **`Numeral.unique`**, **`Numeral.exists_head?`**: the number of a numeral and its first character.
-/

namespace Boardwright.Text

variable {base m n d : ℕ} {c : Char} {cs : List Char} {ds : List ℕ}

/-! ### Digits -/

/-- The characters are digits of the base, the highest first, and `n` is the number with these digits.
-/
def Digits (base : ℕ) (cs : List Char) (n : ℕ) : Prop :=
  ∃ ds : List ℕ, (∀ d ∈ ds, d < base) ∧ cs = ds.map Nat.digitChar ∧ n = Nat.ofDigits base ds.reverse

theorem toLower_of_not_ascii (h : 128 ≤ c.toNat) : c.toLower = c := by
  have hcapital : ¬ (c.val ≥ 'A'.val ∧ c.val ≤ 'Z'.val) := by
    intro hc
    have hnat : c.toNat ≤ 90 := hc.2
    omega
  exact dif_neg hcapital

/-- A digit of a base is a hexadecimal digit below the base. -/
theorem digit?_eq_some_iff_sixteen (hbase : base ≤ 16) :
    digit? base c = some d ↔ d < base ∧ digit? 16 c = some d := by
  simp only [digit?, Option.ite_none_right_eq_some, Option.some.injEq]
  split_ifs
  all_goals omega

theorem digit?_of_not_ascii (h : 128 ≤ c.toNat) : digit? 16 c = none := by
  have hle : ∀ d : Char, d.toNat < 128 → ¬ c ≤ d := by
    intro d hd hc
    have hnat : c.toNat ≤ d.toNat := hc
    omega
  simp [digit?, hle '9' (by decide), hle 'f' (by decide), hle 'F' (by decide)]

/-- A digit may be a capital letter. -/
theorem digit?_eq_some_iff (hbase : base ≤ 16) :
    digit? base c = some d ↔ d < base ∧ c.toLower = Nat.digitChar d := by
  rw [digit?_eq_some_iff_sixteen hbase]
  refine and_congr_right fun hd => ?_
  have hlt : d < 16 := hd.trans_le hbase
  by_cases hascii : c.toNat < 128
  · have hall : ∀ k < 128, ∀ d < 16,
        digit? 16 (Char.ofNat k) = some d ↔ (Char.ofNat k).toLower = Nat.digitChar d := by
      decide +kernel
    simpa only [Char.ofNat_toNat] using hall c.toNat hascii d hlt
  · have hdigits : ∀ d < 16, (Nat.digitChar d).toNat < 128 := by decide
    rw [toLower_of_not_ascii (Nat.not_lt.1 hascii), digit?_of_not_ascii (Nat.not_lt.1 hascii)]
    simp only [reduceCtorEq, false_iff]
    intro hc
    rw [hc] at hascii
    exact hascii (hdigits d hlt)

theorem digitsFrom?_eq_some_iff (hbase : base ≤ 16) {acc : ℕ} :
    digitsFrom? base acc cs = some n ↔
      ∃ ds : List ℕ, (∀ d ∈ ds, d < base) ∧ cs.map Char.toLower = ds.map Nat.digitChar ∧
        n = ds.foldl (fun number d => number * base + d) acc := by
  induction cs generalizing acc with
  | nil =>
    rw [digitsFrom?, Option.some.injEq]
    constructor
    · rintro rfl
      exact ⟨[], by simp, rfl, rfl⟩
    · rintro ⟨ds, -, hds, rfl⟩
      rw [List.map_eq_nil_iff.1 hds.symm]
      rfl
  | cons c cs ih =>
    simp only [digitsFrom?, Option.bind_eq_some_iff, digit?_eq_some_iff hbase, ih]
    constructor
    · rintro ⟨d, ⟨hd, hc⟩, ds, hds, hcs, rfl⟩
      refine ⟨d :: ds, List.forall_mem_cons.2 ⟨hd, hds⟩, ?_, rfl⟩
      rw [List.map_cons, List.map_cons, hc, hcs]
    · rintro ⟨ds, hds, hcs, rfl⟩
      cases ds with
      | nil => cases hcs
      | cons d ds =>
        obtain ⟨hd, hds⟩ := List.forall_mem_cons.1 hds
        obtain ⟨hc, hcs⟩ := List.cons.inj hcs
        exact ⟨d, ⟨hd, hc⟩, ds, hds, hcs, rfl⟩

/-- A run of digits is read as the number with these digits, whether its letters are small or capital.
-/
theorem natural?_eq_some_iff_toLower (hbase : base ≤ 16) :
    natural? base cs = some n ↔ cs ≠ [] ∧ Digits base (cs.map Char.toLower) n := by
  have hfold : ∀ ds : List ℕ, ds.foldl (fun number d => number * base + d) 0 =
      Nat.ofDigits base ds.reverse := by
    intro ds
    rw [Nat.ofDigits_eq_foldr, List.foldr_reverse]
    congr
    funext number d
    simp only [Nat.cast_id]
    ring
  cases cs with
  | nil => simp [natural?]
  | cons c cs =>
    rw [natural?, List.isEmpty_cons, if_neg Bool.false_ne_true, digitsFrom?_eq_some_iff hbase]
    simp only [hfold, Digits, ne_eq, reduceCtorEq, not_false_eq_true, true_and]

theorem toLower_eq_digitChar_iff (hd : d < 10) : c.toLower = Nat.digitChar d ↔ c = Nat.digitChar d := by
  by_cases hascii : c.toNat < 128
  · have hall : ∀ k < 128, ∀ d < 10,
        (Char.ofNat k).toLower = Nat.digitChar d ↔ Char.ofNat k = Nat.digitChar d := by
      decide +kernel
    simpa only [Char.ofNat_toNat] using hall c.toNat hascii d hd
  · rw [toLower_of_not_ascii (Nat.not_lt.1 hascii)]

/-- Up to the base ten no digit is a letter. -/
theorem digits_toLower_iff (hbase : base ≤ 10) : Digits base (cs.map Char.toLower) n ↔ Digits base cs n := by
  have hsame : ∀ ds : List ℕ, (∀ d ∈ ds, d < base) →
      (cs.map Char.toLower = ds.map Nat.digitChar ↔ cs = ds.map Nat.digitChar) := by
    intro ds hds
    induction ds generalizing cs with
    | nil => simp
    | cons d ds ih =>
      obtain ⟨hd, hds⟩ := List.forall_mem_cons.1 hds
      cases cs with
      | nil => simp
      | cons c cs =>
        simp only [List.map_cons, List.cons.injEq, toLower_eq_digitChar_iff (hd.trans_le hbase), ih hds]
  constructor
  · rintro ⟨ds, hds, hcs, rfl⟩
    exact ⟨ds, hds, (hsame ds hds).1 hcs, rfl⟩
  · rintro ⟨ds, hds, hcs, rfl⟩
    exact ⟨ds, hds, (hsame ds hds).2 hcs, rfl⟩

/-- A run of decimal digits is read as the number with these digits. -/
theorem natural?_eq_some_iff : natural? 10 cs = some n ↔ cs ≠ [] ∧ Digits 10 cs n := by
  rw [natural?_eq_some_iff_toLower (by decide), digits_toLower_iff le_rfl]

theorem isDigit_of_mem_digits (hbase : base ≤ 10) (h : Digits base cs n) (hc : c ∈ cs) :
    c.isDigit = true := by
  obtain ⟨ds, hds, rfl, -⟩ := h
  obtain ⟨d, hd, rfl⟩ := List.mem_map.1 hc
  have hlt := hds d hd
  rw [Nat.isDigit_digitChar, decide_eq_true_eq]
  omega

theorem Digits.lt_pow (hbase : 1 < base) (h : Digits base cs n) : n < base ^ cs.length := by
  obtain ⟨ds, hds, rfl, rfl⟩ := h
  have hlt := Nat.ofDigits_lt_base_pow_length hbase fun d hd => hds d (List.mem_reverse.1 hd)
  rwa [List.length_reverse, ← List.length_map Nat.digitChar] at hlt

/-- Digits of at most the base ten can be told from their characters. -/
theorem map_digitChar_inj {es : List ℕ} (hds : ∀ d ∈ ds, d < 10) (hes : ∀ d ∈ es, d < 10)
    (h : ds.map Nat.digitChar = es.map Nat.digitChar) : ds = es := by
  have hback : ∀ l : List ℕ, (∀ d ∈ l, d < 10) →
      (l.map Nat.digitChar).map (fun c => c.toNat - 48) = l := by
    intro l hl
    rw [List.map_map]
    refine (List.map_congr_left ?_).trans (List.map_id l)
    intro d hd
    rw [Function.comp_apply, Nat.toNat_digitChar_of_lt_ten (hl d hd), Nat.add_sub_cancel_left, id]
  rw [← hback ds hds, h, hback es hes]

theorem Digits.unique (hbase : base ≤ 10) (h : Digits base cs n) (h' : Digits base cs m) : m = n := by
  obtain ⟨ds, hds, rfl, rfl⟩ := h
  obtain ⟨es, hes, hsame, rfl⟩ := h'
  rw [map_digitChar_inj (fun d hd => (hds d hd).trans_le hbase) (fun d hd => (hes d hd).trans_le hbase) hsame]

/-! ### Signs -/

/-- An unsigned numeral behind an optional sign. -/
inductive Signed (unsigned : List Char → ℕ → Prop) : List Char → ℤ → Prop
  | plain {cs : List Char} {n : ℕ} : unsigned cs n → Signed unsigned cs n
  | plus {cs : List Char} {n : ℕ} : unsigned cs n → Signed unsigned ('+' :: cs) n
  | minus {cs : List Char} {n : ℕ} : unsigned cs n → Signed unsigned ('-' :: cs) (-n)

section Signs

variable {unsigned : List Char → ℕ → Prop} {k : ℤ}

theorem signed_iff_of_head (hplus : cs.head? ≠ some '+') (hminus : cs.head? ≠ some '-') :
    Signed unsigned cs k ↔ ∃ j : ℕ, unsigned cs j ∧ k = j := by
  constructor
  · intro h
    cases h with
    | plain hj => exact ⟨_, hj, rfl⟩
    | plus _ => exact absurd rfl hplus
    | minus _ => exact absurd rfl hminus
  · rintro ⟨j, hj, rfl⟩
    exact .plain hj

theorem signed_plus_iff (hsign : ∀ j, ¬ unsigned ('+' :: cs) j) :
    Signed unsigned ('+' :: cs) k ↔ ∃ j : ℕ, unsigned cs j ∧ k = j := by
  constructor
  · intro h
    cases h with
    | plain hj => exact absurd hj (hsign _)
    | plus hj => exact ⟨_, hj, rfl⟩
  · rintro ⟨j, hj, rfl⟩
    exact .plus hj

theorem signed_minus_iff (hsign : ∀ j, ¬ unsigned ('-' :: cs) j) :
    Signed unsigned ('-' :: cs) k ↔ ∃ j : ℕ, unsigned cs j ∧ k = -j := by
  constructor
  · intro h
    cases h with
    | plain hj => exact absurd hj (hsign _)
    | minus hj => exact ⟨_, hj, rfl⟩
  · rintro ⟨j, hj, rfl⟩
    exact .minus hj

end Signs

/-- A sign, if any, and decimal digits. -/
def Numeral : List Char → ℤ → Prop :=
  Signed fun cs n => cs ≠ [] ∧ Digits 10 cs n

theorem integer?_eq_some_iff {k : ℤ} : integer? cs = some k ↔ Numeral cs k := by
  constructor
  · intro h
    unfold integer? at h
    split at h
    all_goals
      simp only [Option.map_eq_some_iff, Option.bind_eq_bind, Option.bind_eq_some_iff, pure,
        Option.some.injEq] at h
      obtain ⟨_, ⟨n, hn, rfl⟩, rfl⟩ := h
      rw [natural?_eq_some_iff] at hn
    · exact .minus hn
    · exact .plus hn
    · exact .plain hn
  · intro h
    cases h with
    | minus hn =>
      rw [integer?, natural?_eq_some_iff.2 hn]
      rfl
    | plus hn =>
      rw [integer?, natural?_eq_some_iff.2 hn]
      rfl
    | plain hn =>
      -- a digit is not a sign
      have hsign : ∀ c ∈ cs, c.isDigit = true := fun c hc => isDigit_of_mem_digits le_rfl hn.2 hc
      rw [integer?, natural?_eq_some_iff.2 hn]
      · rfl
      · rintro rest rfl
        exact absurd (hsign '-' List.mem_cons_self) (by decide)
      · rintro rest rfl
        exact absurd (hsign '+' List.mem_cons_self) (by decide)

/-- A numeral stands for one number. -/
theorem Numeral.unique {j k : ℤ} (h : Numeral cs j) (h' : Numeral cs k) : j = k :=
  Option.some.inj ((integer?_eq_some_iff.2 h).symm.trans (integer?_eq_some_iff.2 h'))

/-- The characters that a numeral can begin with. -/
def numeralStarts : List Char :=
  "+-0123456789".toList

theorem Numeral.exists_head? {k : ℤ} (h : Numeral cs k) : ∃ c ∈ numeralStarts, cs.head? = some c := by
  have hdigits : ∀ {cs : List Char} {n : ℕ}, cs ≠ [] ∧ Digits 10 cs n →
      ∃ c ∈ numeralStarts, cs.head? = some c := by
    rintro cs n ⟨hne, ds, hds, rfl, -⟩
    cases ds with
    | nil => exact absurd rfl hne
    | cons d ds =>
      have hall : ∀ d < 10, Nat.digitChar d ∈ numeralStarts := by decide
      exact ⟨_, hall d (hds d List.mem_cons_self), rfl⟩
  cases h with
  | plain h => exact hdigits h
  | plus _ => exact ⟨'+', by decide, rfl⟩
  | minus _ => exact ⟨'-', by decide, rfl⟩

theorem not_numeral_of_head? {k : ℤ} (hhead : cs.head? = some c) (hc : c ∉ numeralStarts) :
    ¬ Numeral cs k := by
  intro h
  obtain ⟨d, hd, hcs⟩ := h.exists_head?
  cases hhead.symm.trans hcs
  exact hc hd

end Boardwright.Text
