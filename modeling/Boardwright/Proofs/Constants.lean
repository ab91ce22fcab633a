import Boardwright.Proofs.Spelling
import Mathlib.Algebra.Order.BigOperators.Group.List

/-!
# Numbers in the generated program

A number is checked as a decimal number and then written into the program as it stands, without the
blanks around it.  The program reads it by rules of its own: behind a leading zero all digits are octal.
So the two agree about a number unless it is written with a leading zero and is eight or more.

* **`Denotes`**: which number a constant of the program denotes.
* **`ReadsBack`**: how a constant with given digits is read, beside the decimal number with these
  digits.
* **`readsBack_of_numeral`**: a decimal number that is written as it stands.
* **`number_reads_back`**: the literals of numbers that a board accepts.
-/

namespace Boardwright

open Text (Digits Signed Numeral)

variable {cs digits : List Char} {j m : ℕ} {n : ℤ} {suffix : String}

/-! ### Constants of the program -/

/-- An unsigned constant without suffix.  It is octal if it begins with a zero; of a single zero the
base does not matter. -/
inductive Constant (cs : List Char) (n : ℕ) : Prop
  | decimal : cs ≠ [] → cs.head? ≠ some '0' → Digits 10 cs n → Constant cs n
  | octal : cs.head? = some '0' → Digits 8 cs n → Constant cs n

/-- The letters that can end a constant. -/
def constantSuffixes : List String := ["", "u", "l", "ul"]

/-- An unsigned constant; the suffix does not count. -/
def SuffixedConstant (cs : List Char) (n : ℕ) : Prop :=
  ∃ digits, ∃ suffix ∈ constantSuffixes, cs = digits ++ suffix.toList ∧ Constant digits n

/-- The text is a constant behind an optional sign, and it denotes `n`. -/
def Denotes (text : String) (n : ℤ) : Prop :=
  Signed SuffixedConstant text.toList n

theorem Constant.isDigit (h : Constant cs m) : ∀ c ∈ cs, c.isDigit = true := by
  intro c hc
  cases h with
  | decimal _ _ hdigits => exact Text.isDigit_of_mem_digits le_rfl hdigits hc
  | octal _ hdigits => exact Text.isDigit_of_mem_digits (by decide) hdigits hc

theorem Constant.ne_nil (h : Constant cs m) : cs ≠ [] := by
  rintro rfl
  cases h with
  | decimal hne _ _ => exact hne rfl
  | octal hhead _ => cases hhead

/-- A suffix has no digits, so it is clear where it begins. -/
theorem suffixedConstant_iff (hdigits : ∀ c ∈ digits, c.isDigit = true)
    (hsuffix : suffix ∈ constantSuffixes) :
    SuffixedConstant (digits ++ suffix.toList) m ↔ Constant digits m := by
  have hletters : ∀ s ∈ constantSuffixes, s.toList.takeWhile Char.isDigit = [] := by decide
  constructor
  · rintro ⟨digits', suffix', hsuffix', hsame, hconstant⟩
    have hfront := congrArg (List.takeWhile Char.isDigit) hsame
    rw [List.takeWhile_append_of_pos hdigits, List.takeWhile_append_of_pos hconstant.isDigit,
      hletters suffix hsuffix, hletters suffix' hsuffix', List.append_nil, List.append_nil] at hfront
    rw [hfront]
    exact hconstant
  · intro h
    exact ⟨digits, suffix, hsuffix, rfl, h⟩

theorem head_ne_sign (h : ∀ c, cs.head? = some c → c.isDigit = true) :
    cs.head? ≠ some '+' ∧ cs.head? ≠ some '-' :=
  ⟨fun hc => absurd (h _ hc) (by decide), fun hc => absurd (h _ hc) (by decide)⟩

/-- No constant begins with a sign of its own. -/
theorem SuffixedConstant.head_ne (h : SuffixedConstant cs m) :
    cs.head? ≠ some '+' ∧ cs.head? ≠ some '-' := by
  obtain ⟨digits, suffix, -, rfl, hconstant⟩ := h
  apply head_ne_sign
  intro c hc
  rw [List.head?_append_of_ne_nil _ hconstant.ne_nil] at hc
  exact hconstant.isDigit c (List.mem_of_mem_head? hc)

/-! ### Decimal and octal readings -/

/-- With digits that both bases have, the octal reading of eight or more is the lesser one. -/
theorem ofDigits_eight_lt {ds : List ℕ} (hds : ∀ d ∈ ds, d < 8) (h : 8 ≤ Nat.ofDigits 10 ds) :
    Nat.ofDigits 8 ds < Nat.ofDigits 10 ds := by
  cases ds with
  | nil => simp at h
  | cons d higher =>
    have hd := hds d List.mem_cons_self
    have hle : Nat.ofDigits 8 higher ≤ Nat.ofDigits 10 higher :=
      Nat.ofDigits_monotone higher (by decide)
    rw [Nat.ofDigits_cons] at h ⊢
    rw [Nat.ofDigits_cons]
    omega

theorem ofDigits_eight_eq {ds : List ℕ} (h : Nat.ofDigits 10 ds < 8) :
    Nat.ofDigits 8 ds = Nat.ofDigits 10 ds := by
  cases ds with
  | nil => rfl
  | cons d higher =>
    have hle : Nat.ofDigits 8 higher ≤ Nat.ofDigits 10 higher :=
      Nat.ofDigits_monotone higher (by decide)
    rw [Nat.ofDigits_cons] at h ⊢
    rw [Nat.ofDigits_cons]
    omega

/-- The octal readings of decimal digits. -/
theorem digits_eight_iff {ds : List ℕ} (hds : ∀ d ∈ ds, d < 10) :
    Digits 8 (ds.map Nat.digitChar) j ↔ (∀ d ∈ ds, d < 8) ∧ j = Nat.ofDigits 8 ds.reverse := by
  constructor
  · rintro ⟨es, hes, hsame, rfl⟩
    obtain rfl := Text.map_digitChar_inj hds (fun d hd => (hes d hd).trans (by decide)) hsame
    exact ⟨hes, rfl⟩
  · rintro ⟨hoctal, rfl⟩
    exact ⟨ds, hoctal, rfl, rfl⟩

theorem constant_iff_octal (hzero : digits.head? = some '0') : Constant digits j ↔ Digits 8 digits j := by
  constructor
  · intro h
    cases h with
    | decimal _ hfirst _ => exact absurd hzero hfirst
    | octal _ hoctal => exact hoctal
  · exact Constant.octal hzero

section Reading

variable (hne : digits ≠ []) (hdigits : Digits 10 digits m)
include hdigits

theorem lt_of_constant (hzero : digits.head? = some '0') (hm : 8 ≤ m) (h : Constant digits j) : j < m := by
  rw [constant_iff_octal hzero] at h
  obtain ⟨ds, hds, rfl, rfl⟩ := hdigits
  obtain ⟨hoctal, rfl⟩ := (digits_eight_iff hds).1 h
  exact ofDigits_eight_lt (fun d hd => hoctal d (List.mem_reverse.1 hd)) hm

include hne

theorem constant_iff_eq (hplain : digits.head? = some '0' → m < 8) : Constant digits j ↔ j = m := by
  by_cases hzero : digits.head? = some '0'
  · rw [constant_iff_octal hzero]
    have hm := hplain hzero
    obtain ⟨ds, hds, rfl, rfl⟩ := hdigits
    -- a digit is at most the number
    have hoctal : ∀ d ∈ ds, d < 8 := by
      intro d hd
      have hle : d ≤ Nat.ofDigits 10 ds.reverse :=
        (List.le_sum_of_mem (List.mem_reverse.2 hd)).trans (Nat.sum_le_ofDigits _ (by decide))
      omega
    rw [digits_eight_iff hds, ofDigits_eight_eq hm]
    exact ⟨And.right, fun h => ⟨hoctal, h⟩⟩
  · constructor
    · intro h
      cases h with
      | decimal _ _ hdecimal => exact hdigits.unique le_rfl hdecimal
      | octal hfirst _ => exact absurd hfirst hzero
    · rintro rfl
      exact .decimal hne hzero hdigits

theorem exists_constant_iff :
    (∃ j, Constant digits j) ↔ (digits.head? = some '0' → '8' ∉ digits ∧ '9' ∉ digits) := by
  by_cases hzero : digits.head? = some '0'
  · simp only [constant_iff_octal hzero, hzero, forall_const]
    obtain ⟨ds, hds, rfl, -⟩ := hdigits
    have hlast : ∀ d < 10, d < 8 ↔ Nat.digitChar d ≠ '8' ∧ Nat.digitChar d ≠ '9' := by decide
    simp only [digits_eight_iff hds, exists_and_left, exists_eq, and_true, List.mem_map, not_exists,
      not_and]
    constructor
    · intro hoctal
      exact ⟨fun d hd => ((hlast d (hds d hd)).1 (hoctal d hd)).1,
        fun d hd => ((hlast d (hds d hd)).1 (hoctal d hd)).2⟩
    · rintro ⟨hnoEight, hnoNine⟩ d hd
      exact (hlast d (hds d hd)).2 ⟨hnoEight d hd, hnoNine d hd⟩
  · simp only [hzero, false_implies, iff_true]
    exact ⟨m, .decimal hne hzero hdigits⟩

end Reading

/-! ### Decimal numbers as constants -/

/-- A text without the sign in front of it. -/
def unsignedPart : List Char → List Char
  | '+' :: cs => cs
  | '-' :: cs => cs
  | cs => cs

theorem head_ne_of_digits (h : Digits 10 cs m) : cs.head? ≠ some '+' ∧ cs.head? ≠ some '-' :=
  head_ne_sign fun _ hc => Text.isDigit_of_mem_digits le_rfl h (List.mem_of_mem_head? hc)

theorem unsignedPart_of_digits (h : Digits 10 cs m) : unsignedPart cs = cs := by
  obtain ⟨hplus, hminus⟩ := head_ne_of_digits h
  unfold unsignedPart
  split
  · exact absurd rfl hplus
  · exact absurd rfl hminus
  · rfl

/-- How a constant is read whose digits are those of the decimal number `n`.  It keeps the number unless
it begins with a zero and the number is eight or more.  Then it denotes a lesser number, or none at all.
-/
structure ReadsBack (text : String) (digits : List Char) (n : ℤ) : Prop where
  keeps : (∀ k, Denotes text k ↔ k = n) ↔ (digits.head? = some '0' → n.natAbs < 8)
  less : digits.head? = some '0' → 8 ≤ n.natAbs → ∀ k, Denotes text k → k.natAbs < n.natAbs
  wellFormed : (∃ k, Denotes text k) ↔ (digits.head? = some '0' → '8' ∉ digits ∧ '9' ∉ digits)

/-- A sign in front of the digits is a factor of what they denote. -/
theorem exists_sign_of_numeral (h : Numeral cs n) (hsuffix : suffix ∈ constantSuffixes) :
    unsignedPart cs ≠ [] ∧ Digits 10 (unsignedPart cs) n.natAbs ∧ ∃ sign : ℤ, (sign = 1 ∨ sign = -1) ∧
      n = sign * n.natAbs ∧ ∀ k, Signed SuffixedConstant (cs ++ suffix.toList) k ↔
        ∃ j : ℕ, Constant (unsignedPart cs) j ∧ k = sign * j := by
  have hunsigned : ∀ {digits : List Char} {m j : ℕ}, Digits 10 digits m →
      (SuffixedConstant (digits ++ suffix.toList) j ↔ Constant digits j) :=
    fun hm => suffixedConstant_iff (fun _ hc => Text.isDigit_of_mem_digits le_rfl hm hc) hsuffix
  cases h with
  | plain hm =>
    obtain ⟨hne, hm⟩ := hm
    obtain ⟨hplus, hminus⟩ := head_ne_of_digits hm
    rw [unsignedPart_of_digits hm, Int.natAbs_natCast]
    refine ⟨hne, hm, 1, .inl rfl, (one_mul _).symm, fun k => ?_⟩
    rw [Text.signed_iff_of_head (by rwa [List.head?_append_of_ne_nil _ hne])
      (by rwa [List.head?_append_of_ne_nil _ hne])]
    simp only [hunsigned hm, one_mul]
  | plus hm =>
    obtain ⟨hne, hm⟩ := hm
    rw [Int.natAbs_natCast]
    refine ⟨hne, hm, 1, .inl rfl, (one_mul _).symm, fun k => ?_⟩
    rw [List.cons_append, Text.signed_plus_iff fun j hj => hj.head_ne.1 rfl]
    simp only [hunsigned hm, one_mul, unsignedPart]
  | minus hm =>
    obtain ⟨hne, hm⟩ := hm
    rw [Int.natAbs_neg, Int.natAbs_natCast]
    refine ⟨hne, hm, -1, .inr rfl, (neg_one_mul _).symm, fun k => ?_⟩
    rw [List.cons_append, Text.signed_minus_iff fun j hj => hj.head_ne.2 rfl]
    simp only [hunsigned hm, neg_one_mul, unsignedPart]

/-- A decimal number that is written as it stands. -/
theorem readsBack_of_numeral {text : String} (h : Numeral cs n) (hsuffix : suffix ∈ constantSuffixes)
    (htext : text.toList = cs ++ suffix.toList) : ReadsBack text (unsignedPart cs) n := by
  obtain ⟨hne, hdigits, sign, hsign, hn, hread⟩ := exists_sign_of_numeral h hsuffix
  have hdenotes : ∀ k, Denotes text k ↔ ∃ j : ℕ, Constant (unsignedPart cs) j ∧ k = sign * j := by
    intro k
    rw [Denotes, htext, hread]
  have hless : (unsignedPart cs).head? = some '0' → 8 ≤ n.natAbs →
      ∀ k, Denotes text k → k.natAbs < n.natAbs := by
    intro hzero hlarge k hk
    obtain ⟨j, hj, rfl⟩ := (hdenotes k).1 hk
    have hlt := lt_of_constant hdigits hzero hlarge hj
    rcases hsign with rfl | rfl
    all_goals omega
  refine ⟨⟨fun hkeeps hzero => ?_, fun hsmall k => ?_⟩, hless, ?_⟩
  · by_contra hbig
    exact lt_irrefl _ (hless hzero (not_lt.1 hbig) n ((hkeeps n).2 rfl))
  · simp only [hdenotes, constant_iff_eq hne hdigits hsmall, exists_eq_left, ← hn]
  · rw [← exists_constant_iff hne hdigits]
    constructor
    · rintro ⟨k, hk⟩
      obtain ⟨j, hj, -⟩ := (hdenotes k).1 hk
      exact ⟨j, hj⟩
    · rintro ⟨j, hj⟩
      exact ⟨sign * j, (hdenotes _).2 ⟨j, hj, rfl⟩⟩

/-! ### Accepted numbers -/

/-- The numbers that a board admits as values of a type.  Values of other types are not just numbers. -/
def Board.Admits (b : Board) : ValueType → ℤ → Prop
  | .integer i, n => i.least ≤ n ∧ n ≤ i.greatest
  | .digitalPin, n => 0 ≤ n ∧ n < b.digitalPins.toNat
  | .interrupt, n => 0 ≤ n ∧ n < b.interrupts.toNat
  | _, _ => False

/-- The types whose values are written as a single number. -/
def ValueType.isNumber : ValueType → Bool
  | .integer _ | .digitalPin | .interrupt => true
  | _ => false

variable {b : Board} {type v : String} {t : ValueType}

theorem numeral_of_isIndexBelow {count : UInt32} (h : isIndexBelow cs count = true) :
    ∃ n, Numeral cs n ∧ 0 ≤ n ∧ n < count.toNat := by
  obtain ⟨m, hm, hdigits⟩ := isIndexBelow_iff.1 h
  exact ⟨m, .plain hdigits, Int.natCast_nonneg m, Int.ofNat_lt.2 hm⟩

theorem numeral_of_acceptsPresent (ht : t.isNumber = true) (h : b.acceptsPresent t cs = true) :
    ∃ n, Numeral cs n ∧ b.Admits t n := by
  cases t with
  | integer i =>
    rw [Board.acceptsPresent] at h
    split at h
    · rename_i n hn
      rw [int64?_eq_some_iff] at hn
      rw [Bool.and_eq_true, decide_eq_true_eq, decide_eq_true_eq] at h
      exact ⟨n, hn.1, h⟩
    · cases h
  | digitalPin => exact numeral_of_isIndexBelow h
  | interrupt => exact numeral_of_isIndexBelow h
  | _ => cases ht

/-- The letters that end a literal of the type. -/
def ValueType.literalSuffix : ValueType → String
  | .integer i => i.suffix
  | _ => ""

theorem literalSuffix_mem (htype : ValueType.ofName? type = some t) :
    t.literalSuffix ∈ constantSuffixes := by
  have hrows : ∀ row ∈ ValueType.table, row.2.literalSuffix ∈ constantSuffixes := by decide
  exact hrows _ (Storage.mem_table_of_ofName? htype)

/-- A number is written as it stands, with the suffix of its type. -/
theorem literal_of_isNumber (htype : ValueType.ofName? type = some t) (ht : t.isNumber = true) :
    literal? type (some v) = some (Text.trim v ++ t.literalSuffix) := by
  unfold literal?
  rw [htype]
  cases t with
  | integer i => rfl
  | digitalPin | interrupt => exact congrArg some String.append_empty.symm
  | _ => cases ht

theorem acceptsPresent_of_accepts (htype : ValueType.ofName? type = some t) (ht : t.isNumber = true)
    (h : b.accepts type (some v) = true) : b.acceptsPresent t (Text.trim v).toList = true := by
  rw [← h, accepts_eq_acceptsPresent htype]
  · rintro rfl
    cases ht
  · rintro rfl
    cases ht

/-- The literal of an accepted number keeps the number exactly if it is below eight or is written
without a leading zero. -/
theorem number_reads_back (htype : ValueType.ofName? type = some t) (ht : t.isNumber = true)
    (h : b.accepts type (some v) = true) :
    ∃ n text, Numeral (Text.trim v).toList n ∧ b.Admits t n ∧ literal? type (some v) = some text ∧
      ReadsBack text (unsignedPart (Text.trim v).toList) n := by
  obtain ⟨n, hn, hadmits⟩ := numeral_of_acceptsPresent ht (acceptsPresent_of_accepts htype ht h)
  exact ⟨n, _, hn, hadmits, literal_of_isNumber htype ht,
    readsBack_of_numeral hn (literalSuffix_mem htype) (String.toList_append ..)⟩

/-- A small board. -/
def smallBoard : Board := ⟨"ArduinoUno", 14, 6, 2, 1, 9⟩

/-- A number with blanks and a sign is kept, and so is one below eight with a leading zero. -/
theorem number_reads_back_spaced :
    (smallBoard.accepts "unsigned long" (some " +42 ") = true ∧
      literal? "unsigned long" (some " +42 ") = some "+42ul" ∧ ∀ k, Denotes "+42ul" k ↔ k = 42) ∧
    (smallBoard.accepts "digital-pin" (some "07") = true ∧
      literal? "digital-pin" (some "07") = some "07" ∧ ∀ k, Denotes "07" k ↔ k = 7) := by
  have hlong : smallBoard.accepts "unsigned long" (some " +42 ") = true := by decide +kernel
  have hpin : smallBoard.accepts "digital-pin" (some "07") = true := by decide +kernel
  have hlongText : literal? "unsigned long" (some " +42 ") = some "+42ul" := by decide +kernel
  have hpinText : literal? "digital-pin" (some "07") = some "07" := by decide +kernel
  refine ⟨⟨hlong, hlongText, ?_⟩, hpin, hpinText, ?_⟩
  · obtain ⟨n, text, hn, -, htext, hread⟩ :=
      number_reads_back (t := .integer ⟨false, 4, "ul"⟩) (by decide +kernel) rfl hlong
    obtain rfl : "+42ul" = text := Option.some.inj (hlongText.symm.trans htext)
    have hvalue : Text.integer? (Text.trim " +42 ").toList = some 42 := by decide +kernel
    obtain rfl : 42 = n := Option.some.inj (hvalue.symm.trans (Text.integer?_eq_some_iff.2 hn))
    exact hread.keeps.2 (by decide +kernel)
  · obtain ⟨n, text, hn, -, htext, hread⟩ :=
      number_reads_back (t := .digitalPin) (by decide +kernel) rfl hpin
    obtain rfl : "07" = text := Option.some.inj (hpinText.symm.trans htext)
    have hvalue : Text.integer? (Text.trim "07").toList = some 7 := by decide +kernel
    obtain rfl : 7 = n := Option.some.inj (hvalue.symm.trans (Text.integer?_eq_some_iff.2 hn))
    exact hread.keeps.2 (by decide +kernel)

/-- Ten with a leading zero is accepted and becomes eight; pin eight with a leading zero is accepted and
becomes no number at all. -/
theorem leading_zero_misread :
    (smallBoard.accepts "int" (some "010") = true ∧ literal? "int" (some "010") = some "010" ∧
      Numeral "010".toList 10 ∧ Denotes "010" 8 ∧ ¬ Denotes "010" 10) ∧
    (smallBoard.accepts "digital-pin" (some "08") = true ∧
      literal? "digital-pin" (some "08") = some "08" ∧ ∀ k, ¬ Denotes "08" k) := by
  have hten : Numeral "010".toList 10 := Text.integer?_eq_some_iff.1 (by decide +kernel)
  have hpin : Numeral "08".toList 8 := Text.integer?_eq_some_iff.1 (by decide +kernel)
  have hnone : "" ∈ constantSuffixes := List.mem_cons_self
  have hreadTen : ReadsBack "010" (unsignedPart "010".toList) 10 :=
    readsBack_of_numeral hten hnone (by decide +kernel)
  have hreadEight : ReadsBack "08" (unsignedPart "08".toList) 8 :=
    readsBack_of_numeral hpin hnone (by decide +kernel)
  refine ⟨⟨by decide +kernel, by decide +kernel, hten, ?_, ?_⟩,
    by decide +kernel, by decide +kernel, ?_⟩
  · exact .plain ⟨"010".toList, "", hnone, by decide +kernel,
      .octal (by decide +kernel) ⟨[0, 1, 0], by decide, by decide +kernel, by decide +kernel⟩⟩
  · intro hdenotes
    exact absurd (hreadTen.less (by decide +kernel) (by decide) 10 hdenotes) (by decide)
  · intro k hk
    exact absurd (hreadEight.wellFormed.1 ⟨k, hk⟩ (by decide +kernel)).1 (by decide +kernel)

end Boardwright
