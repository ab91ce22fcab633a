/-!
# Floating point numbers of double width

Finite numbers of the form `m · 2 ^ e` with a mantissa of at most 53 bits, in exact arithmetic on whole
numbers.  Products and quotients are rounded to the nearest number of this form, a tie to the one with
an even mantissa; what lies beyond the greatest number has no result.

* **`Magnitude`**: a number without its sign.
* **`Magnitude.ofRatio?`**: the number nearest to a quotient of whole numbers.
* **`Magnitude.mul?`**, **`Magnitude.div?`**: product and quotient.
* **`Binary64`**: a magnitude with a sign.
-/

namespace Boardwright

/-- The number `mantissa · 2 ^ exponent`. -/
structure Magnitude where
  /-- The significant bits, at most 53. -/
  mantissa : Nat
  /-- The power of two, at least -1074. -/
  exponent : Int
  deriving DecidableEq, Repr

namespace Magnitude

/-- Zero. -/
def zero : Magnitude := ⟨0, -1074⟩

/-- The quotient of `num` and `den`, rounded to the nearest whole number; a tie goes to the even
one. -/
def roundedQuotient (num den : Nat) : Nat :=
  let q := num / den
  let r := num % den
  if den < 2 * r ∨ (2 * r = den ∧ q % 2 = 1) then q + 1 else q

/-- The whole number nearest to `num / den` divided by `2 ^ e`. -/
def scaledQuotient (num den : Nat) (e : Int) : Nat :=
  if e < 0 then roundedQuotient (num * Nat.pow 2 (-e).toNat) den
  else roundedQuotient num (den * Nat.pow 2 e.toNat)

/-- The exponent with which `num / den`, rounded down, has a mantissa of 53 bits; not below -1074. -/
def exponentOf (num den : Nat) : Int :=
  let guess := (num.log2 : Int) - (den.log2 : Int) - 53
  let e := max guess (-1074)
  let whole :=
    if e < 0 then num * Nat.pow 2 (-e).toNat / den else num / (den * Nat.pow 2 e.toNat)
  if Nat.pow 2 53 ≤ whole then e + 1 else e

/-- The number nearest to `num / den`, unless it is too large; `den` is not zero. -/
def ofRatio? (num den : Nat) : Option Magnitude :=
  if num = 0 then some zero
  else
    let e := exponentOf num den
    let m := scaledQuotient num den e
    let (m, e) := if m = Nat.pow 2 53 then (Nat.pow 2 52, e + 1) else (m, e)
    if 971 < e then none else some ⟨m, e⟩

/-- The number `m · 2 ^ e / den`, rounded. -/
def ofScaled? (m : Nat) (e : Int) (den : Nat) : Option Magnitude :=
  if e < 0 then ofRatio? m (den * Nat.pow 2 (-e).toNat) else ofRatio? (m * Nat.pow 2 e.toNat) den

/-- The product of two numbers, unless it is too large. -/
def mul? (a b : Magnitude) : Option Magnitude :=
  ofScaled? (a.mantissa * b.mantissa) (a.exponent + b.exponent) 1

/-- The quotient of two numbers, unless it is too large; the divisor is not zero. -/
def div? (a b : Magnitude) : Option Magnitude :=
  ofScaled? a.mantissa (a.exponent - b.exponent) b.mantissa

/-- The number nearest to a power of ten; the power is at most 308. -/
def powerOfTen (n : Nat) : Magnitude :=
  (ofRatio? (Nat.pow 10 n) 1).getD zero

/-- The number times `10 ^ e`, unless it is too large.  Beyond the 308th power small numbers are scaled
in several steps. -/
def scaleTen? (a : Magnitude) (e : Int) : Option Magnitude :=
  if e.natAbs ≤ 308 then
    if 0 ≤ e then a.mul? (powerOfTen e.natAbs) else a.div? (powerOfTen e.natAbs)
  else if a.mantissa = 0 then some a
  else if _h : 0 ≤ e then none
  else
    match a.div? (powerOfTen 308) with
    | none => none
    | some b => scaleTen? b (e + 308)
termination_by e.natAbs
decreasing_by omega

end Magnitude

/-- A finite number of double width. -/
structure Binary64 where
  /-- Whether the number has a minus sign; zero may have one too. -/
  negative : Bool
  /-- The number without its sign. -/
  magnitude : Magnitude
  deriving DecidableEq, Repr

/-- The number nearest to a whole number of at most 64 bits. -/
def Magnitude.ofNat (n : Nat) : Magnitude :=
  (Magnitude.ofRatio? n 1).getD Magnitude.zero

end Boardwright
