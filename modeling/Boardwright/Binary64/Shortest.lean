import Boardwright.Binary64

/-!
# Shortest decimal texts of floating point numbers

A floating point number is written with as few digits as are needed to read it back.  Of the decimals
with that many digits the nearest is taken, and of two equally near ones the greater.  The text has no
exponent and no point unless digits follow it.

* **`Decimals`**: a number `digits · 10 ^ exponent`.
* **`Magnitude.shortest`**: the decimal with the fewest digits.
* **`Binary64.text`**: the text of a number.
-/

namespace Boardwright

/-- The number `digits · 10 ^ exponent`. -/
structure Decimals where
  /-- The digits, as a number. -/
  digits : Nat
  /-- The power of ten. -/
  exponent : Int
  deriving DecidableEq, Repr

namespace Magnitude

/-- A number and the distances to the ends of the interval of reals that are rounded to it, as
multiples of one fraction `1 / den`. -/
structure Rounding where
  /-- The number. -/
  value : Nat
  /-- The distance to the lower end. -/
  below : Nat
  /-- The distance to the upper end. -/
  above : Nat
  /-- The denominator. -/
  den : Nat
  /-- Whether the ends belong to the interval. -/
  closed : Bool
  deriving DecidableEq, Repr

/-- The interval of reals that are rounded to a number.  Below a power of two the numbers lie closer
together. -/
def rounding (a : Magnitude) : Rounding :=
  let e := a.exponent - 2
  let unit := if e < 0 then 1 else Nat.pow 2 e.toNat
  { value := 4 * a.mantissa * unit
    below := (if a.mantissa = Nat.pow 2 52 then 1 else 2) * unit
    above := 2 * unit
    den := if e < 0 then Nat.pow 2 (-e).toNat else 1
    closed := a.mantissa % 2 = 0 }

/-- The number of digits before the point; zero or negative for numbers below a tenth. -/
def Rounding.point (r : Rounding) : Int :=
  ((Nat.toDigits 10 (r.value * Nat.pow 10 400 / r.den)).length : Int) - 400

/-- Whether a distance stays inside the interval. -/
def Rounding.within (r : Rounding) (distance limit : Nat) : Bool :=
  if r.closed then decide (distance ≤ limit) else decide (distance < limit)

/-- The decimal with `n` digits that is rounded to the number, if there is one. -/
def Rounding.withDigits? (r : Rounding) (n : Nat) : Option Decimals :=
  let e := r.point - n
  let up := if e < 0 then 1 else Nat.pow 10 e.toNat
  let down := if e < 0 then Nat.pow 10 (-e).toNat else 1
  let step := r.den * up
  let digits := r.value * down / step
  let rest := r.value * down % step
  let lower := r.within rest (r.below * down)
  let upper := r.within (step - rest) (r.above * down)
  if upper && (!lower || decide (step ≤ 2 * rest)) then some ⟨digits + 1, e⟩
  else if lower then some ⟨digits, e⟩
  else none

/-- The decimal with the fewest digits that is rounded to the number; 17 digits always suffice. -/
def shortest (a : Magnitude) : Decimals :=
  if a.mantissa = 0 then ⟨0, 0⟩
  else ((List.range 17).findSome? fun i => a.rounding.withDigits? (i + 1)).getD ⟨0, 0⟩

end Magnitude

namespace Decimals

/-- The text of a decimal, without zeros after its last digit behind the point. -/
def text (d : Decimals) : String :=
  let cs := Nat.toDigits 10 d.digits
  if 0 ≤ d.exponent then String.ofList (cs ++ List.replicate d.exponent.toNat '0')
  else
    let places := d.exponent.natAbs
    let padded := List.replicate (places + 1 - cs.length) '0' ++ cs
    let whole := padded.take (padded.length - places)
    let fraction := ((padded.drop (padded.length - places)).reverse.dropWhile (· == '0')).reverse
    if fraction.isEmpty then String.ofList whole
    else String.ofList (whole ++ '.' :: fraction)

end Decimals

/-- The text of a number. -/
def Binary64.text (x : Binary64) : String :=
  (if x.negative then "-" else "") ++ x.magnitude.shortest.text

end Boardwright
