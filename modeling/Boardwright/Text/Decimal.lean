import Boardwright.Text.Numeral

/-!
# Decimal fractions of finite size

The texts that denote a finite floating point number of double width: an optional sign, digits with
at most one point among them, and an optional exponent.  A number that lies so far out that it would
be rounded to infinity is not finite.

* **`Decimal`**: the digits and the position of the point of an unsigned number.
* **`Decimal.read?`**: reading without the sign.
* **`Decimal.isFinite`**: the exact comparison with the limit `2 ^ 1024 - 2 ^ 970`, half a step above
  the greatest double.
-/

namespace Boardwright.Text

/-- The number `0.d₁d₂… · 10 ^ point`, with `d₁` not zero; no digits at all mean zero. -/
structure Decimal where
  /-- The significant digits, without leading zeros. -/
  digits : List Char
  /-- The power of ten that the fraction `0.d₁d₂…` is multiplied with. -/
  point : Int
  deriving DecidableEq, Repr

namespace Decimal

/-- Puts the parts of a written number together. -/
def ofParts (whole fraction : List Char) (exponent : Int) : Decimal :=
  let significant := (whole ++ fraction).dropWhile (· == '0')
  { digits := significant
    point := (significant.length : Int) - (fraction.length : Int) + exponent }

/-- The exponent after the mark: an optional sign and at least one digit. -/
def exponent? (cs : List Char) : Option Int :=
  integer? cs

/-- Reads an unsigned number, to the end of the text. -/
def read? (cs : List Char) : Option Decimal :=
  let whole := cs.takeWhile Char.isDigit
  let afterWhole := cs.dropWhile Char.isDigit
  let (fraction, rest) :=
    match afterWhole with
    | '.' :: r => (r.takeWhile Char.isDigit, r.dropWhile Char.isDigit)
    | r => ([], r)
  if whole.isEmpty && fraction.isEmpty then none
  else
    match rest with
    | [] => some (ofParts whole fraction 0)
    | c :: r =>
      if c == 'e' || c == 'E' then (exponent? r).map (ofParts whole fraction ·) else none

/-- The least number that is rounded to infinity. -/
def infinityLimit : Nat := Nat.pow 2 1024 - Nat.pow 2 970

/-- Whether the number lies below `infinityLimit`. -/
def isFinite (d : Decimal) : Bool :=
  if d.digits.isEmpty then true
  else if d.point < 309 then true
  else if 309 < d.point then false
  else
    let n := (digitsFrom? 10 0 d.digits).getD 0
    let k := d.digits.length
    if k ≤ 309 then decide (n * Nat.pow 10 (309 - k) < infinityLimit)
    else decide (n < infinityLimit * Nat.pow 10 (k - 309))

end Decimal

/-- Whether a text denotes a finite floating point number. -/
def isFiniteDecimal (cs : List Char) : Bool :=
  let unsigned :=
    match cs with
    | '-' :: r => r
    | '+' :: r => r
    | r => r
  match Decimal.read? unsigned with
  | some d => d.isFinite
  | none => false

end Boardwright.Text
