/-!
# Numerals

Reading of whole numbers written with the digits of a base.

* **`digit?`**: the value of one digit.
* **`natural?`**: a non-empty run of digits.
* **`integer?`**: an optional sign and a run of decimal digits.
* **`int64?`**, **`word32?`**, **`index?`**: the same with the bounds of 64 bit signed and 32 bit
  unsigned numbers; a number outside the bounds is no number.
-/

namespace Boardwright.Text

/-- The value of a digit in `base`, which is at most sixteen here. -/
def digit? (base : Nat) (c : Char) : Option Nat :=
  let v :=
    if '0' ≤ c && c ≤ '9' then c.toNat - 48
    else if 'a' ≤ c && c ≤ 'f' then c.toNat - 87
    else if 'A' ≤ c && c ≤ 'F' then c.toNat - 55
    else base
  if v < base then some v else none

/-- Reads digits from the left, starting with the value `acc` of the digits before. -/
def digitsFrom? (base acc : Nat) : List Char → Option Nat
  | [] => some acc
  | c :: cs => (digit? base c).bind fun d => digitsFrom? base (acc * base + d) cs

/-- The value of a non-empty run of digits. -/
def natural? (base : Nat) (cs : List Char) : Option Nat :=
  if cs.isEmpty then none else digitsFrom? base 0 cs

/-- An optional sign followed by decimal digits. -/
def integer? : List Char → Option Int
  | '-' :: cs => (natural? 10 cs).map fun n => -(n : Int)
  | '+' :: cs => (natural? 10 cs).map fun n => (n : Int)
  | cs => (natural? 10 cs).map fun n => (n : Int)

/-- The least signed number of 64 bits. -/
def int64Min : Int := -9223372036854775808

/-- The greatest signed number of 64 bits. -/
def int64Max : Int := 9223372036854775807

/-- A signed decimal number of at most 64 bits. -/
def int64? (s : String) : Option Int :=
  (integer? s.toList).filter fun n => decide (int64Min ≤ n) && decide (n ≤ int64Max)

/-- One more than the greatest unsigned number of 32 bits. -/
def word32Bound : Nat := 4294967296

/-- An unsigned number of at most 32 bits; a plus sign in front is allowed. -/
def word32? (base : Nat) : List Char → Option Nat
  | '+' :: cs => (natural? base cs).filter fun n => decide (n < word32Bound)
  | cs => (natural? base cs).filter fun n => decide (n < word32Bound)

/-- A run of decimal digits without a sign, of at most 32 bits. -/
def index? (cs : List Char) : Option Nat :=
  (natural? 10 cs).filter fun n => decide (n < word32Bound)

end Boardwright.Text
