import Boardwright.Binary64.Shortest

/-!
# Numbers in JSON texts

A number without point and exponent is a whole number as long as it fits 64 bits.  Every other number
is a floating point number: its digits are gathered as long as they fit 64 bits, and the number they
form is scaled by a power of ten.

* **`Json.Fault`**: the three ways in which a JSON text can be faulty.
* **`Json.Number`**: the two sorts of numbers.
* **`Json.Numeral`**: the parts of a written number.
* **`Json.Numeral.value?`**: the number, unless it is too large.
-/

namespace Boardwright.Json

/-- The ways in which a text can be faulty. -/
inductive Fault where
  /-- The text is malformed. -/
  | malformed
  /-- The text ends too early. -/
  | truncated
  /-- The text is well-formed but has not the expected shape. -/
  | misshapen
  deriving DecidableEq, Repr

/-- The text that stands for a fault in a chain of causes. -/
def Fault.message : Fault → String
  | .malformed => "<json:syntax>"
  | .truncated => "<json:eof>"
  | .misshapen => "<json:data>"

/-- A number. -/
inductive Number where
  /-- A whole number between -2^63 and 2^64 - 1. -/
  | whole (n : Int)
  /-- Any other number. -/
  | real (x : Binary64)
  deriving DecidableEq, Repr

/-- The parts of a written number. -/
structure Numeral where
  /-- Whether there is a minus sign. -/
  negative : Bool
  /-- The digits before the point. -/
  whole : List Nat
  /-- The digits after the point. -/
  fraction : Option (List Nat)
  /-- The exponent. -/
  exponent : Option Int
  deriving DecidableEq, Repr

/-- The greatest number of 64 bits. -/
def word64Max : Nat := 18446744073709551615

/-- Gathers digits as long as the number they form has at most 64 bits; also gives the digits that are
left. -/
def gather (n : Nat) : List Nat → Nat × List Nat
  | [] => (n, [])
  | d :: rest => if n * 10 + d ≤ word64Max then gather (n * 10 + d) rest else (n, d :: rest)

namespace Numeral

/-- The number, unless it is too large. -/
def value? (x : Numeral) : Option Number :=
  let (head, dropped) := gather 0 x.whole
  let real (significand : Nat) (e : Int) : Option Number :=
    ((Magnitude.ofNat significand).scaleTen? e).map fun m => .real ⟨x.negative, m⟩
  match x.fraction, x.exponent with
  | none, none =>
    if !dropped.isEmpty then real head dropped.length
    else if !x.negative then some (.whole head)
    else if head = 0 ∨ 9223372036854775808 < head then
      some (.real ⟨true, Magnitude.ofNat head⟩)
    else some (.whole (-(head : Int)))
  | fraction, exponent =>
    let digits := fraction.getD []
    let (significand, left) := gather head digits
    let taken := digits.length - left.length
    real significand ((dropped.length : Int) - taken + exponent.getD 0)

end Numeral

end Boardwright.Json
