import Boardwright.Binding
import Boardwright.Text.Numeral

/-!
# Loopers

A looper is a method of a controller that the generated program calls again and again.  Its interval
and its first delay are given in milliseconds or by a property of the component.
-/

namespace Boardwright

/-- An interval or a first delay. -/
inductive Timing where
  /-- Not given. -/
  | unset
  /-- A number of milliseconds. -/
  | millis (n : Int)
  /-- The value of a property of the component. -/
  | property (name : String)
  deriving DecidableEq, Repr

/-- Reads a timing: nothing, a number, or else the name of a property. -/
def Timing.read (text : String) : Timing :=
  let t := Text.trim text
  if t.isEmpty then .unset
  else
    match Text.int64? t with
    | some n => .millis n
    | none => .property t

/-- A method that is called again and again. -/
structure Looper where
  /-- The method. -/
  method : String
  /-- The time between two calls. -/
  interval : Timing := .unset
  /-- The time before the first call. -/
  initialDelay : Timing := .unset
  /-- How the controller gets the number of the looper. -/
  idBinding : Option Binding := none
  deriving DecidableEq, Repr

end Boardwright
