import Boardwright.Text.Blank

/-!
# Types of values

The types that a property or a stored item can be declared with, by the names a description uses.

* **`ValueType`**: what a declared name means.
* **`ValueType.ofName?`**: the table of names.
* **`ValueType.size`**: the bytes of a stored value; zero when it cannot be stored.
* **`ValueType.carrier`**: the type that holds the value in the generated program.
* **`IntegerType.least`**, **`IntegerType.greatest`**: the range of a whole number.
-/

namespace Boardwright

/-- A type of whole numbers. -/
structure IntegerType where
  /-- Whether negative numbers belong to it. -/
  signed : Bool
  /-- Its width in bytes. -/
  bytes : Nat
  /-- The letters that end a literal of the type. -/
  suffix : String
  deriving DecidableEq, Repr

namespace IntegerType

/-- The least number of the type. -/
def least (t : IntegerType) : Int :=
  if t.signed then -(Nat.pow 2 (t.bytes * 8 - 1) : Int) else 0

/-- The greatest number of the type. -/
def greatest (t : IntegerType) : Int :=
  if t.signed then (Nat.pow 2 (t.bytes * 8 - 1) : Int) - 1 else (Nat.pow 2 (t.bytes * 8) : Int) - 1

end IntegerType

/-- The meaning of a declared type. -/
inductive ValueType where
  | bool
  | char
  | integer (type : IntegerType)
  | float
  /-- A text, or no text at all. -/
  | string
  /-- A text that is kept in flash memory. -/
  | flashString
  | analogPin
  | digitalPin
  /-- An analog or a digital pin. -/
  | pin
  | interrupt
  | hardwareSerial
  /-- A name that stands for a number. -/
  | enumeration
  deriving DecidableEq, Repr

namespace ValueType

/-- The declared names and their meaning. -/
def table : List (String × ValueType) :=
  [("bool", .bool),
   ("char", .char),
   ("byte", .integer ⟨false, 1, ""⟩),
   ("unsigned char", .integer ⟨false, 1, ""⟩),
   ("uint8_t", .integer ⟨false, 1, ""⟩),
   ("signed char", .integer ⟨true, 1, ""⟩),
   ("int8_t", .integer ⟨true, 1, ""⟩),
   ("word", .integer ⟨false, 2, ""⟩),
   ("uint16_t", .integer ⟨false, 2, ""⟩),
   ("unsigned int", .integer ⟨false, 2, "u"⟩),
   ("int", .integer ⟨true, 2, ""⟩),
   ("signed int", .integer ⟨true, 2, ""⟩),
   ("int16_t", .integer ⟨true, 2, ""⟩),
   ("unsigned long", .integer ⟨false, 4, "ul"⟩),
   ("uint32_t", .integer ⟨false, 4, "ul"⟩),
   ("long", .integer ⟨true, 4, "l"⟩),
   ("signed long", .integer ⟨true, 4, "l"⟩),
   ("int32_t", .integer ⟨true, 4, "l"⟩),
   ("float", .float),
   ("double", .float),
   ("string", .string),
   ("f-string", .flashString),
   ("analog-pin", .analogPin),
   ("digital-pin", .digitalPin),
   ("pin", .pin),
   ("interrupt", .interrupt),
   ("hardware-serial", .hardwareSerial),
   ("enumeration", .enumeration)]

/-- The type with a declared name; blanks around the name do not count. -/
def ofName? (name : String) : Option ValueType :=
  table.lookup (Text.trim name)

/-- The bytes of a stored value, or zero when the type cannot be stored. -/
def size : ValueType → Nat
  | .bool | .char => 1
  | .integer t => t.bytes
  | .float => 4
  | .analogPin | .digitalPin | .pin | .interrupt => 1
  | .enumeration => 2
  | .string | .flashString | .hardwareSerial => 0

/-- The type that holds a value in the generated program; `declared` is the name in the
description. -/
def carrier (t : ValueType) (declared : String) : String :=
  match t with
  | .analogPin | .digitalPin | .pin | .interrupt => "byte"
  | .enumeration => "int"
  | _ => Text.trim declared

/-- The least and the greatest number of an integer type. -/
def range? : ValueType → Option (Int × Int)
  | .integer t => some (t.least, t.greatest)
  | _ => none

end ValueType

/-- The bytes of a stored value of the declared type, or zero when there is no such type or it cannot
be stored. -/
def storedSize (type : String) : Nat :=
  ((ValueType.ofName? type).map ValueType.size).getD 0

end Boardwright
