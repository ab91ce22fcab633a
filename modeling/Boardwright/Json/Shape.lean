import Boardwright.Json.Value

/-!
# Shapes of JSON values

Reading of values into what a description expects.  A value of another shape gives nothing.

A record is an object with known members, or an array of the same values in their order.  A member
that has a default may be missing in both forms; a member that may be `null` may be missing in the
object, but not in the array.

* **`text`**, **`flag`**, **`int64`**, **`list`**, **`members`**, **`nullable`**: values of one sort.
* **`Record`**: the two forms of a record.
* **`Record.required`**, **`Record.withDefault`**, **`Record.nullable`**: the members of a record.
* **`Scalar`**: a truth value, a number or a text, and the text it stands for.
-/

namespace Boardwright.Json

namespace Shape

variable {α : Type}

/-- A text. -/
def text : Value → Option String
  | .text s => some s
  | _ => none

/-- A truth value. -/
def flag : Value → Option Bool
  | .bool b => some b
  | _ => none

/-- A signed number of at most 64 bits. -/
def int64 : Value → Option Int
  | .number (.whole n) => if n ≤ 9223372036854775807 then some n else none
  | _ => none

/-- An array with items of one shape. -/
def list (item : Value → Option α) : Value → Option (List α)
  | .array items => items.mapM item
  | _ => none

/-- An object with values of one shape, by increasing keys. -/
def members (item : Value → Option α) : Value → Option (List (String × α))
  | .object ms => ms.mapM fun m => (item m.2).map fun v => (m.1, v)
  | _ => none

/-- A value that may be `null`. -/
def nullable (item : Value → Option α) : Value → Option (Option α)
  | .null => some none
  | v => (item v).map some

end Shape

/-- The two forms of a record. -/
inductive Record where
  /-- Members by name. -/
  | named (members : List (String × Value))
  /-- Members by position. -/
  | positional (items : List Value)

namespace Record

variable {α : Type}

/-- A record with `arity` members in either form. -/
def ofValue? (arity : Nat) : Value → Option Record
  | .object ms => some (.named ms)
  | .array items => if items.length ≤ arity then some (.positional items) else none
  | _ => none

/-- A record with named members. -/
def namedOfValue? : Value → Option Record
  | .object ms => some (.named ms)
  | _ => none

/-- The value of a member, by its name or its position. -/
def find? (r : Record) (position : Nat) (name : String) : Option Value :=
  match r with
  | .named ms => findValue? name ms
  | .positional items => items[position]?

/-- A member that must be there. -/
def required (r : Record) (position : Nat) (name : String) (shape : Value → Option α) : Option α :=
  (r.find? position name).bind shape

/-- A member that has a default. -/
def withDefault (r : Record) (position : Nat) (name : String) (shape : Value → Option α)
    (default : α) : Option α :=
  match r.find? position name with
  | some v => shape v
  | none => some default

/-- A member that may be `null`, and may be missing in an object. -/
def nullable (r : Record) (position : Nat) (name : String) (shape : Value → Option α) :
    Option (Option α) :=
  match r, r.find? position name with
  | _, some v => Shape.nullable shape v
  | .named _, none => some none
  | .positional _, none => none

end Record

/-- A truth value, a number or a text. -/
inductive Scalar where
  | bool (b : Bool)
  /-- A signed number of at most 64 bits. -/
  | int (n : Int)
  /-- Any other number. -/
  | real (x : Binary64)
  | text (s : String)
  deriving DecidableEq, Repr

namespace Scalar

/-- The scalar that a value is. -/
def ofValue? : Value → Option Scalar
  | .bool b => some (.bool b)
  | .number (.whole n) =>
    if n ≤ 9223372036854775807 then some (.int n)
    else some (.real ⟨false, Magnitude.ofNat n.toNat⟩)
  | .number (.real x) => some (.real x)
  | .text s => some (.text s)
  | _ => none

/-- The text that a scalar stands for. -/
def toText : Scalar → String
  | .bool b => if b then "true" else "false"
  | .int n => toString n
  | .real x => x.text
  | .text s => s

end Scalar

end Boardwright.Json
