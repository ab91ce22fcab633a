import Boardwright.Board.Literal
import Boardwright.Failure
import Boardwright.Project

/-!
# Layout of the permanent storage

The first four bytes of the storage hold the version of the layout.  The items follow in the order of
their declaration, without gaps.  Addresses are 32 bit numbers.

* **`Slot`**: an item with its place and its declaration in the generated program.
* **`allocate`**: the slots of a list of items, or the first item that has no place.
* **`Slot.initialization`**: the statement that stores the first value of an item.
-/

namespace Boardwright.Storage

/-- The bytes of the layout version. -/
def versionBytes : Nat := 4

/-- One more than the highest address. -/
def addressBound : Nat := 4294967296

/-- An item with its place. -/
structure Slot where
  /-- The item. -/
  item : StoredItem
  /-- The address of its first byte. -/
  offset : Nat
  /-- The number of its bytes. -/
  size : Nat
  /-- Its declaration in the generated program. -/
  declaration : String
  deriving DecidableEq

/-- The declaration of a slot for other files of the generated program. -/
def Slot.externDeclaration (s : Slot) : String :=
  "extern " ++ s.declaration

/-- The slots of all items. -/
structure Layout where
  /-- The slots, by increasing addresses. -/
  slots : List Slot
  /-- The bytes in use, with the version; none without items. -/
  usage : Nat
  deriving DecidableEq

/-- The declarations of all slots. -/
def Layout.declarations (l : Layout) : List String :=
  l.slots.map (·.declaration)

/-- Why an item has no place. -/
inductive LayoutFault where
  /-- Values of its type cannot be stored. -/
  | unsupported (type name : String)
  /-- It does not fit below the highest address. -/
  | tooLarge (name : String)
  deriving DecidableEq, Repr

/-- The message of a fault. -/
def LayoutFault.message : LayoutFault → String
  | .unsupported type name =>
    "Type '" ++ type ++ "' of eeprom item '" ++ name
      ++ "' is not supported as a type of an eeprom variable."
  | .tooLarge name => s!"EEPROM layout of item '{name}' exceeds the addressable size."

/-- The failure that a fault leads to. -/
def LayoutFault.toFailure (f : LayoutFault) : Failure :=
  .compilation f.message

/-- The number of elements of an item. -/
def itemCount (item : StoredItem) : Nat :=
  match item.length with
  | some n => n.toNat
  | none => 1

/-- The bytes of an item, or zero when values of its type cannot be stored. -/
def itemSize (item : StoredItem) : Nat :=
  storedSize item.type * itemCount item

/-- The slot of an item at an address. -/
def placeAt (offset : Nat) (item : StoredItem) : Except LayoutFault Slot :=
  if storedSize item.type = 0 then .error (.unsupported item.type item.name)
  else if addressBound ≤ itemSize item then .error (.tooLarge item.name)
  else if addressBound ≤ offset + itemSize item then .error (.tooLarge item.name)
  else
    match storageClass? item.type offset item.cached item.length with
    | none => .error (.unsupported item.type item.name)
    | some type => .ok ⟨item, offset, itemSize item, type ++ " " ++ item.name ++ ";"⟩

/-- The slots of items from an address on. -/
def placeFrom (offset : Nat) : List StoredItem → Except LayoutFault (List Slot)
  | [] => .ok []
  | item :: rest => do
    let slot ← placeAt offset item
    let slots ← placeFrom (offset + slot.size) rest
    return slot :: slots

/-- The end of the last slot, or zero without slots. -/
def usageOf (slots : List Slot) : Nat :=
  match slots.getLast? with
  | some s => s.offset + s.size
  | none => 0

/-- The layout of a list of items. -/
def allocate (items : List StoredItem) : Except LayoutFault Layout := do
  let slots ← placeFrom versionBytes items
  return ⟨slots, usageOf slots⟩

/-- The statement that stores the first value of an item, if it has one. -/
def Slot.initialization (s : Slot) (board : Board) : Except Failure (Option String) :=
  match s.item.initialValue with
  | none => .ok none
  | some value =>
    let refused : Failure := .compilation <|
      "The value '" ++ value ++ "' is not valid initialization value for the eeprom variable '"
        ++ s.item.name ++ "'."
    if board.accepts s.item.type (some value) then
      match literal? s.item.type (some value) with
      | some text =>
        let method := if s.item.length.isSome then "fill" else "setValue"
        .ok (some (s.item.name ++ "." ++ method ++ "(" ++ text ++ ");"))
      | none => .error refused
    else .error refused

end Boardwright.Storage
