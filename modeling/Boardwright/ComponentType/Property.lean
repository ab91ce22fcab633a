import Boardwright.Binding

/-!
# Properties of component types

A component type declares properties, each with a type and perhaps a value of its own.  A fixed value
always counts; a default counts only where a component sets nothing.

* **`Predefined`**: a value that the component type brings along.
* **`Property`**: the declaration of a property.
* **`Property.effective`**: the value that counts for a component.
-/

namespace Boardwright

/-- A value that a component type brings along. -/
inductive Predefined where
  /-- Counts whatever a component sets. -/
  | fixed (value : String)
  /-- Counts where a component sets nothing. -/
  | fallback (value : String)
  deriving DecidableEq, Repr

namespace Predefined

/-- Reads the kind of a predefined value, regardless of case and surrounding blanks; a blank kind is a
default. -/
def read (kind value : String) : Except Failure Predefined :=
  let key := Text.asciiLower (Text.trim kind)
  if key = "" ∨ key = "default" then .ok (.fallback value)
  else if key = "fixed" then .ok (.fixed value)
  else .error (.configuration s!"Unknown value type: {kind}")

/-- The value, of whatever kind. -/
def value : Predefined → String
  | .fixed v => v
  | .fallback v => v

/-- The name of the kind. -/
def kindName : Predefined → String
  | .fixed _ => "fixed"
  | .fallback _ => "default"

end Predefined

/-- The declaration of a property. -/
structure Property where
  /-- The name that components set it by. -/
  name : String
  /-- The declared type of its values. -/
  type : String
  /-- A value that the component type brings along. -/
  predefined : Option Predefined := none
  /-- How the controller gets the value. -/
  binding : Option Binding := none
  /-- A text for readers. -/
  description : String := ""
  /-- Which effective values are allowed, beyond those of the type. -/
  permits : Option String → Bool := fun _ => true

/-- The value that counts when a component sets `configured`. -/
def Property.effective (p : Property) (configured : Option String) : Option String :=
  match p.predefined, configured with
  | some (.fixed v), _ => some v
  | some (.fallback v), none => some v
  | some (.fallback _), some c => some c
  | none, c => c

end Boardwright
