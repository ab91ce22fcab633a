import Boardwright.Failure
import Boardwright.FileTree.Files
import Boardwright.Json.Shape
import Boardwright.Text.Blank

/-!
# Description files

A description is a file with a JSON object that has one member.  The key of the member says what is
described, and its value is the description.

* **`DocumentFault`**: the ways in which a file can fail to be a description.
* **`readDocument`**: the key and the value of a description file.
* **`nonBlankTexts`**: texts without the blanks around them, blank ones left out.
-/

namespace Boardwright.Description

/-- The ways in which a file can fail to be a description. -/
inductive DocumentFault where
  /-- The file cannot be read. -/
  | unreadable (path : Path) (fault : IoFault)
  /-- The file does not hold a JSON object. -/
  | notJson (path : Path) (fault : Json.Fault)
  /-- The object has not exactly one member. -/
  | root (path : Path)
  /-- The description has the wrong shape. -/
  | shape (tag : String)
  deriving DecidableEq, Repr

namespace DocumentFault

/-- The message of a fault. -/
def message : DocumentFault → String
  | .unreadable path _ => "file " ++ path.text ++ " cannot be read"
  | .notJson path fault => "file " ++ path.text ++ " is not valid JSON: " ++ fault.message
  | .root path => "file " ++ path.text ++ " must hold an object with exactly one root key"
  | .shape tag => "invalid '" ++ tag ++ "' description: " ++ Json.Fault.misshapen.message

/-- The cause of a fault. -/
def cause : DocumentFault → List String
  | .unreadable _ fault => [fault.message]
  | .notJson _ fault => [fault.message]
  | .root _ => []
  | .shape _ => [Json.Fault.misshapen.message]

/-- The failure that a fault leads to. -/
def toFailure (f : DocumentFault) : Failure :=
  (Failure.configuration f.message).because (f.message :: f.cause)

end DocumentFault

/-- The key and the value of a description file. -/
def readDocument (tree : FileTree) (path : Path) :
    Except DocumentFault (String × Json.Value) :=
  match tree.readText path with
  | .error fault => .error (.unreadable path fault)
  | .ok text =>
    match Json.readObject text with
    | .error fault => .error (.notJson path fault)
    | .ok [member] => .ok member
    | .ok _ => .error (.root path)

/-- A description of the expected shape. -/
def shaped {α : Type} (tag : String) (shape : Json.Value → Option α) (body : Json.Value) :
    Except Failure α :=
  match shape body with
  | some a => .ok a
  | none => .error (DocumentFault.shape tag).toFailure

/-- Texts without the blanks around them; blank ones are left out. -/
def nonBlankTexts (texts : List String) : List String :=
  texts.filterMap Text.nonBlank?

/-- A failure below a configuration failure. -/
def within {α : Type} (message : String) (r : Except Failure α) : Except Failure α :=
  r.mapError fun inner => (Failure.configuration message).causedBy inner

end Boardwright.Description
