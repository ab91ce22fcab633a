import Boardwright.Failure
import Boardwright.Text.Blank

/-!
# Bindings

A binding says how a value reaches an object of the generated program: it is assigned to an attribute
of the object, or handed to one of its methods.
-/

namespace Boardwright

/-- The two ways to hand a value to an object. -/
inductive Binding.Kind where
  /-- The value is assigned to an attribute. -/
  | attribute
  /-- The value is the argument of a method. -/
  | method
  deriving DecidableEq, Repr

/-- The name of a kind of binding. -/
def Binding.Kind.name : Binding.Kind → String
  | .attribute => "attribute"
  | .method => "method"

/-- Reads the name of a kind, regardless of case and surrounding blanks. -/
def Binding.Kind.read (s : String) : Except Failure Binding.Kind :=
  let key := Text.asciiLower (Text.trim s)
  if key = "attribute" then .ok .attribute
  else if key = "method" then .ok .method
  else .error (.configuration s!"Unknown binding type: {s}")

/-- A way to hand a value to an object. -/
structure Binding where
  /-- Assignment or call. -/
  kind : Binding.Kind
  /-- The attribute or the method. -/
  target : String
  deriving DecidableEq, Repr

/-- The statement that hands `value` to `object`. -/
def Binding.statement (b : Binding) (object value : String) : String :=
  match b.kind with
  | .attribute => object ++ "." ++ b.target ++ " = " ++ value ++ ";"
  | .method => object ++ "." ++ b.target ++ "(" ++ value ++ ");"

end Boardwright
