/-!
# Objects of a component

A component is represented in the generated program by a view, which the user sees, and a controller,
which does the work.  Their class, constructor and calls are templates over the values of the
component.
-/

namespace Boardwright

/-- A call of a method of an object. -/
structure MethodCall where
  /-- The method. -/
  method : String
  /-- The template of the arguments. -/
  arguments : String
  deriving DecidableEq, Repr

/-- An object that every component of a type gets. -/
structure Instance where
  /-- Headers of the module that declare the class. -/
  includes : List String := []
  /-- The template of the class. -/
  classType : String
  /-- The template of the arguments of the constructor. -/
  constructor : Option String := none
  /-- A call made once at the start. -/
  init : Option MethodCall := none
  /-- A call made in every pass of the loop. -/
  loop : Option MethodCall := none
  deriving DecidableEq, Repr

end Boardwright
