import Boardwright.Board.Literal
import Boardwright.Generation.State

/-!
# Objects of components in the generated program

The class, the constructor and the calls of an object are templates.  They are filled with the
literals of the component's properties and with the values that the component has published; of two
values with one name the published one counts.
-/

namespace Boardwright.Generation

/-- The value of a property that counts for a component. -/
def effectiveValue (c : Component) (p : Property) : Option String :=
  p.effective (c.properties.get? p.name)

/-- The literal of a property's value for a component. -/
def propertyLiteral? (c : Component) (p : Property) : Option String :=
  literal? p.type (effectiveValue c p)

/-- The literals of all properties that have one, by name. -/
def propertyLiterals (c : Component) (t : ComponentType) : List (String × String) :=
  t.properties.filterMap fun p => (propertyLiteral? c p).map fun v => (p.name, v)

/-- What the templates of a component are filled with. -/
def replacements (published : Published) (c : Component) (t : ComponentType) :
    Template.Replacements :=
  let own := ((published.get? c.name).getD .empty).entries
  (propertyLiterals c t ++ own).foldl (fun d e => d.insert e.1 e.2) .empty

/-- A template filled in, without the blanks around it. -/
def fillTrimmed (template : String) (r : Template.Replacements) : String :=
  Text.trim (Template.fill template r)

/-- The class of an object. -/
def classOf (i : Instance) (r : Template.Replacements) : String :=
  fillTrimmed i.classType r

/-- The arguments of the constructor between brackets, or nothing. -/
def constructorArguments (i : Instance) (r : Template.Replacements) : String :=
  match i.constructor with
  | some arguments => "(" ++ fillTrimmed arguments r ++ ")"
  | none => ""

/-- The definition of an object. -/
def definition (i : Instance) (object : String) (r : Template.Replacements) : String :=
  classOf i r ++ " " ++ object ++ constructorArguments i r ++ ";"

/-- The statement that calls a method of an object. -/
def callStatement (call : MethodCall) (object : String) (r : Template.Replacements) : String :=
  object ++ "." ++ call.method ++ "(" ++ fillTrimmed call.arguments r ++ ");"

/-- The line that includes a header of a module. -/
def includeLine (module file : String) : String :=
  Text.collapseSlashes ("#include <" ++ modulePath module ++ "/" ++ file ++ ">")

end Boardwright.Generation
