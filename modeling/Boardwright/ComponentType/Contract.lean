import Boardwright.ComponentType.Property
import Boardwright.ComponentType.Signature
import Boardwright.ComponentType.Looper
import Boardwright.ComponentType.Instance

/-!
# Component types and their contract

A component type gathers the declarations of a module.  Its contract says which declarations fit
together: names are not blank and not repeated, a view binding joins a view and a controller, a view
makes no calls of its own, and a looper refers only to declared properties.

* **`ComponentType`**: the declarations.
* **`ContractFault`**: the ways to break the contract, with one message each.
* **`ComponentType.check`**: the first fault in the order of the declarations.
-/

namespace Boardwright

/-- The declarations of a component type. -/
structure ComponentType where
  /-- The object that the user sees. -/
  view : Option Instance := none
  /-- The object that does the work. -/
  controller : Option Instance := none
  /-- How the controller gets the view. -/
  viewBinding : Option Binding := none
  /-- The properties. -/
  properties : List Property := []
  /-- The events. -/
  events : List Event := []
  /-- The methods that are called again and again. -/
  loopers : List Looper := []
  /-- The methods that free functions forward to. -/
  methodWrappers : List MethodWrapper := []

namespace ComponentType

/-- The declaration of a property. -/
def property? (t : ComponentType) (name : String) : Option Property :=
  t.properties.find? fun p => p.name == name

/-- The declaration of an event. -/
def event? (t : ComponentType) (name : String) : Option Event :=
  t.events.find? fun e => e.name == name

end ComponentType

/-- The ways to break the contract of a component type. -/
inductive ContractFault where
  | blankProperty
  | repeatedProperty (name : String)
  | blankEvent
  | repeatedEvent (name : String)
  | viewBindingAlone
  | blankViewClass
  | viewInit
  | viewLoop
  | blankControllerClass
  | blankLooperMethod
  /-- The interval of a looper names no property. -/
  | interval (method : String)
  /-- The first delay of a looper names no property. -/
  | initialDelay (method : String)
  deriving DecidableEq, Repr

namespace ContractFault

/-- The message of a fault. -/
def message : ContractFault → String
  | .blankProperty => "Each component property must have a non-empty name."
  | .repeatedProperty name => s!"Duplicated property name ({name})."
  | .blankEvent => "Each component event must have a non-empty name."
  | .repeatedEvent name => s!"Duplicated event name ({name})."
  | .viewBindingAlone =>
    "View binding can be defined only if the component has a controller and a view."
  | .blankViewClass => "Invalid view instance description: class type cannot be empty."
  | .viewInit => "Init method for views is not allowed."
  | .viewLoop => "Loop method for views is not allowed."
  | .blankControllerClass =>
    "Invalid controller instance description: class type cannot be empty."
  | .blankLooperMethod => "Looper must have a looper method."
  | .interval method =>
    s!"Interval of looper with method {method} does not contain an integer value or property name."
  | .initialDelay method =>
    "Initial delay of looper with method " ++ method
      ++ " does not contain an integer value or property name."

/-- The failure that a fault leads to. -/
def toFailure (f : ContractFault) : Failure :=
  .configuration f.message

end ContractFault

/-! ### The checks, in their order -/

/-- The first name that is blank or occurred before, as a fault. -/
def checkNames (blank : ContractFault) (repeated : String → ContractFault) (seen : List String) :
    List String → Except ContractFault Unit
  | [] => .ok ()
  | name :: rest =>
    if Text.isBlankText name then .error blank
    else if name ∈ seen then .error (repeated name)
    else checkNames blank repeated (name :: seen) rest

namespace ComponentType

/-- A view binding needs both objects. -/
def checkViewBinding (t : ComponentType) : Except ContractFault Unit :=
  if t.viewBinding.isSome && (t.view.isNone || t.controller.isNone) then .error .viewBindingAlone
  else .ok ()

/-- A view has a class and makes no calls. -/
def checkView (t : ComponentType) : Except ContractFault Unit :=
  match t.view with
  | none => .ok ()
  | some v =>
    if Text.isBlankText v.classType then .error .blankViewClass
    else if v.init.isSome then .error .viewInit
    else if v.loop.isSome then .error .viewLoop
    else .ok ()

/-- A controller has a class. -/
def checkController (t : ComponentType) : Except ContractFault Unit :=
  match t.controller with
  | none => .ok ()
  | some c => if Text.isBlankText c.classType then .error .blankControllerClass else .ok ()

/-- Whether a timing refers to a property only if there is one. -/
def declares (t : ComponentType) : Timing → Bool
  | .property name => (t.property? name).isSome
  | _ => true

/-- A looper has a method and refers only to declared properties. -/
def checkLooper (t : ComponentType) (l : Looper) : Except ContractFault Unit :=
  if Text.isBlankText l.method then .error .blankLooperMethod
  else if !t.declares l.interval then .error (.interval l.method)
  else if !t.declares l.initialDelay then .error (.initialDelay l.method)
  else .ok ()

/-- The first fault of a component type. -/
def check (t : ComponentType) : Except ContractFault Unit := do
  checkNames .blankProperty .repeatedProperty [] (t.properties.map (·.name))
  checkNames .blankEvent .repeatedEvent [] (t.events.map (·.name))
  t.checkViewBinding
  t.checkView
  t.checkController
  t.loopers.forM t.checkLooper

end ComponentType

end Boardwright
