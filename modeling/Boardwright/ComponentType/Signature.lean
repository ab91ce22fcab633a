import Boardwright.Binding

/-!
# Events, wrapped methods and their signatures

An event is handled by a function of the user, and a wrapped method is forwarded to by a function of
the generated program.  Both have parameters and a result.

* **`Parameter`**: a type and perhaps a name; a parameter without a name is called by its position.
* **`namedParameters_eq`**: the parameters with their names, by position.
* **`signature`**: the head of a function.
* **`Event`**, **`MethodWrapper`**: the declarations of a component type.
-/

namespace Boardwright

/-- A parameter of a function. -/
structure Parameter where
  /-- Its type. -/
  type : String
  /-- Its name, if it was given one. -/
  name : Option String
  deriving DecidableEq, Repr

namespace Parameter

/-- A parameter of the given type; a blank name is no name, and a blank type is refused. -/
def make (type : String) (name : Option String) : Except Failure Parameter :=
  if Text.isBlankText type then .error (.configuration "Parameter type cannot be empty.")
  else .ok ⟨Text.trim type, name.filter fun n => !Text.isBlankText n⟩

/-- The name of the parameter at a position. -/
def nameAt (p : Parameter) (index : Nat) : String :=
  match p.name with
  | some n => n
  | none => s!"arg{index}"

end Parameter

/-- The names of the parameters from position `index` on. -/
def parameterNamesFrom (index : Nat) : List Parameter → List String
  | [] => []
  | p :: ps => p.nameAt index :: parameterNamesFrom (index + 1) ps

/-- The names of parameters. -/
def parameterNames (ps : List Parameter) : List String :=
  parameterNamesFrom 0 ps

/-- The result type of a function; nothing or a blank text mean `void`. -/
def resultName (result : Option String) : String :=
  match result with
  | none => "void"
  | some r =>
    let t := Text.trim r
    if t.isEmpty then "void" else t

/-- The parameters of a function with their names. -/
def namedParameters (ps : List Parameter) : List String :=
  List.zipWith (fun p n => p.type ++ " " ++ n) ps (parameterNames ps)

theorem Parameter.nameAt_eq (p : Parameter) (i : Nat) :
    p.nameAt i = p.name.getD ("arg" ++ toString i) := by
  rw [Parameter.nameAt]
  cases p.name with
  | none => rfl
  | some n => rfl

theorem parameterNamesFrom_eq (index : Nat) (ps : List Parameter) :
    parameterNamesFrom index ps = (ps.zipIdx index).map fun x => x.1.nameAt x.2 := by
  induction ps generalizing index with
  | nil => rfl
  | cons p ps ih => rw [parameterNamesFrom, ih, List.zipIdx_cons, List.map_cons]

theorem namedParameters_eq (ps : List Parameter) :
    namedParameters ps = ps.zipIdx.map fun x => x.1.type ++ " " ++ x.1.nameAt x.2 := by
  have hnames : ∀ index, List.zipWith (fun p n => p.type ++ " " ++ n) ps (parameterNamesFrom index ps) =
      (ps.zipIdx index).map fun x => x.1.type ++ " " ++ x.1.nameAt x.2 := by
    induction ps with
    | nil => exact fun _ => rfl
    | cons p ps ih =>
      intro index
      rw [parameterNamesFrom, List.zipWith_cons_cons, ih, List.zipIdx_cons, List.map_cons]
  exact hnames 0

/-- The head of a function, with the names of its parameters or with their types only. -/
def signature (result : Option String) (name : String) (ps : List Parameter) (named : Bool) :
    String :=
  let list := if named then namedParameters ps else ps.map (·.type)
  resultName result ++ " " ++ name ++ "(" ++ ", ".intercalate list ++ ")"

/-- An event that a component can raise. -/
structure Event where
  /-- The name that components set a handler by. -/
  name : String
  /-- The parameters of a handler. -/
  parameters : List Parameter := []
  /-- The result of a handler. -/
  result : Option String := none
  /-- How the controller gets the handler. -/
  binding : Option Binding := none
  /-- A text for readers. -/
  description : String := ""
  deriving DecidableEq, Repr

/-- The head of the function `handler` that handles the event. -/
def Event.handlerHead (e : Event) (handler : String) (named : Bool) : String :=
  signature e.result handler e.parameters named

/-- A method of the controller that a free function forwards to. -/
structure MethodWrapper where
  /-- The method. -/
  method : String
  /-- The parameters of the method. -/
  parameters : List Parameter := []
  /-- The result of the method. -/
  result : Option String := none
  /-- The name by which templates can refer to the function. -/
  publishedAs : Option String := none
  /-- How the controller gets the function. -/
  binding : Option Binding := none
  deriving DecidableEq, Repr

namespace MethodWrapper

/-- The head of the forwarding function. -/
def head (w : MethodWrapper) (name : String) : String :=
  signature w.result name w.parameters true

/-- The call that forwards all parameters to `target`. -/
def call (w : MethodWrapper) (target : String) : String :=
  target ++ "(" ++ ", ".intercalate (parameterNames w.parameters) ++ ")"

/-- Whether the forwarding function has a result. -/
def returnsValue (w : MethodWrapper) : Bool :=
  match w.result with
  | none => false
  | some r =>
    let t := Text.trim r
    !(t == "" || t == "void")

end MethodWrapper

end Boardwright
