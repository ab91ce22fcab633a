import Boardwright.Generation.Objects
import Boardwright.Generation.StoredTemplate

/-!
# The table of loopers

Every looper of every component gets a row in a table of the generated program, with the time of its
first call and a handler.  An array lists the rows by the time of their first calls.

* **`resolveTiming`**: the number of milliseconds that a timing means for a component.
* **`LooperRecord`**: a looper of a component, with its times.
* **`byDelay`**: the numbers of the loopers by the times of their first calls.
* **`looperSection`**: the text of the table.
-/

namespace Boardwright.Generation

/-- A looper of a component. -/
structure LooperRecord where
  /-- The object that is called. -/
  controller : String
  /-- The method that is called. -/
  method : String
  /-- The time between two calls; without it the method itself says when to call it again. -/
  interval : Option Int
  /-- The time before the first call. -/
  initialDelay : Int
  deriving DecidableEq, Repr

/-- The milliseconds that a timing means for a component; nothing when it is not given or blank. -/
def resolveTiming (timing : Timing) (c : Component) (t : ComponentType) :
    Except Failure (Option Int) :=
  match timing with
  | .unset => .ok none
  | .millis n => .ok (some n)
  | .property name =>
    match t.property? name with
    | none => .error (.compilation s!"Undefined property '{name}'.")
    | some p =>
      match (p.effective (c.properties.get? name)).bind Text.nonBlank? with
      | none => .ok none
      | some text =>
        match Text.int64? text with
        | some n => .ok (some n)
        | none =>
          .error (.compilation
            s!"The value of property '{name}' cannot be converted to an integer value.")

/-- A failure of one of the times of a looper. -/
def timingFailure (what component : String) (inner : Failure) : Failure :=
  (Failure.compilation
    s!"Invalid value of {what} of looper of the component '{component}'.").causedBy inner

/-- The record of a looper.  A negative interval counts as none, a negative delay as zero. -/
def LooperRecord.resolve (controller method : String) (interval initialDelay : Timing)
    (c : Component) (t : ComponentType) : Except Failure LooperRecord := do
  let i ← (resolveTiming interval c t).mapError (timingFailure "interval" c.name)
  let d ← (resolveTiming initialDelay c t).mapError (timingFailure "initial delay" c.name)
  return ⟨controller, method, i.filter (0 ≤ ·), max (d.getD 0) 0⟩

/-- The name of a handler. -/
def handlerName (i : Nat) : String :=
  s!"looper_handler_{i}"

/-- The lines of the handler of a looper. -/
def handlerLines (i : Nat) (r : LooperRecord) : List String :=
  let call := r.controller ++ "." ++ r.method ++ "()"
  let head := "unsigned long " ++ handlerName i ++ "() \x7b"
  match r.interval with
  | some ms =>
    [head, Template.indent ++ call ++ ";", Template.indent ++ "return " ++ toString ms ++ ";", "\x7d"]
  | none => [head, Template.indent ++ "return " ++ call ++ ";", "\x7d"]

/-- The lines of all handlers from number `i` on, with an empty line between two of them. -/
def handlersFrom (i : Nat) : List LooperRecord → List String
  | [] => []
  | [r] => handlerLines i r
  | r :: rest => handlerLines i r ++ "" :: handlersFrom (i + 1) rest

/-- The rows of the table from number `i` on; all but the last end in a comma. -/
def rowsFrom (i : Nat) : List LooperRecord → List String
  | [] => []
  | r :: rest =>
    let row := "\x7b" ++ toString r.initialDelay ++ ", ENABLED, " ++ handlerName i ++ "\x7d"
    (if rest.isEmpty then row else row ++ ",") :: rowsFrom (i + 1) rest

/-- The first delays with the numbers of their loopers, from number `i` on. -/
def delaysFrom (i : Nat) : List LooperRecord → List (Int × Nat)
  | [] => []
  | r :: rest => (r.initialDelay, i) :: delaysFrom (i + 1) rest

/-- The numbers of the loopers by increasing first delays; equal delays stay in order. -/
def byDelay (records : List LooperRecord) : List Nat :=
  ((delaysFrom 0 records).mergeSort fun a b => decide (a.1 ≤ b.1)).map (·.2)

/-- What the template of the table is filled with. -/
def looperReplacements (records : List LooperRecord) (ns : String) : Template.Replacements :=
  let queue := (byDelay records).map fun i => "loopers + " ++ toString i
  Dict.ofList
    [("privateNamespace", ns),
     ("numberOfLoopers", toString records.length),
     ("looperHandlers", Text.mergeLines (handlersFrom 0 records) ""),
     ("loopersInit", Text.mergeLines (rowsFrom 0 records) Template.indent),
     ("pqInit", "\x7b" ++ ", ".intercalate queue ++ "\x7d")]

/-- The text of the table; nothing without loopers. -/
def looperSection (records : List LooperRecord) (ns : String) : String :=
  if records.isEmpty then ""
  else Template.fill StoredTemplate.looperTable.text (looperReplacements records ns)

/-- The lines of the loop that call the loopers. -/
def looperLoop (records : List LooperRecord) (ns : String) : List String :=
  if records.isEmpty then [] else ["// Process loopers", ns ++ "::processLoopers();"]

end Boardwright.Generation
