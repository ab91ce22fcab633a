/-!
# Failures

A failure ends the work on a project.  It says which half of the work refused the input and carries a
chain of messages: what was being done, and below it the causes, outermost first.

* **`Failure.Kind`**: a description breaks its rules, or well-formed descriptions cannot be built.
* **`Failure`**: a kind, a message and the messages of the causes.
* **`Failure.causedBy`**: the same failure with the chain of another one below it.
-/

namespace Boardwright

/-- Which half of the work failed. -/
inductive Failure.Kind where
  /-- A description or a setting is malformed or inconsistent. -/
  | configuration
  /-- Well-formed descriptions cannot be put together. -/
  | compilation
  deriving DecidableEq, Repr

/-- The name of a kind. -/
def Failure.Kind.name : Failure.Kind → String
  | .configuration => "configuration"
  | .compilation => "compilation"

/-- A failure with the messages of its causes. -/
structure Failure where
  /-- Which half of the work failed. -/
  kind : Failure.Kind
  /-- What failed. -/
  message : String
  /-- The messages of the causes, outermost first. -/
  causes : List String := []
  deriving DecidableEq, Repr

namespace Failure

/-- A failure of a description. -/
def configuration (message : String) : Failure where
  kind := .configuration
  message := message

/-- A failure of the build. -/
def compilation (message : String) : Failure where
  kind := .compilation
  message := message

/-- All messages, outermost first. -/
def chain (f : Failure) : List String :=
  f.message :: f.causes

/-- The failure `f` with `inner` as its cause. -/
def causedBy (f inner : Failure) : Failure :=
  { f with causes := inner.chain }

/-- The failure `f` with the given messages as its causes. -/
def because (f : Failure) (causes : List String) : Failure :=
  { f with causes := causes }

@[simp] theorem chain_causedBy (f inner : Failure) :
    (f.causedBy inner).chain = f.message :: inner.chain := rfl

@[simp] theorem kind_causedBy (f inner : Failure) : (f.causedBy inner).kind = f.kind := rfl

end Failure

end Boardwright
