import Boardwright.Artifacts
import Boardwright.Failure
import Boardwright.Schedule
import Boardwright.Text.Template

/-!
# Pipelines of generators

A generator works in two phases.  In the first it prepares its output and may change the shared state;
in the second it writes files and only reads the state.  A pipeline schedules its generators by their
dependencies and runs all first phases before any second one, so every file is written from the final
state.

* **`Generator`**: the two phases, over any shared state and any place where results go.
* **`Pipeline.run`**: the run, which stops at the first failure and keeps what was done until then.
* **`save`**: how generators write a file.
-/

namespace Boardwright.Generation

variable {σ τ : Type}

/-- A generator over the shared states `σ` and the places `τ` where results go. -/
structure Generator (σ τ : Type) where
  /-- The name of the generator. -/
  name : String
  /-- The first phase: the state afterwards, and the output or a failure. -/
  prepare : σ → σ × Except Failure Template.Replacements
  /-- The second phase: the results afterwards, and perhaps a failure. -/
  generate : σ → Template.Replacements → τ → τ × Except Failure Unit

/-- Generators and the generators that each must run after. -/
structure Pipeline (σ τ : Type) where
  /-- The generators. -/
  generators : List (Generator σ τ)
  /-- The numbers of the generators that each generator must run after. -/
  after : List (List Nat)

/-- What a run leaves behind. -/
structure Run (σ τ : Type) where
  /-- The shared state. -/
  state : σ
  /-- The results. -/
  results : τ
  /-- Success or the failure that ended the run. -/
  outcome : Except Failure Unit

/-- Runs first phases in order, up to the first failure. -/
def prepareAll : List (Generator σ τ) → σ →
    σ × Except Failure (List (Generator σ τ × Template.Replacements))
  | [], s => (s, .ok [])
  | g :: rest, s =>
    match g.prepare s with
    | (s, .error f) => (s, .error f)
    | (s, .ok output) =>
      match prepareAll rest s with
      | (s, .error f) => (s, .error f)
      | (s, .ok prepared) => (s, .ok ((g, output) :: prepared))

/-- Runs second phases in order, up to the first failure. -/
def generateAll (s : σ) : List (Generator σ τ × Template.Replacements) → τ →
    τ × Except Failure Unit
  | [], t => (t, .ok ())
  | (g, output) :: rest, t =>
    match g.generate s output t with
    | (t, .error f) => (t, .error f)
    | (t, .ok ()) => generateAll s rest t

namespace Pipeline

/-- The dependencies of the generators. -/
def graph (p : Pipeline σ τ) : JobGraph where
  names := p.generators.map (·.name)
  after := p.after

/-- The order in which the generators run. -/
def order (p : Pipeline σ τ) : Except Failure (List Nat) :=
  match p.graph.schedule with
  | .ok order => .ok order
  | .error cycle =>
    .error ((Failure.compilation "Circular dependencies of content generators.").because
      [cycle.message])

/-- The generators in the order in which they run. -/
def scheduled (p : Pipeline σ τ) : Except Failure (List (Generator σ τ)) :=
  p.order.map fun order => order.filterMap fun i => p.generators[i]?

/-- Runs all generators, each phase in their order. -/
def run (p : Pipeline σ τ) (s : σ) (t : τ) : Run σ τ :=
  match p.scheduled with
  | .error f => ⟨s, t, .error f⟩
  | .ok generators =>
    match prepareAll generators s with
    | (s, .error f) => ⟨s, t, .error f⟩
    | (s, .ok prepared) =>
      match generateAll s prepared t with
      | (t, outcome) => ⟨s, t, outcome⟩

end Pipeline

/-! ### Written files -/

/-- The failure to save a file, with the step that failed and its fault. -/
def saveFailure (step : String) (fault : IoFault) : Failure :=
  (Failure.compilation s!"Generated output cannot be saved: {step}").because [step, fault.message]

/-- Makes the directory that `path` lies in. -/
def makeParent (a : Artifacts) (path : Path) : Artifacts × Except Failure Unit :=
  match path.parent? with
  | none => (a, .ok ())
  | some parent =>
    match a.tree.createDirectories parent with
    | (tree, .ok ()) => ({ a with tree := tree }, .ok ())
    | (tree, .error fault) =>
      ({ a with tree := tree },
        .error (saveFailure ("directory " ++ parent.text ++ " cannot be created") fault))

/-- Writes a file, and the directories above it. -/
def save (a : Artifacts) (path : Path) (content : String) : Artifacts × Except Failure Unit :=
  match makeParent a path with
  | (a, .error f) => (a, .error f)
  | (a, .ok ()) =>
    match a.tree.write path content.toUTF8 with
    | .error fault => (a, .error (saveFailure ("file " ++ path.text ++ " cannot be written") fault))
    | .ok tree => (⟨tree, a.written ++ [path]⟩, .ok ())

end Boardwright.Generation
