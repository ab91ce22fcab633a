/-!
# Schedules of dependent jobs

Jobs are numbered from zero; each has a name and lists the jobs it must run after.  A schedule runs
every job once, each after the jobs it depends on.  It is found by a depth first walk that starts from
the jobs in order and visits dependencies in the order they are listed.

* **`JobGraph`**: the names and the dependencies.
* **`Cycle`**: names of jobs that depend on each other in a ring, the first one repeated at the end.
* **`JobGraph.schedule`**: the order, or the ring that the walk ran into.
-/

namespace Boardwright

/-- Jobs and the jobs they must run after. -/
structure JobGraph where
  /-- The names of the jobs. -/
  names : List String
  /-- The jobs that each job must run after; a job without a row depends on none. -/
  after : List (List Nat)
  deriving DecidableEq, Repr

/-- The names of jobs in a ring of dependencies, with the first one repeated at the end. -/
structure Cycle where
  /-- The names along the ring. -/
  names : List String
  deriving DecidableEq, Repr

/-- The message about a ring of dependencies. -/
def Cycle.message (c : Cycle) : String :=
  "circular dependency: " ++ " -> ".intercalate c.names

namespace JobGraph

/-- The jobs that job `i` must run after. -/
def dependencies (g : JobGraph) (i : Nat) : List Nat :=
  g.after.getD i []

/-- The name of job `i`. -/
def nameOf (g : JobGraph) (i : Nat) : String :=
  g.names.getD i ""

/-- The ring that is closed when the walk, having come along `path`, meets `i` on it again. -/
def ring (g : JobGraph) (path : List Nat) (i : Nat) : Cycle where
  names := ((path.dropWhile (· ≠ i)) ++ [i]).map g.nameOf

/-- Visits job `i`, reached along `path` (outermost first), when the jobs `done` are scheduled already.
Each step down the path uses up one unit of `depth`. -/
def visit (g : JobGraph) (depth : Nat) (path done : List Nat) (i : Nat) :
    Except Cycle (List Nat) :=
  if i ∈ done then .ok done
  else if i ∈ path then .error (g.ring path i)
  else
    match depth with
    | 0 => .ok done
    | depth + 1 => do
      let done ← (g.dependencies i).foldlM (visit g depth (path ++ [i])) done
      return done ++ [i]

/-- An order in which every job comes after the jobs it depends on.  A path never meets a job twice,
so it is no longer than the list of jobs. -/
def schedule (g : JobGraph) : Except Cycle (List Nat) :=
  (List.range g.names.length).foldlM (g.visit g.names.length []) []

end JobGraph

end Boardwright
