import Boardwright.Proofs.Outputs
import Boardwright.Proofs.Repetition

/-!
# Runs start anew

The shared state may still hold what an earlier run left in it.  Of all that, a run sees only the
namespace: the generator of the source comes first, drops the published values, and sets what is known
about the storage before another generator reads it.

* **`visible`**: what can be seen of a first phase, which is its failure, or its output and the state it
  leaves.
* **`visible_prepareAll_cons`**: what can be seen of a row of first phases depends on the state before
  them only through what can be seen of the first.
* **`preparation_starts_anew`**: two runs from states with one namespace have the same results.
-/

namespace Boardwright.Generation

variable {σ τ α : Type}

/-! ### What can be seen of first phases -/

/-- A failure, or a result and the state that comes with it.  The state that a failure leaves is
dropped. -/
def visible : σ × Except Failure α → Except Failure (σ × α)
  | (_, .error f) => .error f
  | (s, .ok a) => .ok (s, a)

theorem visible_eq_ok_iff {r : σ × Except Failure α} {s : σ} {a : α} :
    visible r = .ok (s, a) ↔ r = (s, .ok a) := by
  obtain ⟨s', result⟩ := r
  cases result with
  | error f => simp [visible]
  | ok a' => simp [visible]

theorem visible_eq_error_iff {r : σ × Except Failure α} {f : Failure} :
    visible r = .error f ↔ r.2 = .error f := by
  obtain ⟨s', result⟩ := r
  cases result with
  | error f' => simp [visible]
  | ok a => simp [visible]

/-- The first phases after the first one go on with what can be seen of it. -/
theorem visible_prepareAll_cons (g : Generator σ τ) (rest : List (Generator σ τ)) (s : σ) :
    visible (prepareAll (g :: rest) s) = visible (g.prepare s) >>= fun first =>
      (visible (prepareAll rest first.1)).map fun others => (others.1, (g, first.2) :: others.2) := by
  rw [prepareAll]
  cases hfirst : g.prepare s with
  | mk s' result =>
    cases result with
    | error f => rfl
    | ok output =>
      simp only [visible, bind, Except.bind]
      cases prepareAll rest s' with
      | mk s'' result' => cases result' <;> rfl

/-- Runs of which the same is visible after the first phases have the same results. -/
theorem Pipeline.run_of_visible {p : Pipeline σ τ} {s s' : σ}
    (h : visible (p.preparation s') = visible (p.preparation s)) (t : τ) :
    (p.run s' t).results = (p.run s t).results ∧ (p.run s' t).outcome = (p.run s t).outcome := by
  cases hseen : visible (p.preparation s) with
  | error f =>
    rw [hseen] at h
    rw [p.run_of_preparation_error (visible_eq_error_iff.1 hseen),
      p.run_of_preparation_error (visible_eq_error_iff.1 h)]
    exact ⟨rfl, rfl⟩
  | ok first =>
    rw [hseen] at h
    rw [p.run_of_preparation (visible_eq_ok_iff.1 hseen), p.run_of_preparation (visible_eq_ok_iff.1 h)]
    exact ⟨rfl, rfl⟩

/-! ### The generator of the source -/

section Source

variable {input : Input} {s s' : State}

/-- As soon as the stored items have their places, nothing is left of the state but its namespace. -/
theorem prepareCore_of_namespace {layout : Storage.Layout}
    (hlayout : Storage.allocate input.project.storage = .ok layout)
    (h : s'.privateNamespace = s.privateNamespace) : prepareCore input s' = prepareCore input s := by
  simp only [prepareCore, hlayout, h]

theorem prepareCore_of_fault {fault : Storage.LayoutFault}
    (h : Storage.allocate input.project.storage = .error fault) (s : State) :
    prepareCore input s = ({ s with published := .empty }, .error fault.toFailure) := by
  simp only [prepareCore, h]

theorem visible_prepareCore (h : s'.privateNamespace = s.privateNamespace) :
    visible (prepareCore input s') = visible (prepareCore input s) := by
  cases hlayout : Storage.allocate input.project.storage with
  | error fault =>
    rw [prepareCore_of_fault hlayout, prepareCore_of_fault hlayout]
    rfl
  | ok layout => rw [prepareCore_of_namespace hlayout h]

/-! ### All generators -/

/-- The generator of the source is scheduled first, and its first phase hides the state it was given. -/
theorem visible_preparation (h : s'.privateNamespace = s.privateNamespace) :
    visible ((standardPipeline input).preparation s') =
      visible ((standardPipeline input).preparation s) := by
  have hfirst : visible ((coreSource input).prepare s') = visible ((coreSource input).prepare s) :=
    visible_prepareCore h
  simp only [Pipeline.preparation, scheduled_standardPipeline]
  rw [standardPipeline, visible_prepareAll_cons, visible_prepareAll_cons, hfirst]

theorem preparation_of_namespace {layout : Storage.Layout}
    (hlayout : Storage.allocate input.project.storage = .ok layout)
    (h : s'.privateNamespace = s.privateNamespace) :
    (standardPipeline input).preparation s' = (standardPipeline input).preparation s := by
  have hfirst : (coreSource input).prepare s' = (coreSource input).prepare s :=
    prepareCore_of_namespace hlayout h
  simp only [Pipeline.preparation, scheduled_standardPipeline]
  rw [standardPipeline, prepareAll, prepareAll, hfirst]

theorem preparation_of_fault {fault : Storage.LayoutFault}
    (h : Storage.allocate input.project.storage = .error fault) (s : State) :
    (standardPipeline input).preparation s =
      ({ s with published := .empty }, .error fault.toFailure) := by
  have hfirst : (coreSource input).prepare s =
      ({ s with published := .empty }, .error fault.toFailure) := prepareCore_of_fault h s
  simp only [Pipeline.preparation, scheduled_standardPipeline]
  rw [standardPipeline, prepareAll, hfirst]

/-- **A run starts anew.**  From two states with one namespace, the first phases have the same failure,
or the same output for every generator and the same state in the end, and the runs have the same
results.  A version that is not left to chance does not depend on the run either.  Of the state before,
a failure leaves more than the namespace only where the stored items have no place; then the published
values are gone and the rest is as it was. -/
theorem preparation_starts_anew
    (hversion : Storage.VersionMode.read input.project.layoutVersion ≠ .ok .random)
    (h : s'.privateNamespace = s.privateNamespace) (chance : Nat) :
    visible ((standardPipeline { input with chance := chance }).preparation s') =
        visible ((standardPipeline input).preparation s) ∧
      (∀ a, ((standardPipeline { input with chance := chance }).run s' a).results =
          ((standardPipeline input).run s a).results ∧
        ((standardPipeline { input with chance := chance }).run s' a).outcome =
          ((standardPipeline input).run s a).outcome) ∧
      (∀ layout, Storage.allocate input.project.storage = .ok layout →
        (standardPipeline { input with chance := chance }).preparation s' =
          (standardPipeline input).preparation s) ∧
      ∀ fault, Storage.allocate input.project.storage = .error fault →
        (standardPipeline input).preparation s =
          ({ s with published := .empty }, .error fault.toFailure) := by
  rw [standardPipeline_chance input chance (.inr hversion)]
  refine ⟨visible_preparation h, ?_, ?_, ?_⟩
  · intro a
    exact Pipeline.run_of_visible (visible_preparation h) a
  · intro layout hlayout
    exact preparation_of_namespace hlayout h
  · intro fault hfault
    exact preparation_of_fault hfault s

end Source

/-- What another run may have left: a usage, a declaration and a controller that are not those of the
blinker. -/
def staleState : State where
  privateNamespace := "acp"
  storageUsage := 99
  storageExterns := ["extern int old;"]
  published := Published.put .empty "led" "controller" "old::controller_7"

theorem preparation_starts_anew_stale :
    Storage.VersionMode.read (blinkerInput "250").project.layoutVersion ≠ .ok .random ∧
      staleState.privateNamespace = "acp" ∧
      ∃ s prepared,
        visible ((standardPipeline (blinkerInput "250")).preparation ⟨"acp", 0, [], .empty⟩) =
          .ok (s, prepared) ∧
        visible ((standardPipeline { blinkerInput "250" with chance := 7 }).preparation staleState) =
          .ok (s, prepared) := by
  have hversion : Storage.VersionMode.read (blinkerInput "250").project.layoutVersion ≠ .ok .random := by
    decide +kernel
  have hfresh : ∃ prepared, (standardPipeline (blinkerInput "250")).preparation ⟨"acp", 0, [], .empty⟩ =
      (((standardPipeline (blinkerInput "250")).preparation ⟨"acp", 0, [], .empty⟩).1, .ok prepared) :=
    exists_preparation (by decide +kernel)
  have hsame : visible ((standardPipeline { blinkerInput "250" with chance := 7 }).preparation staleState) =
      visible ((standardPipeline (blinkerInput "250")).preparation ⟨"acp", 0, [], .empty⟩) :=
    (preparation_starts_anew hversion rfl 7).1
  obtain ⟨prepared, hprepared⟩ := hfresh
  have hseen := visible_eq_ok_iff.2 hprepared
  exact ⟨hversion, rfl, _, prepared, hseen, hsame.trans hseen⟩

end Boardwright.Generation
