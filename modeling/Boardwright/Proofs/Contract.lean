import Boardwright.ComponentType.Contract
import Boardwright.Proofs.FallibleSteps

/-!
# What the contract of a component type says

The check of a component type goes through the declarations in their order and stops at the first fault.
Here each of its steps is read as a condition on the declarations, so that nothing else has to look into
the check.

* **`checkNames_eq_ok_iff`**: names that are not blank and not repeated.
* **`ComponentType.KeepsContract`**: the conditions; **`ComponentType.check_eq_ok_iff`**: the check
  decides them.
-/

namespace Boardwright

variable {t : ComponentType}

theorem checkNames_eq_ok_iff {blank : ContractFault} {repeated : String → ContractFault}
    {seen names : List String} :
    checkNames blank repeated seen names = .ok () ↔
      (∀ name ∈ names, Text.isBlankText name = false) ∧ names.Nodup ∧ ∀ name ∈ names, name ∉ seen := by
  induction names generalizing seen with
  | nil => simp [checkNames]
  | cons name rest ih =>
    rw [checkNames, List.forall_mem_cons, List.nodup_cons, List.forall_mem_cons]
    by_cases hblank : Text.isBlankText name = true
    · simp [hblank]
    · by_cases hseen : name ∈ seen
      · simp [hblank, hseen]
      · rw [if_neg hblank, if_neg hseen, ih]
        simp only [List.mem_cons, not_or]
        constructor
        · rintro ⟨hrest, hnodup, hfresh⟩
          refine ⟨⟨by simpa using hblank, hrest⟩, ⟨?_, hnodup⟩, hseen, fun q hq => (hfresh q hq).2⟩
          intro hname
          exact (hfresh name hname).1 rfl
        · rintro ⟨⟨-, hrest⟩, ⟨hname, hnodup⟩, -, hfresh⟩
          refine ⟨hrest, hnodup, fun q hq => ⟨?_, hfresh q hq⟩⟩
          rintro rfl
          exact hname hq

namespace ComponentType

theorem checkViewBinding_eq_ok_iff :
    t.checkViewBinding = .ok () ↔
      (t.viewBinding.isSome = true → t.view.isSome = true ∧ t.controller.isSome = true) := by
  rw [checkViewBinding]
  cases t.viewBinding <;> cases t.view <;> cases t.controller <;> simp

theorem checkView_eq_ok_iff :
    t.checkView = .ok () ↔
      ∀ v ∈ t.view, Text.isBlankText v.classType = false ∧ v.init = none ∧ v.loop = none := by
  rw [checkView]
  cases t.view with
  | none => simp
  | some v =>
    simp only [Option.mem_some_iff, forall_eq', ← Option.not_isSome_iff_eq_none]
    cases Text.isBlankText v.classType <;> cases v.init.isSome <;> cases v.loop.isSome <;> simp

theorem checkController_eq_ok_iff :
    t.checkController = .ok () ↔ ∀ c ∈ t.controller, Text.isBlankText c.classType = false := by
  rw [checkController]
  cases t.controller with
  | none => simp
  | some c => simp

/-- A timing that refers to a property refers to one that is declared. -/
theorem declares_iff {timing : Timing} :
    t.declares timing = true ↔
      ∀ name, timing = .property name → ∃ p ∈ t.properties, p.name = name := by
  cases timing with
  | unset => simp [declares]
  | millis n => simp [declares]
  | property name => simp [declares, property?]

theorem checkLooper_eq_ok_iff {l : Looper} :
    t.checkLooper l = .ok () ↔
      Text.isBlankText l.method = false ∧ t.declares l.interval = true ∧
        t.declares l.initialDelay = true := by
  rw [checkLooper]
  cases Text.isBlankText l.method <;> cases t.declares l.interval <;>
    cases t.declares l.initialDelay <;> simp

/-- The declarations fit together. -/
structure KeepsContract (t : ComponentType) : Prop where
  properties : ∀ p ∈ t.properties, Text.isBlankText p.name = false
  properties_nodup : (t.properties.map (·.name)).Nodup
  events : ∀ e ∈ t.events, Text.isBlankText e.name = false
  events_nodup : (t.events.map (·.name)).Nodup
  viewBinding : t.viewBinding.isSome = true → t.view.isSome = true ∧ t.controller.isSome = true
  view : ∀ v ∈ t.view, Text.isBlankText v.classType = false ∧ v.init = none ∧ v.loop = none
  controller : ∀ c ∈ t.controller, Text.isBlankText c.classType = false
  loopers : ∀ l ∈ t.loopers, Text.isBlankText l.method = false ∧ t.declares l.interval = true ∧
    t.declares l.initialDelay = true

theorem check_eq_ok_iff : t.check = .ok () ↔ t.KeepsContract := by
  simp only [check, Fallible.bind_unit_eq_ok_iff, checkNames_eq_ok_iff, checkViewBinding_eq_ok_iff,
    checkView_eq_ok_iff, checkController_eq_ok_iff, Fallible.forM_eq_ok_iff, checkLooper_eq_ok_iff,
    List.forall_mem_map]
  constructor
  · rintro ⟨⟨hproperties, hproperty, -⟩, ⟨hevents, hevent, -⟩, hbinding, hview, hcontroller, hloopers⟩
    exact ⟨hproperties, hproperty, hevents, hevent, hbinding, hview, hcontroller, hloopers⟩
  · intro h
    exact ⟨⟨h.properties, h.properties_nodup, by simp⟩, ⟨h.events, h.events_nodup, by simp⟩,
      h.viewBinding, h.view, h.controller, h.loopers⟩

end ComponentType

end Boardwright
