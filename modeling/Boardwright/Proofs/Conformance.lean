import Boardwright.Conformance
import Boardwright.Generation.ProjectHeader
import Boardwright.Proofs.Contract

/-!
# What generators may rely on

The checks of a project are made before generation, and by other functions than those that generate.
This module says what each check gives to the generators: a component has its type, a declared
property has a literal, a timing names a declared property, and an import has headers.
-/

namespace Boardwright

/-! ### Values that are accepted have literals -/

theorem exists_literal_of_accepts {board : Board} {type : String} {value : Option String}
    (h : board.accepts type value = true) : ∃ text, literal? type value = some text := by
  rw [← Option.isSome_iff_exists]
  unfold literal?
  unfold Board.accepts at h
  cases htype : ValueType.ofName? type with
  | none =>
    rw [htype] at h
    cases h
  | some t =>
    rw [htype] at h
    cases value with
    | none =>
      -- only texts may be absent
      cases t with
      | string => rfl
      | flashString => rfl
      | _ => cases h
    | some v =>
      cases t with
      | char =>
        -- the same function decides about a character and writes it
        show ((charBody? (Text.trimChars v.toList)).map _).isSome = true
        rw [Option.isSome_map]
        exact h
      | _ => rfl

/-! ### Contracts and configurations -/

/-- The loopers of a type that keeps its contract refer only to declared properties. -/
theorem ComponentType.declares_of_check {t : ComponentType} {l : Looper} (h : t.check = .ok ())
    (hl : l ∈ t.loopers) : t.declares l.interval = true ∧ t.declares l.initialDelay = true := by
  exact ((ComponentType.check_eq_ok_iff.1 h).loopers l hl).2

/-- The declared properties of a component that was checked have values that the board accepts. -/
theorem Conformance.accepts_of_checkConfiguration {board : Board} {t : ComponentType}
    {c : Component} {p : Property} (h : checkConfiguration board t c = .ok ())
    (hp : p ∈ t.properties) :
    board.accepts p.type (Generation.effectiveValue c p) = true := by
  have hproperties : t.properties.forM (checkProperty board c) = .ok () := by
    obtain ⟨_, h, -⟩ := Fallible.bind_eq_ok_iff.1 h
    exact h
  have hproperty := Fallible.forM_eq_ok_iff.1 hproperties p hp
  rw [checkProperty] at hproperty
  split at hproperty
  · next hboth => exact (Bool.and_eq_true_iff.1 hboth).1
  · cases hproperty

namespace Generation

/-- An input whose components, imports and component types have passed their checks. -/
structure Conforming (input : Input) : Prop where
  components : ∀ c ∈ input.project.components,
    Conformance.checkComponent input.board input.modules c = .ok ()
  imports : Conformance.checkImports input.modules input.project = .ok ()
  types : ∀ name m t, input.modules.get? name = some m → m.componentType? = some t →
    t.check = .ok ()

variable {input : Input} {c : Component} {t : ComponentType}

theorem componentType_eq_ok_iff :
    input.componentType c = .ok t ↔
      (input.modules.get? c.type).bind Module.componentType? = some t := by
  rw [Input.componentType]
  cases (input.modules.get? c.type).bind Module.componentType? with
  | none => simp
  | some t' => simp

/-- What is said of every type of a component is said of the one it has. -/
theorem forall_componentType_iff {P : ComponentType → Prop} (ht : input.componentType c = .ok t) :
    (∀ t', input.componentType c = .ok t' → P t') ↔ P t := by
  constructor
  · intro h
    exact h t ht
  · intro h t' ht'
    rw [ht] at ht'
    cases ht'
    exact h

theorem Conforming.exists_type (h : Conforming input) (hc : c ∈ input.project.components) :
    ∃ t, input.componentType c = .ok t := by
  have hcheck := h.components c hc
  rw [Conformance.checkComponent] at hcheck
  split at hcheck
  · cases hcheck
  · next t ht => exact ⟨t, componentType_eq_ok_iff.2 ht⟩

theorem Conforming.check_type (h : Conforming input) (ht : input.componentType c = .ok t) :
    t.check = .ok () := by
  obtain ⟨m, hm, ht⟩ := Option.bind_eq_some_iff.1 (componentType_eq_ok_iff.1 ht)
  exact h.types c.type m t hm ht

theorem Conforming.exists_literal (h : Conforming input) (hc : c ∈ input.project.components)
    (ht : input.componentType c = .ok t) {p : Property} (hp : p ∈ t.properties) :
    ∃ text, propertyLiteral? c p = some text := by
  have hcheck := h.components c hc
  rw [Conformance.checkComponent, componentType_eq_ok_iff.1 ht] at hcheck
  exact exists_literal_of_accepts (Conformance.accepts_of_checkConfiguration hcheck hp)

theorem Conforming.exists_includes (h : Conforming input) {name : String}
    (hname : name ∈ input.project.libraryImports) :
    ∃ lines, libraryIncludes input name = .ok lines := by
  have hcheck := Fallible.forM_eq_ok_iff.1 h.imports name hname
  split at hcheck
  · next hsome =>
    obtain ⟨files, hfiles⟩ := Option.isSome_iff_exists.1 hsome
    exact ⟨files.map (includeLine name), by rw [libraryIncludes, hfiles]⟩
  · cases hcheck

end Generation

end Boardwright
