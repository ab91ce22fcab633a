import Boardwright.Proofs.Characters
import Boardwright.Proofs.Conformance
import Boardwright.Proofs.LooperNumbers
import Boardwright.Proofs.LooperQueue

/-!
# Times in the fields of the program

The program keeps the times of loopers in fields of 32 bits.  A time is a number of the component type
or the value of a property, and neither is compared with the size of a field.  The value of a property
has passed the check of its type, and most types leave no room for a number that is too large; texts,
names and decimal fractions do.

* **`FitsField`**: the numbers that a field can hold.
* **`Overlong`**: times that no field can hold.
* **`CheckedLooper`**: a looper of a component that has passed its checks.
* **`looper_times_fit_iff`**: its times fit unless they are overlong, and the queue then goes by what
  the fields hold.
-/

namespace Boardwright

open Text (Numeral)

variable {b : Board} {cs : List Char} {n : ℤ} {m : ℕ} {type v : String} {ty : ValueType}

/-! ### Numbers that are values of a type -/

/-- The types whose values may be numbers of any size. -/
def ValueType.takesAnyNumber : ValueType → Bool
  | .float | .string | .flashString | .enumeration => true
  | _ => false

theorem IndexBelow.numeral_le {count : UInt32} (h : IndexBelow count.toNat cs) (hn : Numeral cs n) :
    n ≤ 4294967295 := by
  obtain ⟨k, hk, hdigits⟩ := h
  have hcount := count.toNat_lt
  rw [hn.unique (.plain hdigits)]
  omega

theorem AnalogPinBelow.not_numeral (h : AnalogPinBelow m cs) : ¬ Numeral cs n := by
  obtain ⟨digits, rfl, -⟩ := h
  exact Text.not_numeral_of_head? rfl (by decide)

theorem PortBelow.not_numeral (h : PortBelow m cs) : ¬ Numeral cs n := by
  rcases h with ⟨rfl, -⟩ | ⟨digits, rfl, -⟩
  · exact Text.not_numeral_of_head? rfl (by decide)
  · exact Text.not_numeral_of_head? rfl (by decide)

/-- A character that is a number has one digit. -/
theorem CharSpelling.numeral_lt {body : List Char} (h : CharSpelling cs body) (hn : Numeral cs n) :
    n < 10 := by
  cases h with
  | plain _ _ =>
    cases hn with
    | plain h => exact_mod_cast h.2.lt_pow (by decide)
    | plus h => exact absurd rfl h.1
    | minus h => exact absurd rfl h.1
  | blank =>
    obtain ⟨c, -, hhead⟩ := hn.exists_head?
    cases hhead
  | _ => exact absurd hn (Text.not_numeral_of_head? rfl (by decide))

/-- Neither of the two words is a number, in whatever letters it is written. -/
theorem not_numeral_of_bool (h : b.acceptsPresent .bool cs = true) : ¬ Numeral cs n := by
  intro hn
  obtain ⟨c, hc, hhead⟩ := hn.exists_head?
  have hletters : Text.numeralStarts.all (fun c => c.toLower ≠ 't' ∧ c.toLower ≠ 'f') = true := by decide
  obtain ⟨ht, hf⟩ := of_decide_eq_true (List.all_eq_true.1 hletters c hc)
  have hlower : (cs.map Char.toLower).head? = some c.toLower := by
    rw [List.head?_map, hhead, Option.map_some]
  rw [Board.acceptsPresent, Bool.or_eq_true, beq_iff_eq, beq_iff_eq] at h
  rcases h with htrue | hfalse
  · rw [htrue] at hlower
    exact ht (Option.some.inj hlower).symm
  · rw [hfalse] at hlower
    exact hf (Option.some.inj hlower).symm

/-- A number that is a value of another type is no larger than a number of 32 bits. -/
theorem numeral_le_of_accepts (htype : ValueType.ofName? type = some ty) (hty : ty.takesAnyNumber = false)
    (h : b.accepts type (some v) = true) (hn : Numeral (Text.trim v).toList n) : n ≤ 4294967295 := by
  have hpresent : b.acceptsPresent ty (Text.trim v).toList = true := by
    rw [← h]
    refine (accepts_eq_acceptsPresent htype ?_ ?_).symm
    · rintro rfl
      cases hty
    · rintro rfl
      cases hty
  cases ty with
  | bool => exact absurd hn (not_numeral_of_bool hpresent)
  | char =>
    rw [Board.acceptsPresent, Option.isSome_iff_exists] at hpresent
    obtain ⟨body, hbody⟩ := hpresent
    have hlt := (charBody?_eq_some_iff.1 hbody).numeral_lt hn
    omega
  | integer i =>
    obtain ⟨k, hk, hfits⟩ := (acceptsPresent_integer_iff (bytes_le_four htype)).1 hpresent
    rw [hn.unique hk]
    exact (hfits.bounds (bytes_le_four htype)).2
  | digitalPin => exact (isIndexBelow_iff.1 hpresent).numeral_le hn
  | interrupt => exact (isIndexBelow_iff.1 hpresent).numeral_le hn
  | analogPin => exact absurd hn (isAnalogPin_iff.1 hpresent).not_numeral
  | pin =>
    rw [Board.acceptsPresent, Bool.or_eq_true] at hpresent
    rcases hpresent with hanalog | hdigital
    · exact absurd hn (isAnalogPin_iff.1 hanalog).not_numeral
    · exact (isIndexBelow_iff.1 hdigital).numeral_le hn
  | hardwareSerial => exact absurd hn (acceptsPresent_serial_iff.1 hpresent).not_numeral
  | _ => cases hty

namespace Generation

variable {c : Component} {t : ComponentType} {timing : Timing} {d : Option ℤ}

/-! ### Times -/

/-- The numbers that a field of 32 bits can hold. -/
def FitsField (ms : ℤ) : Prop :=
  0 ≤ ms ∧ ms ≤ 4294967295

/-- A time that no field can hold: a number of the component type, or a number that is the value of a
property of a type that takes any number. -/
inductive Overlong (c : Component) (t : ComponentType) : Timing → Prop where
  | millis {n : ℤ} : 4294967295 < n → Overlong c t (.millis n)
  | property {name v : String} {p : Property} {ty : ValueType} {n : ℤ} : t.property? name = some p →
      ValueType.ofName? p.type = some ty → ty.takesAnyNumber = true →
      p.effective (c.properties.get? name) = some v → Numeral (Text.trim v).toList n → 4294967295 < n →
      Overlong c t (.property name)

theorem int64?_trim_eq_some_iff : Text.int64? (Text.trim v) = some n ↔
    Numeral (Text.trim v).toList n ∧ Text.int64Min ≤ n ∧ n ≤ Text.int64Max := by
  rw [← int64?_eq_some_iff, String.ofList_toList]

theorem nonBlank?_of_numeral (h : Numeral (Text.trim v).toList n) :
    Text.nonBlank? v = some (Text.trim v) := by
  apply Text.nonBlank?_of_not_blank
  intro hblank
  obtain ⟨c, -, hhead⟩ := h.exists_head?
  rw [String.isEmpty_iff.1 (Text.isEmpty_trim_iff.2 hblank)] at hhead
  cases hhead

/-- The number that a timing means: its own, or that of the value of a property. -/
theorem resolveTiming_eq_some_iff : resolveTiming timing c t = .ok (some n) ↔
    timing = .millis n ∨ ∃ name p v, timing = .property name ∧ t.property? name = some p ∧
      p.effective (c.properties.get? name) = some v ∧ Text.int64? (Text.trim v) = some n := by
  cases timing with
  | unset => simp [resolveTiming]
  | millis k => simp [resolveTiming]
  | property name =>
    simp only [reduceCtorEq, false_or, Timing.property.injEq, resolveTiming]
    constructor
    · intro h
      split at h
      · cases h
      · next p hp =>
        split at h
        · cases h
        · next text htext =>
          obtain ⟨v, hv, htrim⟩ := Option.bind_eq_some_iff.1 htext
          rw [Text.nonBlank?, Option.ite_none_left_eq_some] at htrim
          split at h
          · next k hk =>
            cases h
            exact ⟨name, p, v, rfl, hp, hv, by rw [Option.some.inj htrim.2, hk]⟩
          · cases h
    · rintro ⟨_, p, v, rfl, hp, hv, hn⟩
      rw [hp]
      simp only [hv, Option.bind_some, nonBlank?_of_numeral (int64?_trim_eq_some_iff.1 hn).1, hn]

/-- The check of a component lets a timing mean too large a number only where its type takes any number.
-/
theorem overlong_iff (hchecked : Conformance.checkConfiguration b t c = .ok ())
    (h : resolveTiming timing c t = .ok d) : Overlong c t timing ↔ ∃ n, d = some n ∧ 4294967295 < n := by
  constructor
  · intro hlong
    cases hlong with
    | millis hn =>
      cases h
      exact ⟨_, rfl, hn⟩
    | property hp _ _ hv hnumeral hn =>
      rw [resolveTiming, hp] at h
      simp only [hv, Option.bind_some, nonBlank?_of_numeral hnumeral] at h
      split at h
      · next k hk =>
        cases h
        rw [(int64?_trim_eq_some_iff.1 hk).1.unique hnumeral]
        exact ⟨_, rfl, hn⟩
      · cases h
  · rintro ⟨n, rfl, hn⟩
    rcases resolveTiming_eq_some_iff.1 h with rfl | ⟨name, p, v, rfl, hp, hv, hread⟩
    · exact .millis hn
    · have hnumeral := (int64?_trim_eq_some_iff.1 hread).1
      have haccepts : b.accepts p.type (some v) = true := by
        have hname : p.name = name := by simpa using List.find?_some hp
        have heffective : effectiveValue c p = some v := by rw [effectiveValue, hname, hv]
        rw [← heffective]
        exact Conformance.accepts_of_checkConfiguration hchecked (List.mem_of_find?_eq_some hp)
      cases htype : ValueType.ofName? p.type with
      | none =>
        rw [Board.accepts, htype] at haccepts
        cases haccepts
      | some ty =>
        refine .property hp htype ?_ hv hnumeral hn
        by_contra hbounded
        have hle := numeral_le_of_accepts htype (by simpa using hbounded) haccepts hnumeral
        omega

/-! ### Checked loopers -/

/-- A looper of a component that has passed its checks, and the record that was made for it. -/
structure CheckedLooper where
  /-- The board. -/
  board : Board
  /-- The modules with the type of the component. -/
  modules : ModuleMap
  /-- The component. -/
  component : Component
  /-- Its type. -/
  type : ComponentType
  declared : (modules.get? component.type).bind Module.componentType? = some type
  contract : type.check = .ok ()
  conforms : Conformance.checkComponent board modules component = .ok ()
  /-- The looper. -/
  looper : Looper
  looper_mem : looper ∈ type.loopers
  /-- The object that is called. -/
  controller : String
  /-- The record. -/
  record : LooperRecord
  resolved : LooperRecord.resolve controller looper.method looper.interval looper.initialDelay
    component type = .ok record

namespace CheckedLooper

theorem checkConfiguration (x : CheckedLooper) :
    Conformance.checkConfiguration x.board x.type x.component = .ok () := by
  have hconforms := x.conforms
  rw [Conformance.checkComponent, x.declared] at hconforms
  exact hconforms

theorem fitsField_delay_iff (x : CheckedLooper) :
    FitsField x.record.initialDelay ↔ ¬ Overlong x.component x.type x.looper.initialDelay := by
  obtain ⟨i, d, -, hd, hrecord⟩ := resolve_eq_ok_iff.1 x.resolved
  rw [overlong_iff x.checkConfiguration hd, hrecord, FitsField]
  cases d with
  | none => simp
  | some n =>
    simp only [Option.getD_some, Option.some.injEq, exists_eq_left']
    omega

theorem fitsField_interval_iff (x : CheckedLooper) :
    (∀ ms, x.record.interval = some ms → FitsField ms) ↔
      ¬ Overlong x.component x.type x.looper.interval := by
  obtain ⟨i, d, hi, -, hrecord⟩ := resolve_eq_ok_iff.1 x.resolved
  rw [overlong_iff x.checkConfiguration hi, hrecord]
  cases i with
  | none => simp
  | some n =>
    simp only [Option.filter_eq_some_iff, Option.some.injEq, decide_eq_true_eq, and_imp, forall_eq',
      exists_eq_left', FitsField]
    omega

end CheckedLooper

theorem ofInt_le_ofInt {a b : ℤ} (ha : FitsField a) (hb : FitsField b) (h : a ≤ b) :
    UInt32.ofInt a ≤ UInt32.ofInt b := by
  obtain ⟨ha, ha'⟩ := ha
  obtain ⟨hb, hb'⟩ := hb
  rw [UInt32.le_iff_toNat_le, UInt32.ofInt, UInt32.ofInt, UInt32.toNat_ofNat', UInt32.toNat_ofNat']
  omega

/-- The array of loopers goes by the times that the fields of the program hold, where a number is cut to
32 bits. -/
def QueuedAsStored (records : List LooperRecord) : Prop :=
  (byDelay records).Pairwise fun i j => ∃ r s, records[i]? = some r ∧ records[j]? = some s ∧
    UInt32.ofInt r.initialDelay ≤ UInt32.ofInt s.initialDelay

theorem queuedAsStored_of_fitsField {records : List LooperRecord}
    (h : ∀ r ∈ records, FitsField r.initialDelay) : QueuedAsStored records := by
  refine (byDelay_pairwise records).imp ?_
  rintro i j ⟨r, s, hr, hs, horder⟩
  have hle : r.initialDelay ≤ s.initialDelay := by omega
  exact ⟨r, s, hr, hs, ofInt_le_ofInt (h r (List.mem_of_getElem? hr)) (h s (List.mem_of_getElem? hs)) hle⟩

/-- **Times that fit.**  The first delay of a looper fits a field of the program unless it is overlong,
and so does its interval, if it has one.  If no delay is overlong, the array of the loopers goes by what
the fields hold. -/
theorem looper_times_fit_iff (loopers : List CheckedLooper) :
    (∀ x ∈ loopers,
      (FitsField x.record.initialDelay ↔ ¬ Overlong x.component x.type x.looper.initialDelay) ∧
        ((∀ ms, x.record.interval = some ms → FitsField ms) ↔
          ¬ Overlong x.component x.type x.looper.interval)) ∧
    ((∀ x ∈ loopers, ¬ Overlong x.component x.type x.looper.initialDelay) →
      QueuedAsStored (loopers.map (·.record))) := by
  refine ⟨fun x _ => ⟨x.fitsField_delay_iff, x.fitsField_interval_iff⟩, ?_⟩
  intro hfit
  apply queuedAsStored_of_fitsField
  intro r hr
  obtain ⟨x, hx, rfl⟩ := List.mem_map.1 hr
  exact x.fitsField_delay_iff.2 (hfit x hx)

/-- A siren wails after a delay of its own and pauses as long as the property says, of which the
declared type is given. -/
def sirenType (delay : ℤ) (pause : String) : ComponentType where
  controller := some { classType := "Siren" }
  properties := [{ name := "Pause", type := pause }]
  loopers := [{ method := "wail", interval := .property "Pause", initialDelay := .millis delay },
    { method := "blink", initialDelay := .millis 1 }]

def sirenModules (delay : ℤ) (pause : String) : ModuleMap :=
  Dict.empty.insert "m.siren" ⟨"m.siren", ⟨"m/siren"⟩, [], [], .componentType (sirenType delay pause)⟩

def siren (pause : String) : Component where
  type := "m.siren"
  name := "siren"
  properties := Dict.empty.insert "Pause" pause

/-- The loopers of a siren that passes its checks, if the value of its property can be read as a number.
-/
def sirenLoopers (delay : ℤ) (pause value : String) (ms : ℤ)
    (hcontract : (sirenType delay pause).check = .ok ())
    (hconforms : Conformance.checkComponent wideBoard (sirenModules delay pause) (siren value) = .ok ())
    (hread : resolveTiming (.property "Pause") (siren value) (sirenType delay pause) = .ok (some ms)) :
    List CheckedLooper :=
  let wail : LooperRecord := ⟨"acp::controller_0", "wail", (some ms).filter (0 ≤ ·), max delay 0⟩
  [⟨wideBoard, sirenModules delay pause, siren value, sirenType delay pause, rfl, hcontract, hconforms,
      { method := "wail", interval := .property "Pause", initialDelay := .millis delay },
      List.mem_cons_self, "acp::controller_0", wail, resolve_eq_ok_iff.2 ⟨_, _, hread, rfl, rfl⟩⟩,
    ⟨wideBoard, sirenModules delay pause, siren value, sirenType delay pause, rfl, hcontract, hconforms,
      { method := "blink", initialDelay := .millis 1 }, List.mem_cons_of_mem _ List.mem_cons_self,
      "acp::controller_0", ⟨"acp::controller_0", "blink", none, 1⟩, rfl⟩]

/-- The longest times that fit.  The declared type of the property leaves no room for more. -/
theorem looper_times_fit_siren :
    ∃ loopers : List CheckedLooper,
      loopers.map (·.record) = [⟨"acp::controller_0", "wail", some 4294967295, 4294967295⟩,
        ⟨"acp::controller_0", "blink", none, 1⟩] ∧
      (∀ x ∈ loopers, ¬ Overlong x.component x.type x.looper.initialDelay) ∧
      QueuedAsStored (loopers.map (·.record)) := by
  refine ⟨sirenLoopers 4294967295 "unsigned long" " 4294967295 " 4294967295 rfl rfl rfl, rfl, ?_⟩
  obtain ⟨hfit, hqueue⟩ :=
    looper_times_fit_iff (sirenLoopers 4294967295 "unsigned long" " 4294967295 " 4294967295 rfl rfl rfl)
  have hdelays : ∀ x ∈ sirenLoopers 4294967295 "unsigned long" " 4294967295 " 4294967295 rfl rfl rfl,
      ¬ Overlong x.component x.type x.looper.initialDelay := by
    intro x hx
    refine (hfit x hx).1.1 ?_
    rcases List.mem_pair.1 hx with rfl | rfl
    · exact ⟨by decide, by decide⟩
    · exact ⟨by decide, by decide⟩
  exact ⟨hdelays, hqueue hdelays⟩

/-- A delay of 2 ^ 32 milliseconds, and as long an interval that is a text, pass all checks.  In a field
the delay is zero, but the looper stands behind the one that has to wait for a millisecond. -/
theorem overlong_times_accepted :
    ∃ loopers : List CheckedLooper,
      loopers.map (·.record) = [⟨"acp::controller_0", "wail", some 4294967296, 4294967296⟩,
        ⟨"acp::controller_0", "blink", none, 1⟩] ∧
      ¬ FitsField 4294967296 ∧ byDelay (loopers.map (·.record)) = [1, 0] ∧
      ¬ QueuedAsStored (loopers.map (·.record)) := by
  have horder : byDelay [⟨"acp::controller_0", "wail", some 4294967296, 4294967296⟩,
      ⟨"acp::controller_0", "blink", none, 1⟩] = [1, 0] :=
    eq_of_pairwise_precedes (byDelay_pairwise _) (by decide) ((byDelay_perm _).trans (by decide))
  refine ⟨sirenLoopers 4294967296 "string" "4294967296" 4294967296 rfl rfl rfl, rfl, ?_, horder, ?_⟩
  · intro hfits
    exact absurd hfits.2 (by decide)
  · intro hqueue
    have hpair : QueuedAsStored [⟨"acp::controller_0", "wail", some 4294967296, 4294967296⟩,
        ⟨"acp::controller_0", "blink", none, 1⟩] := hqueue
    rw [QueuedAsStored, horder, List.pairwise_pair] at hpair
    obtain ⟨r, s, hr, hs, hle⟩ := hpair
    cases hr
    cases hs
    exact absurd hle (by decide)

end Generation

end Boardwright
