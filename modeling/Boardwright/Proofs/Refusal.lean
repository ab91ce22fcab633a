import Boardwright.Generation.ProjectHeader
import Mathlib.Data.List.Infix

/-!
# The failures that checks leave

The generators have more ways to fail than a project that has passed its checks can show.  The two
sorts of failures are listed here, and they are told apart by how their messages begin.

* **`Refusal`**: the failures that are left.
* **`RuledOut`**: the messages of those that are ruled out.
* **`Refusal.not_ruledOut`**: no message of a refusal is ruled out, whatever names it contains.
-/

namespace Boardwright.Generation

/-- The failures of the first phases for a project that has passed its checks. -/
inductive Refusal : Failure → Prop where
  | layout (fault : Storage.LayoutFault) : Refusal fault.toFailure
  | firstValue (value name : String) :
      Refusal (.compilation ("The value '" ++ value
        ++ "' is not valid initialization value for the eeprom variable '" ++ name ++ "'."))
  | version (text : String) :
      Refusal (.compilation s!"Invalid layout version of eeprom memory: '{text}'.")
  | timing (what component property : String) :
      Refusal (timingFailure what component (.compilation
        s!"The value of property '{property}' cannot be converted to an integer value."))
  | view (component : String) :
      Refusal (.compilation ("Class type for view of component " ++ component ++ " is invalid."))

/-- The messages of failures that the checks rule out. -/
inductive RuledOut : String → Prop where
  | componentType (type component : String) :
      RuledOut ("Invalid component type (" ++ type ++ ") of component " ++ component ++ ".")
  | propertyValue (property component : String) :
      RuledOut ("Invalid or undefined value of property " ++ property ++ " of component "
        ++ component ++ ".")
  | undefinedProperty (property : String) : RuledOut s!"Undefined property '{property}'."
  | notALibrary (name : String) : RuledOut (notALibrary name).message

/-- How the messages of refusals begin. -/
def refusalOpenings : List String :=
  ["Type '", "EEPROM layout", "The value", "Invalid layout", "Invalid value", "Class type"]

/-- How the messages that are ruled out begin. -/
def ruledOutOpenings : List String :=
  ["Invalid component", "Invalid or", "Undefined property", "Library "]

theorem openings_differ : ∀ a ∈ refusalOpenings, ∀ b ∈ ruledOutOpenings,
    ¬a.toList <+: b.toList ∧ ¬b.toList <+: a.toList := by
  decide

theorem opens_append {a b s : String} (h : a.toList <+: b.toList) :
    a.toList <+: (b ++ s).toList := by
  rw [String.toList_append]
  exact h.trans (List.prefix_append _ _)

theorem Refusal.opening {f : Failure} (h : Refusal f) {m : String} (hm : m ∈ f.chain) :
    ∃ a ∈ refusalOpenings, a.toList <+: m.toList := by
  cases h with
  | layout fault =>
    obtain rfl := List.mem_singleton.1 hm
    cases fault with
    | unsupported type name =>
      refine ⟨"Type '", by decide, ?_⟩
      exact opens_append (opens_append (opens_append (opens_append (by decide))))
    | tooLarge name =>
      exact ⟨"EEPROM layout", by decide, opens_append (opens_append (by decide))⟩
  | firstValue value name =>
    obtain rfl := List.mem_singleton.1 hm
    refine ⟨"The value", by decide, ?_⟩
    exact opens_append (opens_append (opens_append (opens_append (by decide))))
  | version text =>
    obtain rfl := List.mem_singleton.1 hm
    exact ⟨"Invalid layout", by decide, opens_append (opens_append (by decide))⟩
  | timing what component property =>
    -- the one refusal with a cause, which is a message of its own
    rcases List.mem_cons.1 hm with rfl | hm
    · refine ⟨"Invalid value", by decide, ?_⟩
      exact opens_append (opens_append (opens_append (opens_append (by decide))))
    · obtain rfl := List.mem_singleton.1 hm
      exact ⟨"The value", by decide, opens_append (opens_append (by decide))⟩
  | view component =>
    obtain rfl := List.mem_singleton.1 hm
    exact ⟨"Class type", by decide, opens_append (opens_append (by decide))⟩

theorem RuledOut.opening {m : String} (h : RuledOut m) :
    ∃ b ∈ ruledOutOpenings, b.toList <+: m.toList := by
  cases h with
  | componentType type component =>
    refine ⟨"Invalid component", by decide, ?_⟩
    exact opens_append (opens_append (opens_append (opens_append (by decide))))
  | propertyValue property component =>
    refine ⟨"Invalid or", by decide, ?_⟩
    exact opens_append (opens_append (opens_append (opens_append (by decide))))
  | undefinedProperty property =>
    exact ⟨"Undefined property", by decide, opens_append (opens_append (by decide))⟩
  | notALibrary name =>
    exact ⟨"Library ", by decide, opens_append (opens_append (by decide))⟩

theorem Refusal.not_ruledOut {f : Failure} (h : Refusal f) {m : String} (hm : m ∈ f.chain) :
    ¬RuledOut m := by
  intro hruled
  obtain ⟨a, ha, ham⟩ := h.opening hm
  obtain ⟨b, hb, hbm⟩ := hruled.opening
  obtain ⟨hab, hba⟩ := openings_differ a ha b hb
  -- of two ways in which one message begins, one continues the other
  rcases List.prefix_or_prefix_of_prefix ham hbm with h' | h'
  · exact hab h'
  · exact hba h'

end Boardwright.Generation
