import Boardwright.Text.Blank
import Mathlib.Data.List.DropRight
import Mathlib.Data.List.TakeWhile

/-!
# Blank texts

A text is blank when nothing is left of it after trimming.  The definitions say this in two ways: by
all characters of the text, and by the trimmed text.

* **`Trimmed`**: a text that neither begins nor ends with a blank; trimming leaves just these texts.
* **`Proper`**: such a text that is not empty.
-/

namespace Boardwright.Text

theorem trimChars_eq_nil_iff {cs : List Char} :
    trimChars cs = [] ↔ ∀ c ∈ cs, isBlank c = true := by
  rw [trimChars, trimEnd, trimStart, List.reverse_eq_nil_iff, List.dropWhile_eq_nil_iff]
  simp only [List.mem_reverse]
  constructor
  · intro h
    -- what is left in front of the first character that is not blank would be blank itself
    rw [← List.dropWhile_eq_nil_iff]
    by_contra hne
    have hhead := List.head_dropWhile_not isBlank hne
    rw [h _ (List.head_mem hne)] at hhead
    cases hhead
  · intro h c hc
    exact h c ((List.dropWhile_sublist isBlank).subset hc)

theorem isEmpty_trim_iff {s : String} : (trim s).isEmpty = true ↔ isBlankText s = true := by
  rw [String.isEmpty_iff, trim, isBlankText, List.all_eq_true, ← trimChars_eq_nil_iff]
  constructor
  · intro h
    exact String.ofList_injective h
  · intro h
    rw [h]

theorem nonBlank?_of_blank {s : String} (h : isBlankText s = true) : nonBlank? s = none := by
  rw [nonBlank?, if_pos (isEmpty_trim_iff.2 h)]

theorem nonBlank?_of_not_blank {s : String} (h : isBlankText s ≠ true) :
    nonBlank? s = some (trim s) := by
  rw [nonBlank?, if_neg fun he => h (isEmpty_trim_iff.1 he)]

theorem eq_trim_of_nonBlank? {s t : String} (h : nonBlank? s = some t) : t = trim s := by
  rw [nonBlank?] at h
  split at h
  · cases h
  · exact (Option.some.inj h).symm

/-- A trimmed text has nothing left to trim. -/
theorem trimChars_trimChars (cs : List Char) : trimChars (trimChars cs) = trimChars cs := by
  have hinitial : trimChars cs <+: trimStart cs := List.rdropWhile_prefix isBlank _
  have hstart : trimStart (trimChars cs) = trimChars cs := by
    cases htrimmed : trimChars cs with
    | nil => rfl
    | cons c rest =>
      -- it starts like the text without the blanks at its start
      rw [htrimmed] at hinitial
      obtain ⟨after, hafter⟩ := hinitial
      have hdropped : List.dropWhile isBlank (c :: (rest ++ after)) = c :: (rest ++ after) := by
        rw [← List.cons_append, hafter, trimStart, List.dropWhile_idempotent]
      have hblank : isBlank c = false := by
        have hfirst := List.dropWhile_eq_self_iff.1 hdropped (by simp)
        simpa using hfirst
      rw [trimStart, List.dropWhile_cons_of_neg (by simp [hblank])]
  rw [trimChars, hstart]
  exact List.rdropWhile_idempotent isBlank _

theorem trim_trim (s : String) : trim (trim s) = trim s := by
  rw [trim, trim, String.toList_ofList, trimChars_trimChars]

/-! ### Texts without blanks around them -/

/-- A text that neither begins nor ends with a blank. -/
structure Trimmed (s : String) : Prop where
  first : ∀ c, s.toList.head? = some c → isBlank c = false
  last : ∀ c, s.toList.getLast? = some c → isBlank c = false

/-- A text that is not empty and neither begins nor ends with a blank. -/
structure Proper (s : String) : Prop extends Trimmed s where
  nonempty : s ≠ ""

theorem trimmed_trim (s : String) : Trimmed (trim s) := by
  constructor
  · intro c hc
    rw [trim, String.toList_ofList] at hc
    -- what is left begins like the text without the blanks at its start
    have hinitial : trimChars s.toList <+: trimStart s.toList := List.rdropWhile_prefix isBlank _
    obtain ⟨after, hafter⟩ := hinitial
    have hhead : (s.toList.dropWhile isBlank).head? = some c := by
      show (trimStart s.toList).head? = some c
      rw [← hafter, List.head?_append, hc]
      rfl
    have hfirst := List.head?_dropWhile_not isBlank s.toList
    rw [hhead] at hfirst
    simpa using hfirst
  · intro c hc
    rw [trim, String.toList_ofList, trimChars, trimEnd, List.getLast?_reverse] at hc
    have hlast := List.head?_dropWhile_not isBlank (trimStart s.toList).reverse
    rw [hc] at hlast
    simpa using hlast

/-- Trimming changes nothing where there is nothing to trim. -/
theorem Trimmed.trim_eq {s : String} (h : Trimmed s) : trim s = s := by
  have hdrop : ∀ cs : List Char, (∀ c, cs.head? = some c → isBlank c = false) →
      cs.dropWhile isBlank = cs := by
    intro cs hcs
    cases cs with
    | nil => rfl
    | cons c rest => rw [List.dropWhile_cons_of_neg (by simp [hcs c rfl])]
  have hstart : trimStart s.toList = s.toList := hdrop _ h.first
  have hend : trimEnd s.toList = s.toList := by
    rw [trimEnd, hdrop _ fun c hc => h.last c (List.head?_reverse ▸ hc), List.reverse_reverse]
  rw [trim, trimChars, hstart, hend, String.ofList_toList]

theorem Trimmed.proper {s : String} (h : Trimmed s) (hblank : isBlankText s = false) : Proper s := by
  refine ⟨h, ?_⟩
  rintro rfl
  cases hblank

theorem proper_of_nonBlank? {s t : String} (h : nonBlank? s = some t) : Proper t := by
  rw [nonBlank?] at h
  split at h
  · cases h
  · next hne =>
    cases h
    exact ⟨trimmed_trim s, by simpa using hne⟩

end Boardwright.Text
