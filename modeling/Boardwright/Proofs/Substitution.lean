import Boardwright.Proofs.Templates
import Mathlib.Algebra.GroupWithZero.Nat
import Mathlib.Data.List.DropRight

/-!
# What filling in a template does

A template is gone through once.  Text is copied, every dollar sign begins a placeholder, and what takes
the place of a placeholder is not looked at again, whatever is in it.

* **`endsOpen_iff`**: a text that ends in a placeholder, seen from its end.
* **`placeholders`**: the names of the placeholders of a template.
* **`count_fillChars`**: the dollar signs of the result come from the replacements.
* **`fill_part_by_part`**: filling in goes through a template once.
-/

namespace Boardwright.Template

variable {look : List Char → List Char} {a b : List Char}

/-! ### Cuts -/

/-- The longest run of name characters at the end of the text stands behind a dollar sign. -/
theorem endsOpen_iff : EndsOpen a ↔ (a.rdropWhile isNameChar).getLast? = some '$' := by
  constructor
  · rintro ⟨lead, name, rfl, hname⟩
    have hreverse : (lead ++ '$' :: name).reverse = name.reverse ++ '$' :: lead.reverse := by simp
    have hstop : ('$' :: lead.reverse).dropWhile isNameChar = '$' :: lead.reverse :=
      List.dropWhile_cons_of_neg (by decide)
    rw [List.rdropWhile, hreverse, List.dropWhile_append_of_pos (by simpa using hname), hstop]
    simp
  · intro h
    obtain ⟨lead, hlead⟩ := List.getLast?_eq_some_iff.1 h
    refine ⟨lead, a.rtakeWhile isNameChar, ?_, fun c hc => List.mem_rtakeWhile_imp hc⟩
    rw [← List.singleton_append, ← List.append_assoc, ← hlead, List.rdropWhile_append_rtakeWhile]

instance (a : List Char) : Decidable (EndsOpen a) :=
  decidable_of_iff _ endsOpen_iff.symm

instance (a b : List Char) : Decidable (Straddles a b) :=
  decidable_of_iff (EndsOpen a ∧ b.head?.any isNameChar = true)
    (and_congr_right fun _ => Option.any_eq_true _ _)

/-! ### Placeholders -/

/-- The names of the placeholders of a template, in order.  Every dollar sign begins one, if only with
an empty name. -/
def placeholders : List Char → List (List Char)
  | [] => []
  | c :: cs => if c = '$' then cs.takeWhile isNameChar :: placeholders cs else placeholders cs

/-- There is no placeholder in a name. -/
theorem placeholders_dropWhile (cs : List Char) :
    placeholders (cs.dropWhile isNameChar) = placeholders cs := by
  induction cs with
  | nil => rfl
  | cons c cs ih =>
    by_cases hname : isNameChar c = true
    · have hc : c ≠ '$' := by
        rintro rfl
        exact absurd hname (by decide)
      rw [List.dropWhile_cons_of_pos hname, ih, placeholders, if_neg hc]
    · rw [List.dropWhile_cons_of_neg hname]

theorem count_fillChars (a : List Char) :
    (fillChars look a).count '$' = ((placeholders a).map fun name => (look name).count '$').sum := by
  fun_induction fillChars look a with
  | case1 => rfl
  | case2 cs ih =>
    rw [List.count_append, ih, placeholders_dropWhile, placeholders, if_pos rfl, List.map_cons, List.sum_cons]
  | case3 c cs hc ih => rw [List.count_cons_of_ne hc, ih, placeholders, if_neg hc]

/-- **Filling in goes through a template once.**  A template that is not cut inside a placeholder is
filled in part by part, a text without dollar signs is copied, and the replacement of a placeholder is
taken as it is, or nothing if there is none.  So the dollar signs of the result are those of the
replacements. -/
theorem fill_part_by_part (r : Replacements) :
    (∀ first second : String, ¬ Straddles first.toList second.toList →
      fill (first ++ second) r = fill first r ++ fill second r) ∧
    (∀ text : String, '$' ∉ text.toList → fill text r = text) ∧
    (∀ name rest : String, (∀ c ∈ name.toList, isNameChar c = true) →
      (∀ c ∈ rest.toList.head?, isNameChar c = false) →
      fill ("$" ++ name ++ rest) r = (r.get? name).getD "" ++ fill rest r) ∧
    ∀ template : String, (fill template r).toList.count '$' =
      ((placeholders template.toList).map fun name =>
        ((r.get? (String.ofList name)).getD "").toList.count '$').sum := by
  refine ⟨fun first second hcut => fill_append_of_not_straddles hcut r,
    fun text htext => fill_of_not_mem htext r, ?_, ?_⟩
  · intro name rest hname hrest
    rw [fill_append hrest, fill_key (List.all_eq_true.2 hname)]
  · intro template
    rw [fill, String.toList_ofList, count_fillChars]
    simp only [lookUp_eq]

/-- A replacement that looks like a placeholder. -/
def nestedReplacements : Replacements :=
  Dict.ofList [("a", "$b"), ("b", "→")]

/-- The parts are cut between two placeholders, and the last placeholder has an empty name. -/
theorem fill_part_by_part_nested :
    ¬ Straddles "ü$a".toList "$b c$".toList ∧ fill ("ü$a" ++ "$b c$") nestedReplacements = "ü$b" ++ "→ c" ∧
      (fill "ü$a$b c$" nestedReplacements).toList.count '$' = 1 := by
  obtain ⟨happend, hcopy, hname, hcount⟩ := fill_part_by_part nestedReplacements
  have hcut : ¬ Straddles "ü$a".toList "$b c$".toList := by decide
  have hfirst : fill "ü$a" nestedReplacements = "ü$b" := by
    have hb : fill "$a" nestedReplacements = "$b" :=
      (hname "a" "" (List.all_eq_true.1 (by decide)) (head_of_any (by decide))).trans (by decide +kernel)
    exact (happend "ü" "$a" (by decide)).trans (by rw [hcopy "ü" (by decide), hb]; rfl)
  have hsecond : fill "$b c$" nestedReplacements = "→ c" :=
    (hname "b" " c$" (List.all_eq_true.1 (by decide)) (head_of_any (by decide))).trans (by decide +kernel)
  refine ⟨hcut, ?_, ?_⟩
  · rw [happend _ _ hcut, hfirst, hsecond]
  · exact (hcount "ü$a$b c$").trans (by decide +kernel)

end Boardwright.Template
