/-!
# Lines of text

Small operations on lines and on texts cut at one character.

* **`splitOn`**: the pieces between the occurrences of a character, empty ones included.
* **`lines`**: the lines of a text; a line may end in a carriage return before its line feed.
* **`mergeLines`**: lines joined by line feeds, each behind the same indentation.
* **`collapseSlashes`**: a text in which no two slashes stand side by side.
* **`dedupLines`**: a list without the lines that occurred before.
-/

namespace Boardwright.Text

/-- The pieces of a text between the occurrences of `sep`; there is always at least one. -/
def splitChars (sep : Char) : List Char → List (List Char)
  | [] => [[]]
  | c :: cs =>
    if c = sep then [] :: splitChars sep cs
    else
      match splitChars sep cs with
      | [] => [[c]]
      | p :: ps => (c :: p) :: ps

/-- The pieces of a text between the occurrences of `sep`. -/
def splitOn (sep : Char) (s : String) : List String :=
  (splitChars sep s.toList).map String.ofList

/-- A piece without one carriage return at its end. -/
def dropReturn (cs : List Char) : List Char :=
  if cs.getLast? = some '\r' then cs.dropLast else cs

/-- The lines of a text.  Each line feed ends a line, together with a carriage return before it; what
follows the last line feed is a line only if it is not empty. -/
def lines (s : String) : List String :=
  let pieces := splitChars '\n' s.toList
  let ended := pieces.dropLast.map fun p => String.ofList (dropReturn p)
  match pieces.getLast? with
  | some (c :: cs) => ended ++ [String.ofList (c :: cs)]
  | _ => ended

/-- Lines joined by line feeds, each behind `indent`. -/
def mergeLines (lines : List String) (indent : String) : String :=
  "\n".intercalate (lines.map fun line => indent ++ line)

/-- A text without the slashes that follow another slash; `afterSlash` says whether the text before
ended in one. -/
def collapseSlashesFrom (afterSlash : Bool) : List Char → List Char
  | [] => []
  | c :: cs =>
    if c = '/' then
      if afterSlash then collapseSlashesFrom true cs else c :: collapseSlashesFrom true cs
    else c :: collapseSlashesFrom false cs

/-- A text in which every run of slashes is one slash. -/
def collapseSlashes (s : String) : String :=
  String.ofList (collapseSlashesFrom false s.toList)

/-- The lines that are not in `seen` and not repeated, in order. -/
def dedupFrom (seen : List String) : List String → List String
  | [] => []
  | line :: rest =>
    if line ∈ seen then dedupFrom seen rest else line :: dedupFrom (line :: seen) rest

/-- The lines without repetitions; the first occurrence of each stays. -/
def dedupLines (lines : List String) : List String :=
  dedupFrom [] lines

/-! ### Laws of splitting -/

/-- There is always a piece. -/
theorem splitChars_ne_nil (sep : Char) (cs : List Char) : splitChars sep cs ≠ [] := by
  cases cs with
  | nil => simp [splitChars]
  | cons c cs =>
    simp only [splitChars]
    split
    · simp
    · split <;> simp

/-- Splitting at a separator in the middle of a text. -/
theorem splitChars_append_sep (sep : Char) (a b : List Char) :
    splitChars sep (a ++ sep :: b) = splitChars sep a ++ splitChars sep b := by
  induction a with
  | nil => simp [splitChars]
  | cons c a ih =>
    by_cases h : c = sep
    · simp [splitChars, h, ih]
    · cases hs : splitChars sep a with
      | nil => exact absurd hs (splitChars_ne_nil sep a)
      | cons p ps => simp [splitChars, h, ih, hs]

/-- A text without the separator is one piece. -/
theorem splitChars_of_not_mem {sep : Char} {cs : List Char} (h : sep ∉ cs) :
    splitChars sep cs = [cs] := by
  induction cs with
  | nil => rfl
  | cons c cs ih =>
    simp only [List.mem_cons, not_or] at h
    simp [splitChars, Ne.symm h.1, ih h.2]

/-- No piece has the separator in it. -/
theorem not_mem_of_mem_splitChars {sep : Char} {cs piece : List Char}
    (h : piece ∈ splitChars sep cs) : sep ∉ piece := by
  induction cs generalizing piece with
  | nil => simp_all [splitChars]
  | cons c cs ih =>
    cases hs : splitChars sep cs with
    | nil => exact absurd hs (splitChars_ne_nil sep cs)
    | cons p ps =>
      rw [hs] at ih
      by_cases hc : c = sep
      · simp only [splitChars, hc, if_true, hs, List.mem_cons] at h
        rcases h with rfl | h
        · simp
        · exact ih (by simpa using h)
      · simp only [splitChars, hc, if_false, hs, List.mem_cons] at h
        rcases h with rfl | h
        · simp [ih (List.mem_cons_self ..), Ne.symm hc]
        · exact ih (by simp [h])

/-- Joining the pieces by something else, when their characters are replaced as well. -/
theorem intercalate_splitChars_flatMap {α : Type} (sep : Char) (other : List α) (g : Char → List α)
    (cs : List Char) :
    other.intercalate ((splitChars sep cs).map (·.flatMap g)) =
      cs.flatMap fun c => if c = sep then other else g c := by
  induction cs with
  | nil => simp [splitChars]
  | cons c cs ih =>
    cases hs : splitChars sep cs with
    | nil => exact absurd hs (splitChars_ne_nil sep cs)
    | cons p ps =>
      rw [hs] at ih
      by_cases h : c = sep
      · simp only [splitChars, h, if_true, hs, List.map_cons, List.flatMap_nil, List.flatMap_cons,
          List.intercalate_cons_cons, List.nil_append]
        rw [← ih, List.map_cons]
      · simp only [splitChars, h, if_false, hs, List.map_cons, List.flatMap_cons]
        rw [← ih]
        cases ps with
        | nil => simp
        | cons q qs => simp only [List.map_cons, List.intercalate_cons_cons, List.append_assoc]

/-- Joining the pieces by another separator puts it in the place of the first. -/
theorem intercalate_splitChars_of_other (sep other : Char) (cs : List Char) :
    [other].intercalate (splitChars sep cs) = cs.map fun c => if c = sep then other else c := by
  have hflat := intercalate_splitChars_flatMap sep [other] (fun c => [c]) cs
  simp only [List.flatMap_singleton', List.map_id'] at hflat
  rw [hflat, List.map_eq_flatMap]
  congr 1
  funext c
  split <;> rfl

/-- Joining the pieces gives the text back. -/
theorem intercalate_splitChars (sep : Char) (cs : List Char) :
    [sep].intercalate (splitChars sep cs) = cs := by
  have hsame : (fun c => if c = sep then sep else c) = id := by
    funext c
    split <;> simp_all
  rw [intercalate_splitChars_of_other, hsame, List.map_id]

theorem intercalate_splitOn {sep : Char} {text : String} (hsep : text.toList = [sep]) (s : String) :
    text.intercalate (splitOn sep s) = s := by
  apply String.toList_injective
  have hpieces : (splitOn sep s).map String.toList = splitChars sep s.toList := by
    simp [splitOn, List.map_map, Function.comp_def]
  rw [String.toList_intercalate, hpieces, hsep, intercalate_splitChars]

end Boardwright.Text
