import Boardwright.Closure.Directory
import Boardwright.Proofs.Lines
import Boardwright.Proofs.Removal
import Mathlib.Data.List.DropRight

/-!
# Paths above and below a path

A build makes its paths by joining names to the directory of the library, and makes the directories
that are missing by going from a path to the one above it.  Both are said here by the steps of the
paths: a path above has fewer of the same steps, and a path below has more of them, each the name of
an entry.

* **`parent?_spec`**: the path above another one starts like it and has the first of its steps.
* **`Descends`**: plain names lead from a path down to another one.
* **`Along`**: a path on the way to another one, or below it.
* **`Location.Regular`**: what a path leads to is reached by plain names, from a place where paths can
  start or that lies above one.
-/

namespace Boardwright

namespace Text

/-- Splitting undoes joining, unless a piece has the separator in it. -/
theorem splitChars_intercalate {sep : Char} {pieces : List (List Char)} (hne : pieces ≠ [])
    (h : ∀ piece ∈ pieces, sep ∉ piece) : splitChars sep ([sep].intercalate pieces) = pieces := by
  have hpieces : ∀ piece ∈ pieces, splitChars sep piece = [piece] :=
    fun piece hpiece => splitChars_of_not_mem (h piece hpiece)
  rw [splitChars_intercalate_flatMap sep hne, List.flatMap_congr hpieces, List.flatMap_singleton']

/-- Splitting a text undoes joining. -/
theorem splitOn_intercalate {sep : Char} {text : String} {pieces : List String}
    (hsep : text.toList = [sep]) (hne : pieces ≠ []) (h : ∀ piece ∈ pieces, sep ∉ piece.toList) :
    splitOn sep (text.intercalate pieces) = pieces := by
  rw [splitOn, String.toList_intercalate, hsep, splitChars_intercalate (by simpa using hne)]
  · simp [List.map_map, Function.comp_def]
  · intro cs hcs
    obtain ⟨piece, hpiece, rfl⟩ := List.mem_map.1 hcs
    exact h piece hpiece

/-- A character of a joined text is in one of the pieces, or between them. -/
theorem mem_intercalate {sep : String} {pieces : List String} {c : Char}
    (h : c ∈ (sep.intercalate pieces).toList) :
    c ∈ sep.toList ∨ ∃ piece ∈ pieces, c ∈ piece.toList := by
  induction pieces with
  | nil => simp at h
  | cons piece rest ih =>
    cases rest with
    | nil => exact .inr ⟨piece, by simp, by simpa using h⟩
    | cons next rest =>
      rw [String.intercalate_cons_cons, String.toList_append, String.toList_append, List.mem_append,
        List.mem_append] at h
      rcases h with (hpiece | hsep) | hrest
      · exact .inr ⟨piece, by simp, hpiece⟩
      · exact .inl hsep
      · rcases ih hrest with hsep | ⟨q, hq, hc⟩
        · exact .inl hsep
        · exact .inr ⟨q, by simp [hq], hc⟩

end Text

/-- A name in which not all is dots and nothing is a slash is plain. -/
theorem isPlainName_of_mem {name : String} {c : Char} (hc : c ∈ name.toList) (hdot : c ≠ '.')
    (hslash : '/' ∉ name.toList) : isPlainName name = true := by
  have hne : ∀ dots : String, (∀ d ∈ dots.toList, d = '.') → name ≠ dots := by
    intro dots hdots hname
    rw [hname] at hc
    exact hdot (hdots c hc)
  have hempty := hne "" (by simp)
  have hone := hne "." (by simp)
  have htwo := hne ".." (by simp)
  simp [isPlainName, hempty, hone, htwo, hslash]

namespace Path

theorem isPrefix_dropIdle (absolute : Bool) (pieces : List String) :
    dropIdle absolute pieces <+: pieces := by
  rw [dropIdle]
  split
  · next hdot =>
    simp only [Bool.and_eq_true, beq_iff_eq] at hdot
    obtain ⟨rest, hrest⟩ : ∃ rest, pieces = "." :: rest := by
      cases pieces with
      | nil => exact absurd hdot.2 (by simp)
      | cons piece rest => exact ⟨rest, by simpa using hdot.2⟩
    exact ⟨rest, by simp [hrest]⟩
  · exact List.rdropWhile_prefix _ _

theorem mem_pieces_slash {p : Path} {piece : String} (h : piece ∈ p.pieces) :
    '/' ∉ piece.toList := by
  have hall : piece ∈ Text.splitOn '/' p.text := by
    rw [pieces] at h
    split at h
    · exact List.mem_of_mem_drop h
    · exact h
  obtain ⟨cs, hcs, rfl⟩ := List.mem_map.1 hall
  rw [String.toList_ofList]
  exact Text.not_mem_of_mem_splitChars hcs

/-- The pieces that are not empty are the steps. -/
theorem filter_pieces (p : Path) : p.pieces.filter (· != "") = p.steps := by
  rw [pieces, steps]
  split
  · next habs =>
    -- the piece before the slash of the root is empty
    obtain ⟨cs, hcs⟩ : ∃ cs, p.text.toList = '/' :: cs := by
      simp only [isAbsoluteText, beq_iff_eq] at habs
      exact List.head?_eq_some_iff.1 habs
    simp [Text.splitOn, hcs, Text.splitChars]
  · rfl

/-- The steps of a path that is put together from pieces. -/
theorem steps_intercalate {pieces : List String} (h : ∀ piece ∈ pieces, '/' ∉ piece.toList) :
    (⟨"/".intercalate pieces⟩ : Path).steps = pieces.filter (· != "") := by
  by_cases hne : pieces = []
  · subst hne
    rfl
  · rw [steps, Text.splitOn_intercalate rfl hne h]

theorem steps_slash (s : String) : (⟨"/" ++ s⟩ : Path).steps = (⟨s⟩ : Path).steps := by
  rw [steps_eq, steps_eq]
  simp [Text.splitChars]

/-- Pieces of which the first is not empty make a relative path. -/
theorem isAbsoluteText_intercalate {pieces : List String}
    (hslash : ∀ piece ∈ pieces, '/' ∉ piece.toList) (hhead : pieces.head? ≠ some "") :
    isAbsoluteText ("/".intercalate pieces) = false := by
  cases pieces with
  | nil => rfl
  | cons piece rest =>
    cases hcs : ("/".intercalate (piece :: rest)).toList with
    | nil => simp [isAbsoluteText, hcs]
    | cons c cs =>
      by_cases hc : c = '/'
      · -- an absolute path would be split behind an empty piece
        have hsplit : Text.splitOn '/' ("/".intercalate (piece :: rest)) = piece :: rest :=
          Text.splitOn_intercalate rfl (by simp) hslash
        rw [Text.splitOn, hcs, hc] at hsplit
        simp only [Text.splitChars, if_true, List.map_cons, List.cons.injEq] at hsplit
        exact absurd (by rw [← hsplit.1]; rfl) hhead
      · simp [isAbsoluteText, hcs, hc]

/-- A relative path does not start with an empty piece, unless it is empty. -/
theorem head?_pieces_of_relative {p : Path} (h : isAbsoluteText p.text = false)
    (hne : p.text ≠ "") : p.pieces.head? ≠ some "" := by
  intro hpiece
  rw [pieces, h] at hpiece
  simp only [Bool.false_eq_true, if_false, Text.splitOn] at hpiece
  cases hcs : p.text.toList with
  | nil => exact hne (String.toList_injective (by simpa using hcs))
  | cons c cs =>
    have hc : c ≠ '/' := by
      intro hc
      simp [isAbsoluteText, hcs, hc] at h
    rw [hcs] at hpiece
    cases hs : Text.splitChars '/' cs with
    | nil => exact absurd hs (Text.splitChars_ne_nil '/' cs)
    | cons q qs =>
      simp only [Text.splitChars, if_neg hc, hs, List.map_cons, List.head?_cons,
        Option.some.injEq] at hpiece
      have hnil := congrArg String.toList hpiece
      simp at hnil

/-- What is above a path: the beginning of its pieces. -/
theorem exists_pieces_of_parent? {p q : Path} (h : p.parent? = some q) :
    p.text ≠ "" ∧ ∃ above, above <+: p.pieces ∧
      q.text = if isAbsoluteText p.text then "/" ++ "/".intercalate above
        else "/".intercalate above := by
  rw [parent?] at h
  dsimp only at h
  split at h
  · cases h
  · next hbody =>
    cases h
    refine ⟨?_, _, ?_, rfl⟩
    · intro hempty
      apply hbody
      simp [body, pieces, hempty, isAbsoluteText, Text.splitOn, Text.splitChars, dropIdle]
    · have hwhole : p.body <+: p.pieces := isPrefix_dropIdle _ _
      exact (isPrefix_dropIdle _ _).trans ((List.dropLast_prefix _).trans hwhole)

/-- The path above another one starts like it and has the first of its steps. -/
theorem parent?_spec {p q : Path} (h : p.parent? = some q) :
    q.start = p.start ∧ q.steps <+: p.steps := by
  obtain ⟨hne, above, hinitial, htext⟩ := exists_pieces_of_parent? h
  obtain ⟨text⟩ := q
  have hslash : ∀ piece ∈ above, '/' ∉ piece.toList := fun piece hpiece =>
    mem_pieces_slash (hinitial.subset hpiece)
  have hsteps : above.filter (· != "") <+: p.steps := by
    rw [← filter_pieces]
    exact hinitial.filter _
  cases habs : isAbsoluteText p.text with
  | true =>
    rw [habs, if_pos rfl] at htext
    dsimp only at htext
    subst htext
    have hroot : isAbsoluteText ("/" ++ "/".intercalate above) = true := by simp [isAbsoluteText]
    refine ⟨by rw [start, start, habs, hroot], ?_⟩
    rw [steps_slash, steps_intercalate hslash]
    exact hsteps
  | false =>
    rw [habs, if_neg (by simp)] at htext
    dsimp only at htext
    subst htext
    have hrelative : isAbsoluteText ("/".intercalate above) = false := by
      apply isAbsoluteText_intercalate hslash
      intro hhead
      apply head?_pieces_of_relative habs hne
      obtain ⟨after, hafter⟩ := hinitial
      rw [← hafter, List.head?_append, hhead]
      rfl
    refine ⟨by rw [start, start, habs, hrelative], ?_⟩
    rw [steps_intercalate hslash]
    exact hsteps

/-! ### Paths below a path -/

/-- Plain names lead from the path `top` down to the path `p`. -/
structure Descends (top p : Path) (names : List String) : Prop where
  plain : ∀ name ∈ names, isPlainName name = true
  start : p.start = top.start
  steps : p.steps = top.steps ++ names

section Descends

variable {top p q : Path} {names : List String}

theorem Descends.refl (top : Path) : Descends top top [] :=
  ⟨by simp, rfl, by simp⟩

theorem Descends.trans {more : List String} (h : Descends top p names) (h' : Descends p q more) :
    Descends top q (names ++ more) := by
  refine ⟨List.forall_mem_append.2 ⟨h.plain, h'.plain⟩, h'.start.trans h.start, ?_⟩
  · rw [h'.steps, h.steps, List.append_assoc]

theorem descends_join (top : Path) {name : String} (h : isPlainName name = true) :
    Descends top (top.join name) [name] :=
  ⟨by simpa using h, start_join top h, steps_join top h⟩

theorem Descends.join {name : String} (h : Descends top p names) (hname : isPlainName name = true) :
    Descends top (p.join name) (names ++ [name]) :=
  h.trans (descends_join p hname)

/-- The path that names lead to from another one. -/
def below (p : Path) (names : List String) : Path := names.foldl join p

theorem below_nil (p : Path) : p.below [] = p := rfl

theorem below_cons (p : Path) (name : String) (rest : List String) :
    p.below (name :: rest) = (p.join name).below rest := rfl

theorem descends_below (top : Path) {names : List String}
    (h : ∀ name ∈ names, isPlainName name = true) : Descends top (top.below names) names := by
  induction names generalizing top with
  | nil => exact .refl top
  | cons name rest ih =>
    obtain ⟨hname, hrest⟩ := List.forall_mem_cons.1 h
    exact (descends_join top hname).trans (ih (top.join name) hrest)

theorem foldl_next_of_plain (l : Location) (h : ∀ name ∈ names, isPlainName name = true) :
    names.foldl Location.next l = names.reverse ++ l := by
  induction names generalizing l with
  | nil => rfl
  | cons name rest ih =>
    have hname : isPlainName name = true := h name (by simp)
    simp only [isPlainName, Bool.and_eq_true, bne_iff_ne, ne_eq] at hname
    rw [List.foldl_cons, Location.next_of_name l hname.1.1.2 hname.1.2,
      ih _ fun n hn => h n (by simp [hn])]
    simp

theorem Descends.destination (h : Descends top p names) :
    p.destination = names.reverse ++ top.destination := by
  rw [Path.destination, Path.destination, h.start, h.steps, List.foldl_append,
    foldl_next_of_plain _ h.plain]

/-- A path on the way to the path `top`, or below it. -/
def Along (top p : Path) : Prop :=
  p.start = top.start ∧ (p.steps <+: top.steps ∨ ∃ names, Descends top p names)

theorem Descends.along (h : Descends top p names) : Along top p :=
  ⟨h.start, .inr ⟨names, h⟩⟩

theorem Along.parent (h : Along top p) (hq : p.parent? = some q) : Along top q := by
  obtain ⟨hstart, hinitial⟩ := parent?_spec hq
  obtain ⟨hp, habove | ⟨names, hbelow⟩⟩ := h
  · exact ⟨hstart.trans hp, .inl (hinitial.trans habove)⟩
  · refine ⟨hstart.trans hp, ?_⟩
    rw [hbelow.steps] at hinitial
    rcases List.prefix_or_prefix_of_prefix hinitial (List.prefix_append top.steps names) with
      habove | ⟨between, hbetween⟩
    · exact .inl habove
    · refine .inr ⟨between, ?_, hstart.trans hp, hbetween.symm⟩
      -- the names that are left are the first of the names
      rw [← hbetween, List.prefix_append_right_inj] at hinitial
      exact fun name hname => hbelow.plain name (hinitial.subset hname)

end Descends

end Path

/-! ### Modules below a root -/

namespace Path

theorem below_append (p : Path) (names more : List String) :
    p.below (names ++ more) = (p.below names).below more :=
  List.foldl_append

theorem below_injective {p : Path} {names others : List String}
    (h : ∀ name ∈ names, isPlainName name = true) (h' : ∀ name ∈ others, isPlainName name = true)
    (heq : p.below names = p.below others) : names = others := by
  have hsteps := (descends_below p h).steps
  rw [heq, (descends_below p h').steps] at hsteps
  exact (List.append_cancel_left hsteps).symm

/-- What is put between a path and a part that is joined to it. -/
def glue (p : Path) : String := if p.text.isEmpty || p.endsInSlash then "" else "/"

theorem join_of_relative (p : Path) {part : String} (h : isAbsoluteText part = false) :
    p.join part = ⟨p.text ++ p.glue ++ part⟩ := by
  rw [join, if_neg (by simp [h]), glue]
  split
  · simp
  · rfl

theorem toList_ne_nil_of_isPlainName {name : String} (h : isPlainName name = true) :
    name.toList ≠ [] := by
  intro hnil
  have hempty : name = "" := String.toList_injective (by simpa using hnil)
  rw [hempty] at h
  exact absurd h (by decide)

/-- A path whose last part is a plain name is joined to by a slash. -/
theorem isEmpty_join (p : Path) {name : String} (h : isPlainName name = true) :
    (p.join name).text.isEmpty = false := by
  rw [join_of_relative p (isAbsoluteText_of_isPlainName h), ← Bool.not_eq_true, String.isEmpty_iff]
  intro hempty
  have hnil := congrArg String.toList hempty
  simp [toList_ne_nil_of_isPlainName h] at hnil

theorem glue_join (p : Path) {name : String} (h : isPlainName name = true) :
    (p.join name).glue = "/" := by
  have hne := toList_ne_nil_of_isPlainName h
  have htext := isEmpty_join p h
  have hlast : (p.text ++ p.glue ++ name).toList.getLast? ≠ some '/' := by
    rw [String.toList_append, List.getLast?_append_of_ne_nil _ hne]
    intro hlast
    exact slash_not_mem_of_isPlainName h (List.mem_of_getLast? hlast)
  rw [glue, htext, endsInSlash, join_of_relative p (isAbsoluteText_of_isPlainName h), if_neg]
  rw [Bool.false_or, beq_iff_eq]
  exact hlast

/-- A path can be joined part by part. -/
theorem join_slash (p : Path) {name rest : String} (h : isPlainName name = true)
    (hrest : isAbsoluteText rest = false) :
    p.join (name ++ "/" ++ rest) = (p.join name).join rest := by
  have hname := isAbsoluteText_of_isPlainName h
  have hwhole : isAbsoluteText (name ++ "/" ++ rest) = false := by
    cases hcs : name.toList with
    | nil => exact absurd hcs (toList_ne_nil_of_isPlainName h)
    | cons c cs => simpa [isAbsoluteText, hcs] using hname
  rw [join_of_relative _ hrest, glue_join p h, join_of_relative p hwhole, join_of_relative p hname]
  simp [String.append_assoc]

theorem join_intercalate (p : Path) {names : List String} (hne : names ≠ [])
    (h : ∀ name ∈ names, isPlainName name = true) : p.join ("/".intercalate names) = p.below names := by
  induction names generalizing p with
  | nil => exact absurd rfl hne
  | cons name rest ih =>
    obtain ⟨hname, hrest⟩ := List.forall_mem_cons.1 h
    cases rest with
    | nil => rw [String.intercalate_singleton]; rfl
    | cons next rest =>
      have hrelative : isAbsoluteText ("/".intercalate (next :: rest)) = false := by
        apply isAbsoluteText_intercalate fun n hn => slash_not_mem_of_isPlainName (hrest n hn)
        intro hempty
        have hnext : isPlainName next = true := hrest next (by simp)
        have hnil : next = "" := by simpa using hempty
        rw [hnil] at hnext
        exact absurd hnext (by decide)
      rw [String.intercalate_cons_cons, join_slash p hname hrelative, ih _ (by simp) hrest]
      rfl

theorem dropIdle_concat (absolute : Bool) (before : List String) {name : String}
    (h : isPlainName name = true) : dropIdle absolute (before ++ [name]) = before ++ [name] := by
  have hidle : (name == "" || name == ".") = false := by
    simp only [isPlainName, Bool.and_eq_true, bne_iff_ne, ne_eq] at h
    simp [h.1.1.1, h.1.1.2]
  simp [dropIdle, hidle]

/-- The pieces of a path, joined again. -/
theorem text_eq_pieces (p : Path) :
    p.text = if isAbsoluteText p.text then "/" ++ "/".intercalate p.pieces
      else "/".intercalate p.pieces := by
  have hsplit : "/".intercalate (Text.splitOn '/' p.text) = p.text := by
    apply String.toList_injective
    rw [String.toList_intercalate, Text.splitOn, List.map_map]
    have hslash : "/".toList = ['/'] := rfl
    simp [Function.comp_def, hslash, Text.intercalate_splitChars]
  rw [pieces]
  split
  · next habs =>
    obtain ⟨cs, hcs⟩ : ∃ cs, p.text.toList = '/' :: cs := by
      simp only [isAbsoluteText, beq_iff_eq] at habs
      exact List.head?_eq_some_iff.1 habs
    apply String.toList_injective
    have hslash : "/".toList = ['/'] := rfl
    rw [String.toList_append, String.toList_intercalate, Text.splitOn, hcs]
    simp [Text.splitChars, Function.comp_def, hslash, Text.intercalate_splitChars]
  · exact hsplit.symm

theorem pieces_slash (x : String) {name : String} (h : isPlainName name = true) :
    (⟨x ++ "/" ++ name⟩ : Path).pieces =
      (if isAbsoluteText (x ++ "/") then (Text.splitOn '/' x).drop 1 else Text.splitOn '/' x)
        ++ [name] := by
  have hsplit : Text.splitOn '/' (x ++ "/" ++ name) = Text.splitOn '/' x ++ [name] := by
    have hname := Text.splitChars_of_not_mem (slash_not_mem_of_isPlainName h)
    simp [Text.splitOn, Text.splitChars_append_sep, hname]
  have habs : isAbsoluteText (x ++ "/" ++ name) = isAbsoluteText (x ++ "/") := by
    cases hcs : x.toList with
    | nil => simp [isAbsoluteText, hcs]
    | cons c cs => simp [isAbsoluteText, hcs]
  have hne : Text.splitOn '/' x ≠ [] := by simp [Text.splitOn, Text.splitChars_ne_nil]
  rw [pieces, habs, hsplit]
  split
  · exact List.drop_append_of_le_length (List.length_pos_iff.2 hne)
  · rfl

/-- The last piece of a path that a plain name is joined to is this name. -/
theorem exists_pieces_join (p : Path) {name : String} (h : isPlainName name = true) :
    ∃ before, (p.join name).pieces = before ++ [name] := by
  have hrelative := isAbsoluteText_of_isPlainName h
  rw [join_of_relative p hrelative]
  by_cases hempty : p.text = ""
  · refine ⟨[], ?_⟩
    have hname := Text.splitChars_of_not_mem (slash_not_mem_of_isPlainName h)
    simp [glue, hempty, pieces, hrelative, Text.splitOn, hname]
  · obtain ⟨x, hx⟩ : ∃ x, p.text ++ p.glue = x ++ "/" := by
      cases hslash : p.endsInSlash with
      | false => exact ⟨p.text, by simp [glue, hempty, hslash]⟩
      | true =>
        rw [endsInSlash, beq_iff_eq] at hslash
        obtain ⟨cs, hcs⟩ := List.getLast?_eq_some_iff.1 hslash
        refine ⟨String.ofList cs, String.toList_injective ?_⟩
        simp [glue, endsInSlash, hcs]
    rw [hx, pieces_slash x h]
    exact ⟨_, rfl⟩

/-- The path above one that is joined from plain names is the path without the last name. -/
theorem parent?_join_join (p : Path) {name last : String} (h : isPlainName name = true)
    (hlast : isPlainName last = true) : ((p.join name).join last).parent? = some (p.join name) := by
  obtain ⟨before, hbefore⟩ := exists_pieces_join p h
  have htext := text_eq_pieces (p.join name)
  have hglue := glue_join p h
  generalize p.join name = upper at *
  obtain ⟨x⟩ := upper
  have habs : isAbsoluteText (x ++ "/" ++ last) = isAbsoluteText x ∧
      isAbsoluteText (x ++ "/") = isAbsoluteText x := by
    cases hcs : x.toList with
    | nil =>
      have hempty : x = "" := String.toList_injective (by simpa using hcs)
      rw [hempty] at hglue
      exact absurd hglue (by decide)
    | cons c cs => simp [isAbsoluteText, hcs]
  have hjoin : (⟨x⟩ : Path).join last = ⟨x ++ "/" ++ last⟩ := by
    rw [join_of_relative _ (isAbsoluteText_of_isPlainName hlast), hglue]
  have hpieces : (⟨x ++ "/" ++ last⟩ : Path).pieces = before ++ [name] ++ [last] := by
    rw [pieces_slash x hlast, habs.2, ← hbefore, pieces]
  rw [hbefore] at htext
  rw [hjoin, parent?, body, hpieces, dropIdle_concat _ _ hlast, habs.1]
  simp only [List.dropLast_concat, dropIdle_concat _ _ h]
  simp only [List.isEmpty_iff, List.append_eq_nil_iff, List.cons_ne_self, and_false, if_false]
  rw [← htext]

end Path

theorem not_slash_of_hasPlainSegments {name : String} (h : hasPlainSegments name = true) :
    '/' ∉ name.toList := by
  intro hslash
  rw [← intercalate_nameSegments name] at hslash
  rcases Text.mem_intercalate hslash with hdot | ⟨segment, hsegment, hslash⟩
  · exact absurd hdot (by decide)
  · exact slash_not_mem_of_isPlainName (List.all_eq_true.1 h segment hsegment) hslash

theorem modulePath_eq (name : String) : modulePath name = "/".intercalate (nameSegments name) := by
  apply String.toList_injective
  rw [String.toList_intercalate, modulePath, String.toList_ofList, nameSegments, Text.splitOn,
    List.map_map, ← Text.intercalate_splitChars_of_other]
  simp [Function.comp_def]

/-- The path of a module is made of the parts of its name. -/
theorem join_modulePath (p : Path) {name : String} (h : hasPlainSegments name = true) :
    p.join (modulePath name) = p.below (nameSegments name) := by
  rw [modulePath_eq]
  exact p.join_intercalate (nameSegments_ne_nil name) (List.all_eq_true.1 h)

/-! ### Where paths can lead -/

/-- Plain names lead to the location, from one where paths can start or that lies above one. -/
def Location.Regular (l : Location) : Prop :=
  ∃ names anchor : Location, l = names ++ anchor ∧ (∀ name ∈ names, isPlainName name = true) ∧
    anchor.isAnchor = true

namespace Location

theorem isAnchor_up {l : Location} (h : l.isAnchor = true) : l.up.isAnchor = true := by
  cases l with
  | nil => rfl
  | cons name above =>
    by_cases hdots : name = ".."
    · subst hdots
      simpa [up, isAnchor, root] using h
    · have hroot : name :: above = root := by simpa [isAnchor, hdots] using h
      rw [hroot]
      rfl

theorem Regular.next {l : Location} {piece : String} (h : l.Regular) (hempty : piece ≠ "")
    (hslash : '/' ∉ piece.toList) : (l.next piece).Regular := by
  obtain ⟨names, anchor, rfl, hplain, hanchor⟩ := h
  by_cases hdot : piece = "."
  · rw [Location.next, if_pos hdot]
    exact ⟨names, anchor, rfl, hplain, hanchor⟩
  · by_cases hdots : piece = ".."
    · rw [Location.next, if_neg hdot, if_pos hdots]
      cases names with
      | nil => exact ⟨[], anchor.up, rfl, by simp, isAnchor_up hanchor⟩
      | cons name names =>
        have hname : isPlainName name = true := hplain name (by simp)
        have hne : name ≠ ".." ∧ name ≠ "/" := by
          refine ⟨?_, ?_⟩
          · rintro rfl
            exact absurd hname (by decide)
          · rintro rfl
            exact absurd hname (by decide)
        refine ⟨names, anchor, ?_, fun n hn => hplain n (by simp [hn]), hanchor⟩
        simp [up, hne.1, hne.2]
    · rw [next_of_name _ hdot hdots]
      refine ⟨piece :: names, anchor, rfl, ?_, hanchor⟩
      intro n hn
      rcases List.mem_cons.1 hn with rfl | hn
      · simp [isPlainName, hempty, hdot, hdots, hslash]
      · exact hplain n hn

theorem Regular.isPlainName {name : String} {above : Location} (h : Regular (name :: above))
    (hanchor : isAnchor (name :: above) = false) : isPlainName name = true := by
  obtain ⟨names, anchor, heq, hplain, hisAnchor⟩ := h
  cases names with
  | nil =>
    rw [heq, List.nil_append, hisAnchor] at hanchor
    cases hanchor
  | cons n names =>
    cases heq
    exact hplain name (by simp)

end Location

theorem Path.regular_destination (p : Path) : p.destination.Regular := by
  have hstart : p.start.Regular := by
    refine ⟨[], p.start, rfl, by simp, ?_⟩
    rw [Path.start]
    split
    · rfl
    · rfl
  have hsteps : ∀ piece ∈ p.steps, piece ≠ "" ∧ '/' ∉ piece.toList := by
    intro piece hpiece
    rw [Path.steps_eq] at hpiece
    obtain ⟨cs, hcs, rfl⟩ := List.mem_map.1 hpiece
    rw [List.mem_filter] at hcs
    refine ⟨?_, ?_⟩
    · intro hempty
      have hnil := congrArg String.toList hempty
      simp only [String.toList_ofList] at hnil
      simp [hnil] at hcs
    · rw [String.toList_ofList]
      exact Text.not_mem_of_mem_splitChars hcs.1
  rw [Path.destination]
  generalize p.start = l at hstart
  generalize p.steps = pieces at hsteps
  induction pieces generalizing l with
  | nil => exact hstart
  | cons piece rest ih =>
    obtain ⟨hpiece, hrest⟩ := List.forall_mem_cons.1 hsteps
    exact ih _ (hstart.next hpiece.1 hpiece.2) hrest

end Boardwright
