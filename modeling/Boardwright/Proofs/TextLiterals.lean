import Boardwright.Board.Literal
import Mathlib.Algebra.Ring.Parity
import Mathlib.Data.List.DropRight

/-!
# Texts in the generated program

A text is written between double quotes, and five of its characters are written as escapes.  The program
reads the literal from left to right: a backslash takes the character behind it along, and the first
double quote that is not taken along ends the literal.  A value can therefore say anything without
leaving its literal.

* **`readBody?`**: the text that the body of a literal stands for.
* **`closeText?`**: where a literal ends.
* **`Enclosed`**: bodies that can stand between double quotes.
* **`text_literal_reads_back`**: the literal of a text is enclosed, ends at its last quote and stands
  for the text.
-/

namespace Boardwright

/-! ### How the program reads a literal -/

/-- The character that an escape stands for, by the character behind the backslash. -/
def escapedChar? : Char → Option Char
  | '"' => some '"'
  | '\\' => some '\\'
  | 'n' => some '\n'
  | 'r' => some '\r'
  | 't' => some '\t'
  | _ => none

/-- The text that a body stands for.  There is none if a backslash begins none of the five escapes. -/
def readBody? : List Char → Option (List Char)
  | [] => some []
  | ['\\'] => none
  | '\\' :: c :: rest => (escapedChar? c).bind fun d => (readBody? rest).map (d :: ·)
  | c :: rest => (readBody? rest).map (c :: ·)

/-- Cuts what follows an opening quote into the body of the literal and what comes after the closing
quote. -/
def closeText? : List Char → Option (List Char × List Char)
  | [] => none
  | '"' :: rest => some ([], rest)
  | '\\' :: c :: rest => (closeText? rest).map fun cut => ('\\' :: c :: cut.1, cut.2)
  | c :: rest => (closeText? rest).map fun cut => (c :: cut.1, cut.2)

/-- How many backslashes a text ends with. -/
def backslashes (cs : List Char) : ℕ :=
  (cs.rtakeWhile (· = '\\')).length

/-- A body that can stand between double quotes.  Backslashes pair up from the left, so a quote is
escaped if the run of backslashes in front of it is odd, and the closing quote is not escaped if the
body ends with an even run. -/
structure Enclosed (body : List Char) : Prop where
  lineFeed : '\n' ∉ body
  carriageReturn : '\r' ∉ body
  tab : '\t' ∉ body
  quotes : ∀ lead trail, body = lead ++ '"' :: trail → Odd (backslashes lead)
  backslashes : Even (backslashes body)

theorem backslashes_append_backslash (cs : List Char) : backslashes (cs ++ ['\\']) = backslashes cs + 1 := by
  rw [backslashes, List.rtakeWhile_concat_pos _ _ _ (by decide), List.length_append]
  rfl

theorem backslashes_append_of_ne {c : Char} (hc : c ≠ '\\') (cs : List Char) :
    backslashes (cs ++ [c]) = 0 := by
  rw [backslashes, List.rtakeWhile_concat_neg _ _ _ (by simpa using hc), List.length_nil]

/-! ### One character -/

/-- The characters that cannot stand in a body as they are. -/
def specialChars : List Char :=
  ['"', '\\', '\n', '\r', '\t']

/-- A character is written as one of the escapes, or as it is. -/
theorem escapeChar_cases (c : Char) :
    (∃ d, escapedChar? d = some c ∧ d ∉ ['\n', '\r', '\t'] ∧ escapeChar c = ['\\', d]) ∨
      c ∉ specialChars ∧ escapeChar c = [c] := by
  by_cases hc : c ∈ specialChars
  · left
    simp only [specialChars, List.mem_cons, List.not_mem_nil, or_false] at hc
    rcases hc with rfl | rfl | rfl | rfl | rfl
    · exact ⟨'"', rfl, by decide, rfl⟩
    · exact ⟨'\\', rfl, by decide, rfl⟩
    · exact ⟨'n', rfl, by decide, rfl⟩
    · exact ⟨'r', rfl, by decide, rfl⟩
    · exact ⟨'t', rfl, by decide, rfl⟩
  · have hne := hc
    simp only [specialChars, List.mem_cons, List.not_mem_nil, or_false, not_or] at hne
    refine .inr ⟨hc, ?_⟩
    simp only [escapeChar, hne, if_false]

theorem readBody?_escapeChar (c : Char) (cs : List Char) :
    readBody? (escapeChar c ++ cs) = (readBody? cs).map (c :: ·) := by
  rcases escapeChar_cases c with ⟨d, hd, -, hc⟩ | ⟨hplain, hc⟩
  · rw [hc, List.cons_append, List.singleton_append, readBody?, hd, Option.bind_some]
  · have hback : c ≠ '\\' := fun h => hplain (h ▸ by decide)
    rw [hc, List.singleton_append, readBody?]
    · intro h
      exact absurd h hback
    · intro d rest h
      exact absurd h hback

theorem closeText?_escapeChar (c : Char) (cs : List Char) :
    closeText? (escapeChar c ++ cs) = (closeText? cs).map fun cut => (escapeChar c ++ cut.1, cut.2) := by
  rcases escapeChar_cases c with ⟨d, -, -, hc⟩ | ⟨hplain, hc⟩
  · rw [hc, List.cons_append, List.singleton_append, closeText?]
    rfl
  · have hquote : c ≠ '"' := fun h => hplain (h ▸ by decide)
    have hback : c ≠ '\\' := fun h => hplain (h ▸ by decide)
    rw [hc, List.singleton_append, closeText?]
    · rfl
    · exact hquote
    · intro d rest h
      exact absurd h hback

/-! ### Enclosed bodies -/

/-- The quotes of a body are those in front of its last character, and perhaps this one. -/
theorem quotes_append_iff {body : List Char} {c : Char} :
    (∀ lead trail, body ++ [c] = lead ++ '"' :: trail → Odd (backslashes lead)) ↔
      (∀ lead trail, body = lead ++ '"' :: trail → Odd (backslashes lead)) ∧
        (c = '"' → Odd (backslashes body)) := by
  constructor
  · intro h
    refine ⟨?_, ?_⟩
    · intro lead trail hbody
      exact h lead (trail ++ [c]) (by rw [hbody, List.append_assoc, List.cons_append])
    · rintro rfl
      exact h body [] rfl
  · rintro ⟨hbody, hc⟩ lead trail heq
    rcases List.eq_nil_or_concat trail with rfl | ⟨front, last, rfl⟩
    · obtain ⟨rfl, hquote⟩ := List.append_inj' heq rfl
      exact hc (List.cons.inj hquote).1
    · rw [List.concat_eq_append, ← List.cons_append, ← List.append_assoc] at heq
      exact hbody lead front (List.append_inj' heq rfl).1

theorem enclosed_nil : Enclosed [] where
  lineFeed := List.not_mem_nil
  carriageReturn := List.not_mem_nil
  tab := List.not_mem_nil
  quotes := by simp
  backslashes := Even.zero

namespace Enclosed

variable {body : List Char} {c : Char}

theorem append_plain (h : Enclosed body) (hc : c ∉ specialChars) : Enclosed (body ++ [c]) := by
  simp only [specialChars, List.mem_cons, List.not_mem_nil, or_false, not_or] at hc
  obtain ⟨hquote, hback, hfeed, hreturn, htab⟩ := hc
  refine ⟨?_, ?_, ?_, ?_, ?_⟩
  · simp [h.lineFeed, Ne.symm hfeed]
  · simp [h.carriageReturn, Ne.symm hreturn]
  · simp [h.tab, Ne.symm htab]
  · exact quotes_append_iff.2 ⟨h.quotes, fun hc => absurd hc hquote⟩
  · rw [backslashes_append_of_ne hback]
    exact Even.zero

/-- A backslash takes any character but a break along, a quote or another backslash too. -/
theorem append_escape (h : Enclosed body) (hc : c ∉ ['\n', '\r', '\t']) : Enclosed (body ++ ['\\', c]) := by
  simp only [List.mem_cons, List.not_mem_nil, or_false, not_or] at hc
  obtain ⟨hfeed, hreturn, htab⟩ := hc
  have hodd : Odd (Boardwright.backslashes (body ++ ['\\'])) := by
    rw [backslashes_append_backslash]
    exact h.backslashes.add_one
  have hsplit : body ++ ['\\', c] = body ++ ['\\'] ++ [c] := by simp
  refine ⟨?_, ?_, ?_, ?_, ?_⟩
  · simp [h.lineFeed, Ne.symm hfeed]
  · simp [h.carriageReturn, Ne.symm hreturn]
  · simp [h.tab, Ne.symm htab]
  · rw [hsplit, quotes_append_iff, quotes_append_iff]
    exact ⟨⟨h.quotes, fun hquote => absurd hquote (by decide)⟩, fun _ => hodd⟩
  · rw [hsplit]
    by_cases hback : c = '\\'
    · rw [hback, backslashes_append_backslash]
      exact hodd.add_one
    · rw [backslashes_append_of_ne hback]
      exact Even.zero

end Enclosed

/-! ### Texts -/

theorem escapeChars_cons (c : Char) (text : List Char) :
    escapeChars (c :: text) = escapeChar c ++ escapeChars text :=
  List.flatMap_cons

theorem enclosed_escapeChars (text : List Char) : Enclosed (escapeChars text) := by
  induction text using List.reverseRecOn with
  | nil => exact enclosed_nil
  | append_singleton text c ih =>
    have hstep : escapeChars (text ++ [c]) = escapeChars text ++ escapeChar c := by simp [escapeChars]
    rw [hstep]
    rcases escapeChar_cases c with ⟨d, -, hd, hc⟩ | ⟨hplain, hc⟩
    · rw [hc]
      exact ih.append_escape hd
    · rw [hc]
      exact ih.append_plain hplain

theorem readBody?_escapeChars (text : List Char) : readBody? (escapeChars text) = some text := by
  induction text with
  | nil => rfl
  | cons c text ih =>
    rw [escapeChars_cons, readBody?_escapeChar, ih, Option.map_some]

theorem closeText?_escapeChars (text rest : List Char) :
    closeText? (escapeChars text ++ '"' :: rest) = some (escapeChars text, rest) := by
  induction text with
  | nil => rfl
  | cons c text ih =>
    rw [escapeChars_cons, List.append_assoc, closeText?_escapeChar, ih, Option.map_some]

/-- A literal says which text it was made of. -/
theorem quoted_inj {text other : String} : quoted text = quoted other ↔ text = other := by
  constructor
  · intro h
    have hbody : escapeChars text.toList = escapeChars other.toList := by
      have hcs := congrArg String.toList h
      simpa [quoted] using hcs
    have hread := congrArg readBody? hbody
    rw [readBody?_escapeChars, readBody?_escapeChars] at hread
    exact String.toList_injective (Option.some.inj hread)
  · rintro rfl
    rfl

theorem literal?_string (text : String) : literal? "string" (some text) = some (quoted text) := by
  have htype : ValueType.ofName? "string" = some .string := by decide +kernel
  unfold literal?
  rw [htype]

theorem literal?_flashString (text : String) :
    literal? "f-string" (some text) = some ("F(" ++ quoted text ++ ")") := by
  have htype : ValueType.ofName? "f-string" = some .flashString := by decide +kernel
  unfold literal?
  rw [htype]

/-- **The literal of a text.**  A text has a literal between double quotes, and another one in flash
memory with the same body.  The body is enclosed and reads back as the text; whatever follows it, the
literal ends behind the body and not earlier; and different texts have different literals. -/
theorem text_literal_reads_back (text : String) :
    ∃ body : List Char,
      literal? "string" (some text) = some ("\"" ++ String.ofList body ++ "\"") ∧
      literal? "f-string" (some text) = some ("F(" ++ ("\"" ++ String.ofList body ++ "\"") ++ ")") ∧
      Enclosed body ∧ readBody? body = some text.toList ∧
      (∀ rest, closeText? (body ++ '"' :: rest) = some (body, rest)) ∧
      ∀ other, (literal? "string" (some other) = literal? "string" (some text) ↔ other = text) ∧
        (literal? "f-string" (some other) = literal? "f-string" (some text) ↔ other = text) := by
  refine ⟨escapeChars text.toList, literal?_string text, literal?_flashString text,
    enclosed_escapeChars text.toList, readBody?_escapeChars text.toList,
    closeText?_escapeChars text.toList, ?_⟩
  intro other
  rw [literal?_string, literal?_string, literal?_flashString, literal?_flashString]
  simp [quoted_inj]

end Boardwright
