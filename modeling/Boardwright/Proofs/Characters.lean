import Boardwright.Proofs.Blank
import Boardwright.Proofs.Spelling

/-!
# Characters in the generated program

A character is written between quotes, as it stands or as an escape.  The digits of an escape are read
by the reader of 32 bit numbers, which takes a plus sign and any number of digits, and the escape is
kept as it was written.  In the program an escape has no sign, and an octal one has at most three
digits.

* **`OneCharacter`**: the bodies of literals that stand for one character.
* **`CharSpelling`**: the texts that are accepted as a character, each with the body of its literal.
* **`Overwritten`**: escapes with a sign or with too many digits.
* **`oneCharacter_literal_iff`**: the literal of an accepted character stands for one character, unless
  it is such an escape.
-/

namespace Boardwright

open Text (Digits)

variable {b : Board} {base n : ℕ} {c : Char} {cs body digits escape : List Char} {v : String}

/-! ### Literals of one character -/

/-- The body of a literal that stands for one character: the character itself, or an escape. -/
inductive OneCharacter : List Char → Prop where
  | plain {c : Char} : c ≠ '\'' → c ≠ '\\' → c ≠ '\n' → c ≠ '\r' → OneCharacter [c]
  | simple {c : Char} : c ∈ ['\\', '\'', '"', '?', 'a', 'b', 'f', 'n', 'r', 't', 'v'] → OneCharacter ['\\', c]
  | octal {digits : List Char} {n : ℕ} :
      1 ≤ digits.length → digits.length ≤ 3 → Digits 8 digits n → n ≤ 255 → OneCharacter ('\\' :: digits)
  | hexadecimal {digits : List Char} {n : ℕ} :
      1 ≤ digits.length → Digits 16 (digits.map Char.toLower) n → n ≤ 255 →
        OneCharacter ('\\' :: 'x' :: digits)

/-! ### Accepted characters -/

/-- The texts that are accepted as a character, and the bodies of their literals.  The digits of an
escape may stand behind a plus sign. -/
inductive CharSpelling : List Char → List Char → Prop where
  | blank : CharSpelling [] [' ']
  | quote : CharSpelling ['\''] ['\\', '\'']
  | plain {c : Char} : c ≠ '\'' → c ≠ '\\' → CharSpelling [c] [c]
  | simple {c : Char} : c ∈ simpleEscapes → CharSpelling ['\\', c] ['\\', c]
  | octal {sign digits : List Char} {n : ℕ} : sign = [] ∨ sign = ['+'] → digits ≠ [] → Digits 8 digits n →
      n ≤ 255 → CharSpelling ('\\' :: (sign ++ digits)) ('\\' :: (sign ++ digits))
  | hexadecimal {sign digits : List Char} {n : ℕ} : sign = [] ∨ sign = ['+'] → digits ≠ [] →
      Digits 16 (digits.map Char.toLower) n → n ≤ 255 →
      CharSpelling ('\\' :: 'x' :: (sign ++ digits)) ('\\' :: 'x' :: (sign ++ digits))

/-- No digits begin with a plus sign. -/
theorem not_digits_plus (hbase : base ≤ 16) : ¬ Digits base (('+' :: cs).map Char.toLower) n := by
  have hletters : ∀ d < 16, '+'.toLower ≠ Nat.digitChar d := by decide
  intro h
  obtain ⟨ds, hds, hcs, -⟩ := h
  cases ds with
  | nil => cases hcs
  | cons d ds =>
    have hd := hds d List.mem_cons_self
    exact hletters d (hd.trans_le hbase) (List.cons.inj hcs).1

/-- A number of 32 bits has digits behind an optional plus sign. -/
theorem word32?_eq_some_iff (hbase : base ≤ 16) : Text.word32? base cs = some n ↔
    n < Text.word32Bound ∧ ∃ sign digits, (sign = [] ∨ sign = ['+']) ∧ cs = sign ++ digits ∧ digits ≠ [] ∧
      Digits base (digits.map Char.toLower) n := by
  have hread : ∀ {cs : List Char} {n : ℕ}, Text.natural? base cs = some n ↔
      cs ≠ [] ∧ Digits base (cs.map Char.toLower) n := Text.natural?_eq_some_iff_toLower hbase
  constructor
  · intro h
    unfold Text.word32? at h
    split at h
    all_goals
      rw [Option.filter_eq_some_iff, hread, decide_eq_true_eq] at h
    · exact ⟨h.2, ['+'], _, .inr rfl, rfl, h.1⟩
    · exact ⟨h.2, [], _, .inl rfl, rfl, h.1⟩
  · intro h
    rcases h with ⟨hn, sign, digits, rfl | rfl, rfl, hdigits⟩
    · rw [Text.word32?, Option.filter_eq_some_iff, hread, decide_eq_true_eq]
      · exact ⟨hdigits, hn⟩
      · intro rest hrest
        subst hrest
        exact not_digits_plus hbase hdigits.2
    · rw [List.singleton_append, Text.word32?, Option.filter_eq_some_iff, hread, decide_eq_true_eq]
      exact ⟨hdigits, hn⟩

/-- The digits of an escape, hexadecimal behind an `x` and octal otherwise. -/
theorem escapeCode?_eq_some_iff : escapeCode? escape = some n ↔
    n < Text.word32Bound ∧ ∃ sign digits, (sign = [] ∨ sign = ['+']) ∧ digits ≠ [] ∧
      (escape = sign ++ digits ∧ Digits 8 digits n ∨
        escape = 'x' :: (sign ++ digits) ∧ Digits 16 (digits.map Char.toLower) n) := by
  constructor
  · intro h
    unfold escapeCode? at h
    split at h
    · obtain ⟨hn, sign, digits, hsign, rfl, hne, hdigits⟩ := (word32?_eq_some_iff (by decide)).1 h
      exact ⟨hn, sign, digits, hsign, hne, .inr ⟨rfl, hdigits⟩⟩
    · obtain ⟨hn, sign, digits, hsign, rfl, hne, hdigits⟩ := (word32?_eq_some_iff (by decide)).1 h
      exact ⟨hn, sign, digits, hsign, hne, .inl ⟨rfl, (Text.digits_toLower_iff (by decide)).1 hdigits⟩⟩
  · intro h
    rcases h with ⟨hn, sign, digits, hsign, hne, ⟨rfl, hdigits⟩ | ⟨rfl, hdigits⟩⟩
    · have hword : Text.word32? 8 (sign ++ digits) = some n :=
        (word32?_eq_some_iff (by decide)).2
          ⟨hn, sign, digits, hsign, rfl, hne, (Text.digits_toLower_iff (by decide)).2 hdigits⟩
      rw [escapeCode?]
      · exact hword
      · -- neither a sign nor a digit is an `x`
        intro rest hrest
        have hx : 'x' ∈ sign ++ digits := hrest ▸ List.mem_cons_self
        rcases List.mem_append.1 hx with hx | hx
        · rcases hsign with rfl | rfl
          · cases hx
          · exact absurd hx (by decide)
        · exact absurd (Text.isDigit_of_mem_digits (by decide) hdigits hx) (by decide)
    · exact (word32?_eq_some_iff (by decide)).2 ⟨hn, sign, digits, hsign, rfl, hne, hdigits⟩

/-- A backslash begins an escape, which is kept as it is. -/
theorem charBody?_escape (hne : escape ≠ []) : charBody? ('\\' :: escape) = some body ↔
    body = '\\' :: escape ∧
      ((∃ c ∈ simpleEscapes, escape = [c]) ∨ ∃ n ≤ 255, escapeCode? escape = some n) := by
  cases escape with
  | nil => exact absurd rfl hne
  | cons c rest =>
    rw [charBody?]
    by_cases hsimple : rest = [] ∧ c ∈ simpleEscapes
    · obtain ⟨rfl, hc⟩ := hsimple
      simp [hc, eq_comm]
    · have htest : (rest.isEmpty && simpleEscapes.contains c) = false := by
        simpa using hsimple
      have hnone : ¬ ∃ d ∈ simpleEscapes, c :: rest = [d] := by
        intro h
        obtain ⟨d, hd, heq⟩ := h
        cases heq
        exact hsimple ⟨rfl, hd⟩
      simp only [htest, Bool.false_eq_true, if_false, hnone, false_or]
      cases escapeCode? (c :: rest) with
      | none => simp
      | some code => simp [and_comm, eq_comm]

/-- Without a backslash there is only one character. -/
theorem charBody?_of_ne {first : Char} {rest : List Char} (hfirst : first ≠ '\\') :
    charBody? (first :: rest) = some body ↔
      rest = [] ∧ body = if first = '\'' then ['\\', '\''] else [first] := by
  cases rest with
  | nil =>
    rw [charBody?]
    · split
      · simp [eq_comm]
      · simp [eq_comm]
    · simp [hfirst]
  | cons next rest =>
    rw [charBody?]
    · simp
    all_goals simp [hfirst]

/-- What is accepted as a character. -/
theorem charBody?_eq_some_iff : charBody? cs = some body ↔ CharSpelling cs body := by
  constructor
  · intro h
    cases cs with
    | nil =>
      cases h
      exact .blank
    | cons first rest =>
      by_cases hfirst : first = '\\'
      · subst hfirst
        have hne : rest ≠ [] := by
          intro hrest
          subst hrest
          cases h
        obtain ⟨rfl, ⟨c, hc, rfl⟩ | ⟨n, hn, hcode⟩⟩ := (charBody?_escape hne).1 h
        · exact .simple hc
        · obtain ⟨-, sign, digits, hsign, hsome, ⟨rfl, hdigits⟩ | ⟨rfl, hdigits⟩⟩ :=
            escapeCode?_eq_some_iff.1 hcode
          · exact .octal hsign hsome hdigits hn
          · exact .hexadecimal hsign hsome hdigits hn
      · obtain ⟨rfl, rfl⟩ := (charBody?_of_ne hfirst).1 h
        split
        · next hquote =>
          subst hquote
          exact .quote
        · next hquote => exact .plain hquote hfirst
  · have hbyte : ∀ {n}, n ≤ 255 → n < Text.word32Bound := fun hn => hn.trans_lt (by decide)
    intro h
    cases h with
    | blank => rfl
    | quote => rfl
    | plain hquote hback => exact (charBody?_of_ne hback).2 ⟨rfl, (if_neg hquote).symm⟩
    | simple hc => exact (charBody?_escape (List.cons_ne_nil _ _)).2 ⟨rfl, .inl ⟨_, hc, rfl⟩⟩
    | octal hsign hne hdigits hn =>
      refine (charBody?_escape (List.append_ne_nil_of_right_ne_nil _ hne)).2 ⟨rfl, .inr ⟨_, hn, ?_⟩⟩
      exact escapeCode?_eq_some_iff.2 ⟨hbyte hn, _, _, hsign, hne, .inl ⟨rfl, hdigits⟩⟩
    | hexadecimal hsign hne hdigits hn =>
      refine (charBody?_escape (List.cons_ne_nil _ _)).2 ⟨rfl, .inr ⟨_, hn, ?_⟩⟩
      exact escapeCode?_eq_some_iff.2 ⟨hbyte hn, _, _, hsign, hne, .inr ⟨rfl, hdigits⟩⟩

/-! ### Escapes of more than one character -/

/-- Escapes that stand for no single character although their digits are those of a byte: there is a
sign in front of the digits, or there are more than three octal digits. -/
inductive Overwritten : List Char → Prop where
  | octalSign {rest : List Char} : Overwritten ('\\' :: '+' :: rest)
  | hexadecimalSign {rest : List Char} : Overwritten ('\\' :: 'x' :: '+' :: rest)
  | long {digits : List Char} : (∀ c ∈ digits, c.isDigit = true) → 3 < digits.length →
      Overwritten ('\\' :: digits)

theorem OneCharacter.not_overwritten (h : OneCharacter body) : ¬ Overwritten body := by
  intro hover
  cases h with
  | plain _ hback =>
    cases hover with
    | long => exact hback rfl
  | simple hc =>
    cases hover with
    | octalSign => exact absurd hc (by decide)
    | long _ hlong => exact absurd hlong (by simp)
  | octal _ hshort hdigits =>
    have hisDigit {c : Char} := Text.isDigit_of_mem_digits (c := c) (by decide) hdigits
    cases hover with
    | octalSign => exact absurd (hisDigit List.mem_cons_self) (by decide)
    | hexadecimalSign => exact absurd (hisDigit List.mem_cons_self) (by decide)
    | long _ hlong => omega
  | hexadecimal _ hdigits =>
    cases hover with
    | hexadecimalSign => exact not_digits_plus (by decide) hdigits
    | long hall => exact absurd (hall 'x' List.mem_cons_self) (by decide)

/-- Escapes are kept as they are. -/
theorem CharSpelling.eq_of_overwritten (h : CharSpelling cs body) (hover : Overwritten cs) : body = cs := by
  cases h with
  | blank => cases hover
  | quote => cases hover
  | _ => rfl

theorem CharSpelling.oneCharacter (h : CharSpelling cs body)
    (hblank : ∀ c, cs.head? = some c → Text.isBlank c = false) (hover : ¬ Overwritten cs) :
    OneCharacter body := by
  cases h with
  | blank => exact .plain (by decide) (by decide) (by decide) (by decide)
  | quote => exact .simple (by decide)
  | @plain c hquote hback =>
    have hc := hblank c rfl
    refine .plain hquote hback ?_ ?_
    · intro hbreak
      subst hbreak
      exact absurd hc (by decide)
    · intro hreturn
      subst hreturn
      exact absurd hc (by decide)
  | simple hc => exact .simple hc
  | @octal sign digits n hsign hne hdigits hn =>
    rcases hsign with rfl | rfl
    · refine .octal (List.length_pos_iff.2 hne) ?_ hdigits hn
      by_contra hlong
      exact hover (.long (fun c hc => Text.isDigit_of_mem_digits (by decide) hdigits hc) (not_le.1 hlong))
    · exact absurd .octalSign hover
  | hexadecimal hsign hne hdigits hn =>
    rcases hsign with rfl | rfl
    · exact .hexadecimal (List.length_pos_iff.2 hne) hdigits hn
    · exact absurd .hexadecimalSign hover

/-- **The literal of a character.**  An accepted character has a literal between quotes.  It stands for
one character exactly if the character was not written as an escape with a sign or with more than three
octal digits. -/
theorem oneCharacter_literal_iff (h : b.accepts "char" (some v) = true) :
    ∃ body, literal? "char" (some v) = some ("'" ++ String.ofList body ++ "'") ∧
      CharSpelling (Text.trim v).toList body ∧ (OneCharacter body ↔ ¬ Overwritten (Text.trim v).toList) := by
  have htype : ValueType.ofName? "char" = some .char := by decide +kernel
  rw [accepts_eq_acceptsPresent htype (by decide) (by decide), Board.acceptsPresent,
    Option.isSome_iff_exists] at h
  obtain ⟨body, hbody⟩ := h
  have hspelling : CharSpelling (Text.trim v).toList body := charBody?_eq_some_iff.1 hbody
  refine ⟨body, ?_, hspelling, ?_⟩
  · rw [Text.trim, String.toList_ofList] at hbody
    unfold literal?
    rw [htype]
    show (charBody? (Text.trimChars v.toList)).map _ = _
    rw [hbody]
    rfl
  · constructor
    · intro hone hover
      rw [← hspelling.eq_of_overwritten hover] at hover
      exact hone.not_overwritten hover
    · intro hover
      exact hspelling.oneCharacter (Text.trimmed_trim v).first hover

theorem oneCharacter_literal_spaced :
    wideBoard.accepts "char" (some " \\x004A ") = true ∧
      literal? "char" (some " \\x004A ") = some "'\\x004A'" ∧ OneCharacter "\\x004A".toList := by
  have haccepts : wideBoard.accepts "char" (some " \\x004A ") = true := by decide +kernel
  have htext : (Text.trim " \\x004A ").toList = "\\x004A".toList := by decide +kernel
  obtain ⟨body, -, hspelling, hone⟩ := oneCharacter_literal_iff haccepts
  rw [htext] at hspelling hone
  have hbody : charBody? "\\x004A".toList = some "\\x004A".toList := by decide +kernel
  obtain rfl : "\\x004A".toList = body :=
    Option.some.inj (hbody.symm.trans (charBody?_eq_some_iff.2 hspelling))
  refine ⟨haccepts, by decide +kernel, hone.2 ?_⟩
  intro hover
  cases hover with
  | long hall => exact absurd (hall 'x' List.mem_cons_self) (by decide)

/-- Escapes with a sign and an octal escape with four digits are accepted and written as they are, and
their literals do not stand for one character. -/
theorem overwritten_escapes_accepted :
    (wideBoard.accepts "char" (some "\\+7") = true ∧ literal? "char" (some "\\+7") = some "'\\+7'" ∧
      ¬ OneCharacter "\\+7".toList) ∧
    (wideBoard.accepts "char" (some "\\x+41") = true ∧ literal? "char" (some "\\x+41") = some "'\\x+41'" ∧
      ¬ OneCharacter "\\x+41".toList) ∧
    (wideBoard.accepts "char" (some "\\0101") = true ∧ literal? "char" (some "\\0101") = some "'\\0101'" ∧
      ¬ OneCharacter "\\0101".toList) := by
  refine ⟨⟨by decide +kernel, by decide +kernel, ?_⟩, ⟨by decide +kernel, by decide +kernel, ?_⟩,
    by decide +kernel, by decide +kernel, ?_⟩
  · intro h
    exact h.not_overwritten .octalSign
  · intro h
    exact h.not_overwritten .hexadecimalSign
  · intro h
    have hdigits : ∀ c ∈ ['0', '1', '0', '1'], c.isDigit = true := List.all_eq_true.1 (by decide)
    exact h.not_overwritten (.long hdigits (by decide))

end Boardwright
