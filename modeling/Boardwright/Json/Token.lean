import Boardwright.Json.Number

/-!
# Tokens of JSON texts

A JSON text is cut into tokens.  A reader meets faults in the order of the text, so a token that is
written wrongly keeps its fault until the reader asks for its value; a reader that skips the token
never sees faults of its value.  Where the text cannot be cut any further, the tokens end in `broken`.

* **`Token`**: punctuation, and words, numbers and texts with their values or faults.
* **`scanText`**: a text up to its closing quote.
* **`scanNumber`**: a number.
* **`tokens`**: the tokens of a text.
-/

namespace Boardwright.Json

/-- The three words of JSON. -/
inductive Word where
  | null
  | true
  | false
  deriving DecidableEq, Repr

/-- A token. -/
inductive Token where
  | openArray
  | closeArray
  | openObject
  | closeObject
  | comma
  | colon
  /-- The word that its first letter announces, and the fault in the remaining letters, if any. -/
  | word (word : Word) (spelling : Except Fault Unit)
  /-- A number. -/
  | number (value : Except Fault Number)
  /-- A text. -/
  | text (value : Except Fault String)
  /-- A character that no token starts with. -/
  | stray
  /-- The place up to which the text could be cut. -/
  | broken (fault : Fault)

/-! ### Texts -/

/-- What has been read of a text. -/
inductive TextState where
  /-- The characters so far, last first. -/
  | reading (chars : List Char)
  /-- The same, with the first half of a surrogate pair after them. -/
  | half (lead : Nat) (chars : List Char)
  /-- A fault. -/
  | faulty (fault : Fault)

namespace TextState

/-- After a character that is not written by its code. -/
def char (s : TextState) (c : Char) : TextState :=
  match s with
  | .reading cs => .reading (c :: cs)
  | .half _ _ => .faulty .malformed
  | .faulty f => .faulty f

/-- After a character written by a code of 16 bits. -/
def unit (s : TextState) (n : Nat) : TextState :=
  match s with
  | .reading cs =>
    if 0xdc00 ≤ n ∧ n ≤ 0xdfff then .faulty .malformed
    else if 0xd800 ≤ n ∧ n ≤ 0xdbff then .half n cs
    else .reading (Char.ofNat n :: cs)
  | .half lead cs =>
    if 0xdc00 ≤ n ∧ n ≤ 0xdfff then
      .reading (Char.ofNat (0x10000 + (lead - 0xd800) * 0x400 + (n - 0xdc00)) :: cs)
    else .faulty .malformed
  | .faulty f => .faulty f

/-- The text, when its closing quote was reached. -/
def finish : TextState → Except Fault String
  | .reading cs => .ok (String.ofList cs.reverse)
  | .half _ _ => .error .malformed
  | .faulty f => .error f

/-- The fault of a text that cannot be read to its closing quote because of `f`. -/
def stop (s : TextState) (f : Fault) : Fault :=
  match s with
  | .faulty first => first
  | _ => f

end TextState

/-- The value of a hexadecimal digit. -/
def hexDigit? (c : Char) : Option Nat :=
  if '0' ≤ c && c ≤ '9' then some (c.toNat - 48)
  else if 'a' ≤ c && c ≤ 'f' then some (c.toNat - 87)
  else if 'A' ≤ c && c ≤ 'F' then some (c.toNat - 55)
  else none

/-- The value of four hexadecimal digits. -/
def hexUnit? (a b c d : Char) : Option Nat := do
  let a ← hexDigit? a
  let b ← hexDigit? b
  let c ← hexDigit? c
  let d ← hexDigit? d
  return a * 4096 + b * 256 + c * 16 + d

/-- The number of bytes that a text takes. -/
def byteCount (cs : List Char) : Nat :=
  cs.foldr (fun c n => c.utf8Size + n) 0

/-- The character that an escape of one letter stands for. -/
def escaped? (c : Char) : Option Char :=
  if c = '"' then some '"'
  else if c = '\\' then some '\\'
  else if c = '/' then some '/'
  else if c = 'b' then some '\x08'
  else if c = 'f' then some '\x0c'
  else if c = 'n' then some '\n'
  else if c = 'r' then some '\r'
  else if c = 't' then some '\t'
  else none

/-- What was found out about a token: its value, and the rest of the text or the fault that keeps even
a skipping reader from it. -/
structure Scan (α : Type) where
  /-- The value. -/
  value : Except Fault α
  /-- The rest of the text. -/
  rest : Except Fault (List Char)

/-- A text that ends in a fault. -/
def Scan.stopped {α : Type} (s : TextState) (f : Fault) : Scan α :=
  ⟨.error (s.stop f), .error f⟩

/-- Reads a text after its opening quote. -/
def scanText (s : TextState) : List Char → Scan String
  | [] => .stopped s .truncated
  | '"' :: rest => ⟨s.finish, .ok rest⟩
  | ['\\'] => .stopped s .truncated
  | '\\' :: 'u' :: a :: b :: c :: d :: rest =>
    match hexUnit? a b c d with
    | some n => scanText (s.unit n) rest
    | none => .stopped s .malformed
  | '\\' :: 'u' :: rest => .stopped s (if byteCount rest < 4 then .truncated else .malformed)
  | '\\' :: e :: rest =>
    match escaped? e with
    | some c => scanText (s.char c) rest
    | none => .stopped s .malformed
  | c :: rest => if c.toNat < 32 then .stopped s .malformed else scanText (s.char c) rest

/-! ### Numbers -/

/-- The value of a decimal digit. -/
def decimalDigit (c : Char) : Nat := c.toNat - 48

/-- The digits at the start of a text, and the rest. -/
def takeDigits (cs : List Char) : List Nat × List Char :=
  ((cs.takeWhile Char.isDigit).map decimalDigit, cs.dropWhile Char.isDigit)

/-- The number formed by digits. -/
def digitsValue (ds : List Nat) : Nat :=
  ds.foldl (fun n d => n * 10 + d) 0

/-- A number that misses a digit before `rest`. -/
def missingDigit (rest : List Char) : Scan Number :=
  ⟨.error (if rest.isEmpty then .truncated else .malformed), .error .malformed⟩

/-- A complete number. -/
def wholeNumber (x : Numeral) (rest : List Char) : Scan Number :=
  match x.value? with
  | some n => ⟨.ok n, .ok rest⟩
  | none => ⟨.error .malformed, .ok rest⟩

/-- Reads the exponent of a number, if there is one. -/
def scanExponent (x : Numeral) : List Char → Scan Number
  | c :: rest =>
    if c = 'e' ∨ c = 'E' then
      let (negative, rest) :=
        match rest with
        | '+' :: r => (false, r)
        | '-' :: r => (true, r)
        | r => (false, r)
      match takeDigits rest with
      | ([], rest) => missingDigit rest
      | (ds, rest) =>
        let n : Int := digitsValue ds
        wholeNumber { x with exponent := some (if negative then -n else n) } rest
    else wholeNumber x (c :: rest)
  | [] => wholeNumber x []

/-- Reads a number after its sign. -/
def scanNumber (negative : Bool) (cs : List Char) : Scan Number :=
  match takeDigits cs with
  | ([], rest) => missingDigit rest
  | (0 :: _ :: _, _) => ⟨.error .malformed, .error .malformed⟩
  | (whole, '.' :: rest) =>
    match takeDigits rest with
    | ([], rest) => missingDigit rest
    | (fraction, rest) => scanExponent ⟨negative, whole, some fraction, none⟩ rest
  | (whole, rest) => scanExponent ⟨negative, whole, none, none⟩ rest

/-! ### Words and punctuation -/

/-- Reads the letters of a word. -/
def scanLetters : List Char → List Char → Scan Unit
  | [], rest => ⟨.ok (), .ok rest⟩
  | _ :: _, [] => ⟨.error .truncated, .error .truncated⟩
  | l :: letters, c :: rest =>
    if l = c then scanLetters letters rest else ⟨.error .malformed, .error .malformed⟩

/-- The token of a punctuation mark. -/
def punctuation? (c : Char) : Option Token :=
  if c = '[' then some .openArray
  else if c = ']' then some .closeArray
  else if c = '\x7b' then some .openObject
  else if c = '\x7d' then some .closeObject
  else if c = ',' then some .comma
  else if c = ':' then some .colon
  else none

/-- The characters that may stand between tokens. -/
def isSpace (c : Char) : Bool :=
  c == ' ' || c == '\n' || c == '\t' || c == '\r'

/-- The first token of a text that starts with `c`, and what follows it. -/
def scanToken (c : Char) (cs : List Char) : Token × Except Fault (List Char) :=
  match punctuation? c with
  | some t => (t, .ok cs)
  | none =>
    if c = '"' then
      let s := scanText (.reading []) cs
      (.text s.value, s.rest)
    else if c = '-' then
      let s := scanNumber true cs
      (.number s.value, s.rest)
    else if c.isDigit then
      let s := scanNumber false (c :: cs)
      (.number s.value, s.rest)
    else if c = 'n' then
      let s := scanLetters ['u', 'l', 'l'] cs
      (.word .null s.value, s.rest)
    else if c = 't' then
      let s := scanLetters ['r', 'u', 'e'] cs
      (.word .true s.value, s.rest)
    else if c = 'f' then
      let s := scanLetters ['a', 'l', 's', 'e'] cs
      (.word .false s.value, s.rest)
    else (.stray, .error .malformed)

/-- The tokens of a text.  Each round removes at least one character, so `fuel` characters are enough
for a text of that length. -/
def tokensFrom : Nat → List Char → List Token
  | 0, _ => []
  | _, [] => []
  | fuel + 1, c :: cs =>
    if isSpace c then tokensFrom fuel cs
    else
      match scanToken c cs with
      | (t, .ok rest) => t :: tokensFrom fuel rest
      | (t, .error f) => [t, .broken f]

/-- The tokens of a text. -/
def tokens (text : String) : List Token :=
  let cs := text.toList
  tokensFrom cs.length cs

end Boardwright.Json
