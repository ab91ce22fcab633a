import Boardwright.Board.Platform
import Boardwright.Text.Decimal

/-!
# Values and their literals

Which texts are values of a declared type on a board, and how a value is written in the generated
program.

* **`Board.accepts`**: whether a text is a value of a type.
* **`literal?`**: the literal of a value.
* **`charBody?`**: the body of a character literal.
* **`escapeChars`**: the body of a text literal.
-/

namespace Boardwright

/-! ### Characters and texts -/

/-- The letters that form an escape of one character after a backslash. -/
def simpleEscapes : List Char :=
  ['\\', '\'', '"', '?', 'a', 'b', 'f', 'n', 'r', 't', 'v']

/-- The code of an escape written with digits: `x` and hexadecimal digits, or octal digits. -/
def escapeCode? : List Char → Option Nat
  | 'x' :: hex => Text.word32? 16 hex
  | octal => Text.word32? 8 octal

/-- The body of the literal of a single character.  The empty text means a space; an escape is kept
as it is when it denotes one byte. -/
def charBody? : List Char → Option (List Char)
  | [] => some [' ']
  | ['\\'] => none
  | '\\' :: c :: cs =>
    if cs.isEmpty && simpleEscapes.contains c then some ['\\', c]
    else
      match escapeCode? (c :: cs) with
      | some code => if code ≤ 255 then some ('\\' :: c :: cs) else none
      | none => none
  | [c] => if c = '\'' then some ['\\', '\''] else some [c]
  | _ => none

/-- The escape of a character inside a text literal. -/
def escapeChar (c : Char) : List Char :=
  if c = '"' then ['\\', '"']
  else if c = '\\' then ['\\', '\\']
  else if c = '\n' then ['\\', 'n']
  else if c = '\r' then ['\\', 'r']
  else if c = '\t' then ['\\', 't']
  else [c]

/-- The body of a text literal. -/
def escapeChars (cs : List Char) : List Char :=
  cs.flatMap escapeChar

/-- A text between double quotes. -/
def quoted (text : String) : String :=
  "\"" ++ String.ofList (escapeChars text.toList) ++ "\""

/-! ### Pins and ports -/

/-- Whether a text is an index below `count`. -/
def isIndexBelow (cs : List Char) (count : UInt32) : Bool :=
  match Text.index? cs with
  | some n => decide (n < count.toNat)
  | none => false

/-- Whether a text is an analog pin, written `A` and its index. -/
def isAnalogPin (cs : List Char) (count : UInt32) : Bool :=
  match cs with
  | 'A' :: digits => isIndexBelow digits count
  | _ => false

/-- The number of a serial port: `Serial` is 0, `Serial1` is 1, and so on. -/
def serialNumber? : List Char → Option Nat
  | 'S' :: 'e' :: 'r' :: 'i' :: 'a' :: 'l' :: rest =>
    match rest with
    | [] => some 0
    | c :: _ => if c = '0' then none else Text.index? rest
  | _ => none

/-! ### Values of a type -/

/-- Whether a trimmed text is a value of a type on the board. -/
def Board.acceptsPresent (b : Board) (t : ValueType) (cs : List Char) : Bool :=
  match t with
  | .bool =>
    let lower := cs.map Char.toLower
    lower == "true".toList || lower == "false".toList
  | .char => (charBody? cs).isSome
  | .integer i =>
    match Text.int64? (String.ofList cs) with
    | some n => decide (i.least ≤ n) && decide (n ≤ i.greatest)
    | none => false
  | .float => Text.isFiniteDecimal cs
  | .string | .flashString => true
  | .analogPin => isAnalogPin cs b.analogPins
  | .digitalPin => isIndexBelow cs b.digitalPins
  | .pin => isAnalogPin cs b.analogPins || isIndexBelow cs b.digitalPins
  | .interrupt => isIndexBelow cs b.interrupts
  | .hardwareSerial =>
    match serialNumber? cs with
    | some n => decide (n < b.hardwareSerials.toNat)
    | none => false
  | .enumeration => !cs.isEmpty

/-- Whether `value` is a value of the declared type on the board.  Only a text may be absent. -/
def Board.accepts (b : Board) (type : String) (value : Option String) : Bool :=
  match ValueType.ofName? type with
  | none => false
  | some .string => true
  | some .flashString => true
  | some t =>
    match value with
    | some v => b.acceptsPresent t (Text.trimChars v.toList)
    | none => false

/-- The literal of a value of the declared type.  An absent text is `NULL`; of other types only a
value that is present has a literal. -/
def literal? (type : String) (value : Option String) : Option String :=
  match ValueType.ofName? type, value with
  | none, _ => none
  | some .string, some text => some (quoted text)
  | some .string, none => some "NULL"
  | some .flashString, some text => some ("F(" ++ quoted text ++ ")")
  | some .flashString, none => some "NULL"
  | some _, none => none
  | some .bool, some v => some (Text.asciiLower (Text.trim v))
  | some .char, some v =>
    (charBody? (Text.trimChars v.toList)).map fun body => "'" ++ String.ofList body ++ "'"
  | some (.integer i), some v => some (Text.trim v ++ i.suffix)
  | some _, some v => some (Text.trim v)

end Boardwright
