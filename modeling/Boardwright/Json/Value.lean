import Boardwright.Dict
import Boardwright.Json.Token

/-!
# JSON values

A JSON text is read into a value with one pass over its tokens.  Objects are kept by increasing keys,
and of two members with one key the later one counts.  Arrays and objects may be nested up to a limit.

* **`Json.Value`**: the values.
* **`Json.Frame`**: an array or object that is not complete yet.
* **`Json.step`**: the effect of one token.
* **`Json.readObject`**: the members of the object that a text consists of.
-/

namespace Boardwright.Json

/-- A JSON value. -/
inductive Value where
  | null
  | bool (b : Bool)
  | number (n : Number)
  | text (s : String)
  | array (items : List Value)
  /-- An object, with its members by increasing keys. -/
  | object (members : List (String × Value))

/-- An array or an object that is not complete yet. -/
inductive Frame where
  /-- The items so far, last first. -/
  | array (items : List Value)
  /-- The members so far, and the key of the next one. -/
  | object (members : List (String × Value)) (key : String)

/-- What may come next. -/
inductive Expect where
  /-- A value. -/
  | value
  /-- A value or the end of an empty array. -/
  | firstItem
  /-- A key or the end of an empty object. -/
  | firstKey (members : List (String × Value))
  /-- A key. -/
  | key (members : List (String × Value))
  /-- The colon after a key. -/
  | colon
  /-- A comma or the end of the innermost array or object. -/
  | separator

/-- How deep arrays and objects may be nested. -/
def maxDepth : Nat := 127

/-- A reader in the middle of a text: what it expects inside which arrays and objects, or the complete
value. -/
inductive Reading where
  /-- Something is missing. -/
  | inside (frames : List Frame) (expect : Expect)
  /-- The value is complete. -/
  | done (value : Value)

/-- The reader after a value inside the given arrays and objects. -/
def Reading.afterValue (v : Value) : List Frame → Reading
  | [] => .done v
  | .array items :: rest => .inside (.array (v :: items) :: rest) .separator
  | .object members key :: rest =>
    .inside (.object (insertEntry key v members) "" :: rest) .separator

/-- The value of a word. -/
def Word.value : Word → Value
  | .null => .null
  | .true => .bool Bool.true
  | .false => .bool Bool.false

/-- The reader after the first token of a value. -/
def startValue (frames : List Frame) : Token → Except Fault Reading
  | .word w (.ok ()) => .ok (.afterValue w.value frames)
  | .word _ (.error f) => .error f
  | .number (.ok n) => .ok (.afterValue (.number n) frames)
  | .number (.error f) => .error f
  | .text (.ok s) => .ok (.afterValue (.text s) frames)
  | .text (.error f) => .error f
  | .openArray =>
    if frames.length < maxDepth then .ok (.inside (.array [] :: frames) .firstItem)
    else .error .malformed
  | .openObject =>
    if frames.length < maxDepth then .ok (.inside (.object [] "" :: frames) (.firstKey []))
    else .error .malformed
  | .broken f => .error f
  | _ => .error .malformed

/-- The reader after a key. -/
def startMember (frames : List Frame) (members : List (String × Value)) :
    Token → Except Fault Reading
  | .text (.ok key) => .ok (.inside (.object members key :: frames.drop 1) .colon)
  | .text (.error f) => .error f
  | .broken f => .error f
  | _ => .error .malformed

/-- The reader after one more token. -/
def step (frames : List Frame) : Expect → Token → Except Fault Reading
  | .value, t => startValue frames t
  | .firstItem, .closeArray => .ok (.afterValue (.array []) (frames.drop 1))
  | .firstItem, t => startValue frames t
  | .firstKey _, .closeObject => .ok (.afterValue (.object []) (frames.drop 1))
  | .firstKey members, t => startMember frames members t
  | .key members, t => startMember frames members t
  | .colon, .colon => .ok (.inside frames .value)
  | .separator, .comma =>
    match frames with
    | .object members _ :: _ => .ok (.inside frames (.key members))
    | _ => .ok (.inside frames .value)
  | .separator, .closeArray =>
    match frames with
    | .array items :: rest => .ok (.afterValue (.array items.reverse) rest)
    | _ => .error .malformed
  | .separator, .closeObject =>
    match frames with
    | .object members _ :: rest => .ok (.afterValue (.object members) rest)
    | _ => .error .malformed
  | _, .broken f => .error f
  | _, _ => .error .malformed

/-- Reads tokens until a value is complete; also gives the tokens that are left. -/
def readFrom : Reading → List Token → Except Fault (Value × List Token)
  | .done v, ts => .ok (v, ts)
  | .inside _ _, [] => .error .truncated
  | .inside frames expect, t :: ts =>
    match step frames expect t with
    | .ok r => readFrom r ts
    | .error f => .error f

/-- The fault of a token where a value of another sort is expected. -/
def wrongSort : Token → Fault
  | .word _ (.error f) => f
  | .number (.error f) => f
  | .text (.error f) => f
  | .word _ (.ok ()) => .misshapen
  | .number (.ok _) => .misshapen
  | .text (.ok _) => .misshapen
  | .openArray => .misshapen
  | .openObject => .misshapen
  | .broken f => f
  | _ => .malformed

/-- Nothing may follow the value that a text consists of. -/
def atEnd : List Token → Except Fault Unit
  | [] => .ok ()
  | _ :: _ => .error .malformed

/-- The members of the object that a text consists of, by increasing keys. -/
def readObject (text : String) : Except Fault (List (String × Value)) :=
  match tokens text with
  | [] => .error .truncated
  | .openObject :: ts => do
    let (v, rest) ← readFrom (.inside [.object [] ""] (.firstKey [])) ts
    atEnd rest
    match v with
    | .object members => .ok members
    | _ => .error .misshapen
  | t :: _ => .error (wrongSort t)

end Boardwright.Json
