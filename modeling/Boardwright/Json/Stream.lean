import Boardwright.Json.Value

/-!
# Records read straight from a JSON text

Settings are read while the text is scanned, so the first fault in the order of the text is the one
that counts, whatever its sort.  A record is an object with known keys or an array of the same values
in their order.  A known key may occur once.  Unknown keys are refused or skipped; what is skipped only
has to be bracketed correctly.

* **`Reader`**: reads a value from the front of a list of tokens.
* **`skipValue`**: passes over a value.
* **`Field`**: a known key with the reader of its value.
* **`readRecord`**: the record that a text consists of.
-/

namespace Boardwright.Json

/-- Reads something from the front of a list of tokens. -/
abbrev Reader (α : Type) := List Token → Except Fault (α × List Token)

namespace Reader

variable {α : Type}

/-- A text. -/
def text : Reader String
  | [] => .error .truncated
  | .text (.ok s) :: ts => .ok (s, ts)
  | t :: _ => .error (wrongSort t)

/-- A truth value. -/
def flag : Reader Bool
  | [] => .error .truncated
  | .word .true (.ok ()) :: ts => .ok (Bool.true, ts)
  | .word .false (.ok ()) :: ts => .ok (Bool.false, ts)
  | t :: _ => .error (wrongSort t)

/-- The word `null`. -/
def null : Reader Unit
  | [] => .error .truncated
  | .word .null (.ok ()) :: ts => .ok ((), ts)
  | t :: _ => .error (wrongSort t)

/-- The word `null` or something else. -/
def orNull (r : Reader α) : Reader (Option α)
  | .word .null (.ok ()) :: ts => .ok (none, ts)
  | .word .null (.error f) :: _ => .error f
  | ts => (r ts).map fun (a, rest) => (some a, rest)

/-- The colon after a key. -/
def colon : Reader Unit
  | [] => .error .truncated
  | .colon :: ts => .ok ((), ts)
  | .broken f :: _ => .error f
  | _ :: _ => .error .malformed

/-- The end of an object. -/
def close : Reader Unit
  | [] => .error .truncated
  | .closeObject :: ts => .ok ((), ts)
  | .broken f :: _ => .error f
  | _ :: _ => .error .malformed

/-- The key of an object. -/
def key : Reader String
  | [] => .error .truncated
  | .text (.ok s) :: ts => .ok (s, ts)
  | .text (.error f) :: _ => .error f
  | .broken f :: _ => .error f
  | _ :: _ => .error .malformed

/-- One of several names: a text, or an object whose only key it is, with the value `null`. -/
def choice (choose : String → Option α) : Reader α
  | [] => .error .truncated
  | .text (.ok s) :: ts =>
    match choose s with
    | some a => .ok (a, ts)
    | none => .error .misshapen
  | .text (.error f) :: _ => .error f
  | .openObject :: ts => do
    let (s, ts) ← key ts
    match choose s with
    | none => .error .misshapen
    | some a =>
      let (_, ts) ← colon ts
      let (_, ts) ← null ts
      let (_, ts) ← close ts
      return (a, ts)
  | .broken f :: _ => .error f
  | _ :: _ => .error .malformed

end Reader

/-! ### Passing over values -/

/-- The two sorts of brackets. -/
inductive Bracket where
  | array
  | object
  deriving DecidableEq, Repr

/-- What may come next in a value that is passed over. -/
inductive SkipExpect where
  | value
  | firstItem
  | firstKey
  | key
  | colon
  | separator
  deriving DecidableEq, Repr

/-- The open brackets and what may come next, or the end of the value. -/
abbrev Skipping := Option (List Bracket × SkipExpect)

/-- The state after a complete value. -/
def skipped : List Bracket → Skipping
  | [] => none
  | bs => some (bs, .separator)

/-- The state after the first token of a value. -/
def skipStart (bs : List Bracket) : Token → Except Fault Skipping
  | .word _ _ => .ok (skipped bs)
  | .number _ => .ok (skipped bs)
  | .text _ => .ok (skipped bs)
  | .openArray => .ok (some (.array :: bs, .firstItem))
  | .openObject => .ok (some (.object :: bs, .firstKey))
  | .broken f => .error f
  | _ => .error .malformed

/-- The state after one more token. -/
def skipStep (bs : List Bracket) : SkipExpect → Token → Except Fault Skipping
  | .firstItem, .closeArray => .ok (skipped (bs.drop 1))
  | .value, t => skipStart bs t
  | .firstItem, t => skipStart bs t
  | .firstKey, .closeObject => .ok (skipped (bs.drop 1))
  | .firstKey, .text _ => .ok (some (bs, .colon))
  | .key, .text _ => .ok (some (bs, .colon))
  | .colon, .colon => .ok (some (bs, .value))
  | .separator, .comma =>
    .ok (some (bs, if bs.head? = some .object then .key else .value))
  | .separator, .closeArray =>
    if bs.head? = some .array then .ok (skipped (bs.drop 1)) else .error .malformed
  | .separator, .closeObject =>
    if bs.head? = some .object then .ok (skipped (bs.drop 1)) else .error .malformed
  | _, .broken f => .error f
  | _, _ => .error .malformed

/-- Passes over tokens up to the end of a value. -/
def skipFrom : Skipping → Reader Unit
  | none, ts => .ok ((), ts)
  | some _, [] => .error .truncated
  | some (bs, e), t :: ts =>
    match skipStep bs e t with
    | .ok s => skipFrom s ts
    | .error f => .error f

/-- Passes over a value. -/
def skipValue : Reader Unit :=
  skipFrom (some ([], .value))

/-! ### Records -/

/-- A known key of a record with the parts `σ`. -/
structure Field (σ : Type) where
  /-- The key. -/
  name : String
  /-- Reads the value and puts it into its place. -/
  read : Reader (σ → σ)
  /-- Whether an array may end before the value. -/
  mayEnd : Bool

/-- What happens to unknown keys. -/
inductive UnknownKeys where
  | skip
  | refuse
  deriving DecidableEq, Repr

variable {σ α : Type}

/-- Reads the value of a key. -/
def readMember (fields : List (Field σ)) (unknown : UnknownKeys) (seen : List String) (s : σ)
    (key : String) : Reader σ := fun ts =>
  match fields.find? fun f => f.name == key with
  | some field =>
    if key ∈ seen then .error .misshapen
    else do
      let (_, ts) ← Reader.colon ts
      let (put, ts) ← field.read ts
      return (put s, ts)
  | none =>
    match unknown with
    | .refuse => .error .misshapen
    | .skip => do
      let (_, ts) ← Reader.colon ts
      let (_, ts) ← skipValue ts
      return (s, ts)

/-- Reads the members of an object.  Every member takes at least one token, so `fuel` tokens are
enough for a list of that length. -/
def readMembers (fields : List (Field σ)) (unknown : UnknownKeys) :
    Nat → Bool → List String → σ → Reader σ
  | 0, _, _, _, _ => .error .truncated
  | _, _, _, _, [] => .error .truncated
  | _, _, _, s, .closeObject :: ts => .ok (s, ts)
  | fuel + 1, true, seen, s, .text (.ok key) :: ts => do
    let (s, ts) ← readMember fields unknown seen s key ts
    readMembers fields unknown fuel false (key :: seen) s ts
  | _, true, _, _, .text (.error f) :: _ => .error f
  | _, false, _, _, [.comma] => .error .truncated
  | fuel + 1, false, seen, s, .comma :: .text (.ok key) :: ts => do
    let (s, ts) ← readMember fields unknown seen s key ts
    readMembers fields unknown fuel false (key :: seen) s ts
  | _, false, _, _, .comma :: .text (.error f) :: _ => .error f
  | _, false, _, _, .comma :: .broken f :: _ => .error f
  | _, _, _, _, .broken f :: _ => .error f
  | _, _, _, _, _ => .error .malformed

/-- The tokens of the next item of an array, or nothing at its end. -/
def nextItem (first : Bool) : List Token → Except Fault (Option (List Token))
  | [] => .error .truncated
  | .closeArray :: _ => .ok none
  | t :: ts =>
    if first then .ok (some (t :: ts))
    else
      match t, ts with
      | .comma, [] => .error .truncated
      | .comma, .closeArray :: _ => .error .malformed
      | .comma, ts => .ok (some ts)
      | .broken f, _ => .error f
      | _, _ => .error .malformed

/-- Reads the items of an array into the parts of a record. -/
def readItems (first : Bool) (s : σ) : List (Field σ) → Reader σ
  | [], .closeArray :: ts => .ok (s, ts)
  | [], [] => .error .truncated
  | [], .broken f :: _ => .error f
  | [], _ => .error .malformed
  | field :: rest, ts => do
    match ← nextItem first ts with
    | none => if field.mayEnd then readItems first s rest ts else .error .misshapen
    | some ts =>
      let (put, ts) ← field.read ts
      readItems false (put s) rest ts

/-- Reads the record that a text consists of. -/
def readRecord (fields : List (Field σ)) (unknown : UnknownKeys) (start : σ)
    (finish : σ → Except Fault α) (text : String) : Except Fault α := do
  match tokens text with
  | [] => .error .truncated
  | .openObject :: ts =>
    let (s, rest) ← readMembers fields unknown (ts.length + 1) true [] start ts
    let a ← finish s
    atEnd rest
    return a
  | .openArray :: ts =>
    let (s, rest) ← readItems true start fields ts
    let a ← finish s
    atEnd rest
    return a
  | t :: _ => .error (wrongSort t)

end Boardwright.Json
