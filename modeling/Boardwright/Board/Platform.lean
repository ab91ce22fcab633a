import Boardwright.Board.ValueType
import Boardwright.Dict

/-!
# Boards

A board is described by how many pins, interrupts and serial ports it has and by the highest level of
its watchdog.  Boards are found by name in a registry.

* **`Board`**: the counts of a board.
* **`Board.Registry`**: boards by name, with the usual boards to start with.
* **`Board.Registry.find?`**: look-up; a blank name means the default board.
-/

namespace Boardwright

/-- What a board offers.  The counts are 32 bit numbers. -/
structure Board where
  /-- The name a project selects the board by. -/
  name : String
  /-- How many digital pins there are. -/
  digitalPins : UInt32
  /-- How many analog pins there are. -/
  analogPins : UInt32
  /-- How many external interrupts there are. -/
  interrupts : UInt32
  /-- How many serial ports there are. -/
  hardwareSerials : UInt32
  /-- The highest level of the watchdog. -/
  maxWatchdogLevel : UInt32
  deriving DecidableEq, Repr

namespace Board

/-- The level the watchdog is set to when `requested` is asked for. -/
def watchdogLevel (b : Board) (requested : UInt32) : UInt32 :=
  if requested ≤ b.maxWatchdogLevel then requested else b.maxWatchdogLevel

/-- The board that a blank name selects. -/
def defaultName : String := "Arduino"

/-- Boards by name. -/
structure Registry where
  /-- The boards. -/
  boards : Dict Board

namespace Registry

/-- Adds a board, or replaces the board with its name. -/
def register (r : Registry) (b : Board) : Registry where
  boards := r.boards.insert b.name b

/-- The board with a name; blanks around it do not count, and a blank name means the default board. -/
def find? (r : Registry) (name : String) : Option Board :=
  let key := Text.trim name
  r.boards.get? (if key.isEmpty then defaultName else key)

/-- The names of all boards, in order. -/
def names (r : Registry) : List String :=
  r.boards.keys

/-- The boards that are always known. -/
def standardBoards : List Board :=
  [⟨"Arduino", 0, 0, 0, 1, 9⟩,
   ⟨"ArduinoUno", 14, 6, 2, 1, 9⟩,
   ⟨"ArduinoNano", 14, 6, 2, 1, 9⟩,
   ⟨"ArduinoMega", 54, 16, 6, 4, 9⟩]

/-- The registry of the standard boards. -/
def standard : Registry :=
  standardBoards.foldl register ⟨.empty⟩

end Registry

end Board

/-- The class of a stored item of the declared type at `offset`, or nothing when the type cannot be
stored. -/
def storageClass? (type : String) (offset : Nat) (cached : Bool) (length : Option UInt32) :
    Option String :=
  match ValueType.ofName? type with
  | none => none
  | some t =>
    if t.size = 0 then none
    else
      let carrier := t.carrier type
      let place := carrier ++ ", " ++ toString offset
      some <|
        match length, cached with
        | none, false => "acp::EEPROMVar<" ++ place ++ ">"
        | none, true => "acp::EEPROMCachedVar<" ++ place ++ ">"
        | some n, false => "acp::EEPROMArray<" ++ place ++ ", " ++ toString n.toNat ++ ">"
        | some n, true => "acp::EEPROMCachedArray<" ++ place ++ ", " ++ toString n.toNat ++ ">"

end Boardwright
