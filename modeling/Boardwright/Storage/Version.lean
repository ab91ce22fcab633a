import Boardwright.Digest.Sha256
import Boardwright.Failure
import Boardwright.Text.Blank
import Boardwright.Text.Numeral

/-!
# Versions of a storage layout

A program recognises its own storage by a version number.  A project fixes the number, leaves it to
chance, or lets it follow from the declarations of the items.
-/

namespace Boardwright.Storage

/-- How a version is found. -/
inductive VersionMode where
  /-- A new number for every build. -/
  | random
  /-- A number that depends on the declarations only. -/
  | hash
  /-- A number from the project. -/
  | fixed (version : Nat)
  deriving DecidableEq, Repr

/-- Reads the directive of a project.  A number counts without its sign and has at most 32 bits. -/
def VersionMode.read (directive : String) : Except Failure VersionMode :=
  let text := Text.trim directive
  if text = "random" then .ok .random
  else if text = "" ∨ text = "hash" then .ok .hash
  else
    match (Text.int64? text).map Int.natAbs with
    | some n =>
      if n < Text.word32Bound then .ok (.fixed n)
      else .error (.compilation s!"Invalid layout version of eeprom memory: '{text}'.")
    | none => .error (.compilation s!"Invalid layout version of eeprom memory: '{text}'.")

/-- A number of 31 bits that depends on the declarations, written one after the other. -/
def declarationHash (declarations : List String) : Nat :=
  let message := (String.join declarations).toUTF8.toList
  ((Digest.Sha256.digest message).headD 0).toNat % Nat.pow 2 31

/-- The version for the given declarations; `chance` decides where it is left to chance. -/
def VersionMode.version (mode : VersionMode) (chance : Nat) (declarations : List String) : Nat :=
  match mode with
  | .random => chance % Nat.pow 2 24
  | .hash => declarationHash declarations
  | .fixed v => v

end Boardwright.Storage
