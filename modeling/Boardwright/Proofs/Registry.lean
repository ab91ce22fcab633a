import Boardwright.Board.Platform
import Boardwright.Proofs.Blank
import Boardwright.Proofs.Dict

/-!
# Boards that are listed can be selected

A registry keeps its boards under their names as they are.  A look-up first takes the blanks away from
the name it is given, and takes a blank name for the default one.  So what is listed under a proper name
is found under it, and of several boards with one name the one that was registered last.

* **`asked`**: the name that a look-up asks for.
* **`MostRecent`**: the board that was registered last under a name.
* **`find?_registerAll_iff`**: what a look-up finds after any registrations.
* **`find?_register_of_trim_ne`**: what one registration leaves alone.
* **`listed_board_selected`**: both for the names that are listed.
-/

namespace Boardwright.Board.Registry

open Text (Proper)

variable {boards : List Board} {b : Board} {name : String}

/-- The name that a look-up asks for. -/
def asked (name : String) : String :=
  if (Text.trim name).isEmpty then defaultName else Text.trim name

theorem find?_eq (r : Registry) (name : String) : r.find? name = r.boards.get? (asked name) := rfl

theorem asked_of_proper (h : Proper name) : asked name = name := by
  rw [asked, h.trim_eq, if_neg (by simpa using h.nonempty)]

/-! ### Many registrations -/

/-- Registers boards one after the other. -/
def registerAll (r : Registry) (boards : List Board) : Registry := boards.foldl register r

/-- A board with the name it is kept under. -/
def labelled (b : Board) : String × Board := (b.name, b)

/-- The standard boards are registered as all others are. -/
theorem boards_registerAll (boards : List Board) :
    (standard.registerAll boards).boards = Dict.ofList ((standardBoards ++ boards).map labelled) := by
  have hfold : ∀ (l : List Board) (r : Registry),
      (l.foldl register r).boards = (l.map labelled).foldl (fun d e => d.insert e.1 e.2) r.boards := by
    intro l
    induction l with
    | nil =>
      intro r
      rfl
    | cons b l ih =>
      intro r
      exact ih (r.register b)
  rw [registerAll, standard, ← List.foldl_append, hfold]
  rfl

theorem mem_names_registerAll :
    name ∈ (standard.registerAll boards).names ↔ ∃ b ∈ standardBoards ++ boards, b.name = name := by
  rw [names, boards_registerAll, Dict.mem_keys_ofList, List.map_map, List.mem_map]
  rfl

/-- The board was registered under the name, and after it no other one was. -/
def MostRecent (boards : List Board) (name : String) (b : Board) : Prop :=
  b.name = name ∧ ∃ before after, boards = before ++ b :: after ∧ ∀ other ∈ after, other.name ≠ name

theorem lastIn_labelled_iff : Dict.LastIn (boards.map labelled) name b ↔ MostRecent boards name b := by
  constructor
  · intro h
    obtain ⟨before, after, hsplit, hafter⟩ := h
    obtain ⟨front, rest, rfl, -, hrest⟩ := List.map_eq_append_iff.1 hsplit
    obtain ⟨found, back, rfl, hfound, rfl⟩ := List.map_eq_cons_iff.1 hrest
    cases hfound
    exact ⟨rfl, front, back, rfl, fun other hother => hafter _ (List.mem_map_of_mem hother)⟩
  · intro h
    obtain ⟨rfl, before, after, rfl, hafter⟩ := h
    refine ⟨before.map labelled, after.map labelled, by rw [List.map_append]; rfl, ?_⟩
    intro e he
    obtain ⟨other, hother, rfl⟩ := List.mem_map.1 he
    exact hafter other hother

/-- What a look-up finds after any registrations. -/
theorem find?_registerAll_iff :
    (standard.registerAll boards).find? name = some b ↔
      MostRecent (standardBoards ++ boards) (asked name) b := by
  rw [find?_eq, boards_registerAll, Dict.get?_ofList_eq_some_iff, lastIn_labelled_iff]

/-- A name under which boards were registered has a last one. -/
theorem exists_mostRecent (h : ∃ b ∈ boards, b.name = name) : ∃ b, MostRecent boards name b := by
  obtain ⟨b, hb, hname⟩ := h
  have hkey : name ∈ (boards.map labelled).map (·.1) := by
    rw [List.map_map]
    exact List.mem_map.2 ⟨b, hb, hname⟩
  obtain ⟨last, hlast⟩ := Dict.exists_lastIn hkey
  exact ⟨last, lastIn_labelled_iff.1 hlast⟩

/-- A registration is seen by no look-up with another name, except that the default board is also found
under a blank name. -/
theorem find?_register_of_trim_ne (r : Registry) (h : Text.trim name ≠ Text.trim b.name)
    (hdefault : Text.trim name = "" → b.name ≠ defaultName) :
    (r.register b).find? name = r.find? name := by
  have hne : asked name ≠ b.name := by
    intro heq
    rw [asked] at heq
    split at heq
    next hblank => exact hdefault (by simpa using hblank) heq.symm
    next => exact h (by rw [← heq, Text.trim_trim])
  rw [find?_eq, register, Dict.get?_insert_of_ne _ _ hne, find?_eq]

/-- **Boards that are listed can be selected.**  After any registrations, every proper name that is
listed selects the board that was registered last under it; and one more registration changes the result
of no look-up with another name, except that a blank name selects what was registered as the default
board. -/
theorem listed_board_selected (boards : List Board) :
    (∀ name ∈ (standard.registerAll boards).names, Proper name →
      ∃ b, (standard.registerAll boards).find? name = some b ∧
        MostRecent (standardBoards ++ boards) name b) ∧
    ∀ b name, Text.trim name ≠ Text.trim b.name →
      (Text.trim name = "" → b.name ≠ defaultName) →
        (standard.registerAll (boards ++ [b])).find? name = (standard.registerAll boards).find? name := by
  constructor
  · intro name hname hproper
    obtain ⟨b, hb⟩ := exists_mostRecent (mem_names_registerAll.1 hname)
    refine ⟨b, ?_, hb⟩
    rw [find?_registerAll_iff, asked_of_proper hproper]
    exact hb
  · intro b name hname hdefault
    rw [registerAll, List.foldl_concat]
    exact find?_register_of_trim_ne _ hname hdefault

/-- A board that is registered under several names below. -/
def custom (name : String) (pins : UInt32) : Board := ⟨name, pins, 12, 5, 1, 9⟩

/-- Registrations of one name twice, with a blank name and another spelling of it in between. -/
def leonardos : List Board :=
  [custom "Leonardo" 20, custom " " 1, custom " Leonardo" 2, custom "Leonardo" 30]

theorem listed_board_selected_leonardo :
    "Leonardo" ∈ (standard.registerAll leonardos).names ∧ Proper "Leonardo" ∧
      (∃ b, (standard.registerAll leonardos).find? "Leonardo" = some b ∧
        MostRecent (standardBoards ++ leonardos) "Leonardo" b) ∧
      (standard.registerAll (leonardos ++ [custom " Arduino" 40])).find? " " =
        (standard.registerAll leonardos).find? " " := by
  have hmem : "Leonardo" ∈ (standard.registerAll leonardos).names := by decide
  have hproper : Proper "Leonardo" :=
    Text.proper_of_nonBlank? (show Text.nonBlank? "Leonardo" = some "Leonardo" by decide)
  have hlaw := listed_board_selected leonardos
  exact ⟨hmem, hproper, hlaw.1 _ hmem hproper, hlaw.2 _ _ (by decide) (by decide)⟩

/-- A name with a blank in front is listed and selects nothing, and a board that is registered as the
default one is found under a blank name too. -/
theorem spaced_board_unselected :
    " Leonardo" ∈ (standard.registerAll [custom " Leonardo" 20]).names ∧
      (standard.registerAll [custom " Leonardo" 20]).find? " Leonardo" = none ∧
      Text.trim "" ≠ Text.trim (custom "Arduino" 20).name ∧
      (standard.registerAll [custom "Arduino" 20]).find? "" ≠ (standard.registerAll []).find? "" := by
  decide

end Boardwright.Board.Registry
