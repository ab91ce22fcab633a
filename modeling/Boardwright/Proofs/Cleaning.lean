import Boardwright.CommandLine
import Boardwright.Proofs.Changes
import Boardwright.Proofs.Removal

/-!
# What a clean build removes

A build that cleans removes the library of an earlier build before the settings are checked.  A name
that the check accepts leads one level down from the output directory, and then the removal stays
below it.  Any other name is joined to the output directory all the same: an empty one leads to the
output directory itself, two dots lead above it, and an absolute path leads anywhere.

* **`cleaned_tree`**, **`changes_runBuild`**: a run is a removal, followed by a build that removes
  nothing.
* **`CleansSafely`**: only a run with accepted settings removes anything, and only below the output
  directory.
* **`cleansSafely_iff`**: this holds unless a rejected name leads to a directory that can be removed.
-/

namespace Boardwright

namespace CommandLine

variable {chance : Nat} {args : List String} {tree : FileTree} {o : Options} {modules : Path}
  {settings : Settings}

/-! ### A removal and a build -/

theorem cleaned_tree (o : Options) (settings : Settings) (tree : FileTree) :
    (cleaned o settings tree).1 =
      if o.clean then (tree.remove settings.libraryDirectory).1 else tree := by
  rw [cleaned]
  cases o.clean with
  | false => rfl
  | true =>
    cases hentry : tree.hasEntry settings.libraryDirectory with
    | false =>
      -- where nothing is, there is no directory either, and removing it would do nothing
      have hdirectory : tree.isDirectory settings.libraryDirectory = false := by
        rw [FileTree.hasEntry, Bool.or_eq_false_iff] at hentry
        exact hentry.1
      rw [FileTree.remove_of_not_isDirectory hdirectory]
      rfl
    | true =>
      simp only [Bool.and_self, if_true]
      cases tree.remove settings.libraryDirectory with
      | mk removed outcome => cases outcome <;> rfl

theorem changes_runBuild (chance : Nat) (h : configured o tree = .ok (modules, settings)) :
    Changes (cleaned o settings tree).1 (runBuild chance o tree).tree := by
  unfold runBuild
  simp only [h]
  cases cleaned o settings tree with
  | mk emptied outcome =>
    cases outcome with
    | error chain => exact .refl
    | ok _ =>
      have hbuild := build_changes ⟨modules, .standard, chance⟩ settings emptied
      dsimp only
      split
      next hdone =>
        rw [hdone] at hbuild
        exact hbuild
      next hdone =>
        rw [hdone] at hbuild
        exact hbuild

theorem build_of_check_error {f : Failure} (w : Workshop) (hcheck : settings.check = .error f) :
    build w settings tree = (tree, .error f) := by
  rw [build, openProject, hcheck]
  rfl

theorem runBuild_of_check_error {f : Failure} (chance : Nat)
    (h : configured o tree = .ok (modules, settings)) (hcheck : settings.check = .error f) :
    (runBuild chance o tree).tree = (cleaned o settings tree).1 := by
  unfold runBuild
  simp only [h]
  cases cleaned o settings tree with
  | mk emptied outcome =>
    cases outcome with
    | error chain => rfl
    | ok _ => simp only [build_of_check_error _ hcheck]

/-! ### What is gone after a run -/

/-- The settings that the arguments amount to. -/
def Resolves (args : List String) (tree : FileTree) (settings : Settings) : Prop :=
  ∃ o modules, parse args = .build o ∧ configured o tree = .ok (modules, settings)

/-- There was an entry before the run, and there is none afterwards. -/
def Removes (chance : Nat) (args : List String) (tree : FileTree) (l : Location) : Prop :=
  tree.get? l ≠ none ∧ (run chance args tree).tree.get? l = none

/-- Only a run with accepted settings removes anything, a rejected run leaves every entry as it was,
and what is removed lies at or below one entry of the output directory. -/
structure CleansSafely (chance : Nat) (args : List String) (tree : FileTree) : Prop where
  checked : ∀ l, Removes chance args tree l →
    ∃ settings, Resolves args tree settings ∧ settings.check = .ok ()
  rejected : ∀ settings f, Resolves args tree settings → settings.check = .error f →
    ∀ l, (run chance args tree).tree.get? l = tree.get? l
  child : ∀ settings, Resolves args tree settings →
    ∃ name, isPlainName name = true ∧
      ∀ l, Removes chance args tree l → (name :: settings.outputRoot.destination) <:+ l

theorem Resolves.unique {s s' : Settings} (h : Resolves args tree s) (h' : Resolves args tree s') :
    s = s' := by
  obtain ⟨o, modules, hparse, hconfigured⟩ := h
  obtain ⟨o', modules', hparse', hconfigured'⟩ := h'
  rw [hparse] at hparse'
  cases hparse'
  rw [hconfigured] at hconfigured'
  cases hconfigured'
  rfl

theorem run_of_parse (chance : Nat) (tree : FileTree) (h : parse args = .build o) :
    run chance args tree = runBuild chance o tree := by
  rw [run, h]

/-- Everything that is gone after a run was removed with the library of an earlier build. -/
theorem removed_with_library {l : Location} (h : Removes chance args tree l) :
    ∃ o modules settings, parse args = .build o ∧ o.clean = true ∧
      configured o tree = .ok (modules, settings) ∧
        (tree.remove settings.libraryDirectory).1.get? l = none := by
  obtain ⟨hbefore, hafter⟩ := h
  cases hparse : parse args with
  | build o =>
    rw [run_of_parse chance tree hparse] at hafter
    cases hconfigured : configured o tree with
    | error fault =>
      rw [runBuild, hconfigured] at hafter
      exact absurd hafter hbefore
    | ok resolved =>
      obtain ⟨modules, settings⟩ := resolved
      -- the build keeps every entry that the removal leaves
      have hcleaned : (cleaned o settings tree).1.get? l = none := by
        cases hkept : (cleaned o settings tree).1.get? l with
        | none => rfl
        | some node =>
          have hkeeps := (changes_runBuild chance hconfigured).keeps
          exact absurd hafter (hkeeps.ne_none (by rw [hkept]; nofun))
      rw [cleaned_tree] at hcleaned
      cases hclean : o.clean with
      | false =>
        rw [hclean] at hcleaned
        exact absurd hcleaned hbefore
      | true =>
        rw [hclean] at hcleaned
        exact ⟨o, modules, settings, rfl, hclean, hconfigured, hcleaned⟩
  | _ =>
    rw [run, hparse] at hafter
    exact absurd hafter hbefore

theorem removed_below_library {l : Location} (hcheck : settings.check = .ok ())
    (hbefore : tree.get? l ≠ none)
    (hafter : (tree.remove settings.libraryDirectory).1.get? l = none) :
    (settings.libraryName :: settings.outputRoot.destination) <:+ l := by
  rw [← Settings.destination_libraryDirectory hcheck]
  by_cases hin : l.IsIn settings.libraryDirectory.destination
  · exact Location.suffix_of_isIn hin
  · by_cases heq : l = settings.libraryDirectory.destination
    · subst heq
      exact List.suffix_refl _
    · rw [FileTree.get?_remove_of_not_isIn hin heq] at hafter
      exact absurd hafter hbefore

theorem rejected_unchanged_iff {f : Failure} (chance : Nat) (hparse : parse args = .build o)
    (h : configured o tree = .ok (modules, settings)) (hcheck : settings.check = .error f) :
    (∀ l, (run chance args tree).tree.get? l = tree.get? l) ↔
      (o.clean = true → ¬tree.Removable settings.libraryDirectory) := by
  rw [run_of_parse chance tree hparse, runBuild_of_check_error chance h hcheck, cleaned_tree]
  cases o.clean with
  | false => simp
  | true => simpa using FileTree.remove_unchanged_iff

/-- Cleaning is safe exactly if no rejected name leads to a directory that can be removed. -/
theorem cleansSafely_iff (chance : Nat) (args : List String) (tree : FileTree) :
    CleansSafely chance args tree ↔
      ∀ o modules settings, parse args = .build o → o.clean = true →
        configured o tree = .ok (modules, settings) →
          settings.check = .ok () ∨ ¬tree.Removable settings.libraryDirectory := by
  constructor
  · intro h o modules settings hparse hclean hconfigured
    cases hcheck : settings.check with
    | ok _ => exact .inl rfl
    | error f =>
      have hsame := h.rejected settings f ⟨o, modules, hparse, hconfigured⟩ hcheck
      exact .inr ((rejected_unchanged_iff chance hparse hconfigured hcheck).1 hsame hclean)
  · intro h
    -- whatever is removed, the settings were accepted: otherwise nothing could be removed
    have haccepted : ∀ l, Removes chance args tree l → ∃ settings,
        Resolves args tree settings ∧ settings.check = .ok () ∧
          (settings.libraryName :: settings.outputRoot.destination) <:+ l := by
      intro l hl
      obtain ⟨o, modules, settings, hparse, hclean, hconfigured, hgone⟩ := removed_with_library hl
      rcases h o modules settings hparse hclean hconfigured with hcheck | hnot
      · exact ⟨settings, ⟨o, modules, hparse, hconfigured⟩, hcheck,
          removed_below_library hcheck hl.1 hgone⟩
      · rw [FileTree.remove_unchanged_iff.2 hnot] at hgone
        exact absurd hgone hl.1
    refine ⟨?_, ?_, ?_⟩
    · intro l hl
      obtain ⟨settings, hresolves, hcheck, -⟩ := haccepted l hl
      exact ⟨settings, hresolves, hcheck⟩
    · rintro settings f ⟨o, modules, hparse, hconfigured⟩ hcheck
      rw [rejected_unchanged_iff chance hparse hconfigured hcheck]
      intro hclean
      rcases h o modules settings hparse hclean hconfigured with hok | hnot
      · rw [hcheck] at hok
        cases hok
      · exact hnot
    · intro settings hresolves
      cases hcheck : settings.check with
      | error f =>
        -- nothing is removed, so that any name will do
        refine ⟨"a", by decide, ?_⟩
        intro l hl
        obtain ⟨settings', hresolves', hcheck', -⟩ := haccepted l hl
        rw [← hresolves.unique hresolves', hcheck] at hcheck'
        cases hcheck'
      | ok _ =>
        refine ⟨settings.libraryName, Settings.isPlainName_libraryName hcheck, ?_⟩
        intro l hl
        obtain ⟨settings', hresolves', -, hbelow⟩ := haccepted l hl
        rw [hresolves.unique hresolves']
        exact hbelow

/-- A library without a name leads to the output directory, which is removed with what is in it although
the settings are rejected. -/
theorem not_cleansSafely_of_empty_name :
    ¬CleansSafely 0 ["-p", "p.json", "-m", "modules", "-o", "out", "-n", "", "--clean"]
      (FileTree.empty
        |>.set ["p.json"] (.file "\x7b\"project\": \x7b\"platform\": \"ArduinoUno\"\x7d\x7d".toUTF8)
        |>.set ["modules"] .directory
        |>.set ["out"] .directory
        |>.set ["keep.txt", "out"] (.file "x".toUTF8)) := by
  intro h
  have hkept := h.rejected ⟨⟨"p.json"⟩, ⟨"out"⟩, "", false, false, .array⟩ _
    ⟨_, ⟨"modules"⟩, rfl, rfl⟩ rfl ["keep.txt", "out"]
  revert hkept
  decide +kernel

end CommandLine

end Boardwright
