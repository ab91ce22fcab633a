import Boardwright.Proofs.FallibleSteps
import Boardwright.Schedule
import Mathlib.Data.List.Chain
import Mathlib.Data.List.Nodup
import Mathlib.Data.List.Perm.Subperm
import Mathlib.Logic.Relation

/-!
# Schedules exist exactly for graphs without rings

The walk of a schedule keeps a list of the jobs that are scheduled already and the path on which it
is just now.  Three facts carry everything that is said about it here.

* **`Arranged`**: the scheduled jobs are distinct, and each stands behind the jobs it depends on.
* **`Room`**: the path meets no job twice, so it is never longer than the list of jobs, and the
  depth that is left is never used up before the path has met every job.
* **`Extends`**: visiting jobs keeps what was scheduled before, in its place, adds the visited jobs,
  and adds no job of the path.

A walk that fails has met a job of its path again, and the part of the path from that job on is a
ring of dependencies (`IsRing`).  So a schedule exists exactly when there is no ring
(`schedule_isOk_iff_acyclic`), and otherwise the names that are reported are those along one
(`schedule_reports_ring`).

Of the orders that would do, the walk finds the one that keeps the numbers where it can: jobs that are
`InOrder` are scheduled as they stand (`schedule_keeps_order`).
-/

namespace Boardwright.JobGraph

variable {g : JobGraph} {path done done' order : List Nat} {i j depth : ℕ}

/-! ### The dependencies as a relation -/

/-- Every dependency that is listed is a job of the graph. -/
def WellNumbered (g : JobGraph) : Prop :=
  ∀ row ∈ g.after, ∀ j ∈ row, j < g.names.length

instance (g : JobGraph) : Decidable g.WellNumbered :=
  inferInstanceAs (Decidable (∀ row ∈ g.after, ∀ j ∈ row, j < g.names.length))

/-- Job `i` of the graph must run after `j`. -/
def DependsOn (g : JobGraph) (i j : ℕ) : Prop :=
  i < g.names.length ∧ j ∈ g.dependencies i

/-- No job has to run after itself, neither directly nor through other jobs. -/
def Acyclic (g : JobGraph) : Prop :=
  ∀ i, ¬ Relation.TransGen g.DependsOn i i

theorem lt_of_mem_dependencies (hg : g.WellNumbered) (h : j ∈ g.dependencies i) :
    j < g.names.length := by
  rw [dependencies, List.getD_eq_getElem?_getD] at h
  cases hrow : g.after[i]? with
  | none => simp [hrow] at h
  | some row =>
    rw [hrow, Option.getD_some] at h
    exact hg row (List.mem_of_getElem? hrow) j h

/-! ### Arranged jobs -/

/-- Distinct jobs of the graph, each behind all jobs it depends on. -/
inductive Arranged (g : JobGraph) : List ℕ → Prop
  | nil : Arranged g []
  | snoc {done : List ℕ} {i : ℕ} : Arranged g done → i < g.names.length → i ∉ done →
      (∀ j ∈ g.dependencies i, j ∈ done) → Arranged g (done ++ [i])

theorem Arranged.nodup (h : g.Arranged order) : order.Nodup := by
  induction h with
  | nil => exact List.nodup_nil
  | snoc _ _ hi _ ih => exact List.nodup_append_comm.1 (List.nodup_cons.2 ⟨hi, ih⟩)

theorem Arranged.lt (h : g.Arranged order) : ∀ i ∈ order, i < g.names.length := by
  induction h with
  | nil => simp
  | snoc _ hlt _ _ ih =>
    intro i hi
    rcases List.mem_append.1 hi with hi | hi
    · exact ih i hi
    · rw [List.mem_singleton.1 hi]
      exact hlt

theorem Arranged.idxOf_lt (h : g.Arranged order) (hi : i ∈ order) (hj : j ∈ g.dependencies i) :
    order.idxOf j < order.idxOf i := by
  induction h with
  | nil => simp at hi
  | @snoc done k _ _ hk hdeps ih =>
    by_cases hmem : i ∈ done
    · have hlt := ih hmem
      have hjmem : j ∈ done :=
        List.idxOf_lt_length_iff.1 (hlt.trans (List.idxOf_lt_length_of_mem hmem))
      rw [List.idxOf_append_of_mem hmem, List.idxOf_append_of_mem hjmem]
      exact hlt
    · -- the last job: everything it depends on was arranged before it
      have hik : i = k := by simpa [hmem] using hi
      subst hik
      have hjmem := hdeps j hj
      rw [List.idxOf_append_of_mem hjmem, List.idxOf_append_of_notMem hmem]
      exact (List.idxOf_lt_length_of_mem hjmem).trans_le (Nat.le_add_right _ _)

/-- The arranged jobs that are all jobs of the graph are a permutation of their numbers. -/
theorem Arranged.perm_range (h : g.Arranged order) (hall : ∀ i < g.names.length, i ∈ order) :
    order.Perm (List.range g.names.length) := by
  rw [List.perm_ext_iff_of_nodup h.nodup List.nodup_range]
  intro i
  rw [List.mem_range]
  exact ⟨h.lt i, hall i⟩

/-- A graph whose jobs can be arranged has no ring: along dependencies, positions decrease. -/
theorem Arranged.acyclic (h : g.Arranged order) (hall : ∀ i < g.names.length, i ∈ order) :
    g.Acyclic := by
  have hdecr : ∀ {i j}, Relation.TransGen g.DependsOn i j → order.idxOf j < order.idxOf i := by
    intro i j hij
    induction hij with
    | single hd => exact h.idxOf_lt (hall _ hd.1) hd.2
    | tail _ hd ih => exact (h.idxOf_lt (hall _ hd.1) hd.2).trans ih
  intro i hi
  exact absurd (hdecr hi) (lt_irrefl _)

/-! ### The ways a visit can go -/

theorem visit_of_mem_done (h : i ∈ done) : g.visit depth path done i = .ok done := by
  unfold visit
  rw [if_pos h]

theorem visit_of_mem_path (hd : i ∉ done) (hp : i ∈ path) :
    g.visit depth path done i = .error (g.ring path i) := by
  unfold visit
  rw [if_neg hd, if_pos hp]

theorem visit_succ (hd : i ∉ done) (hp : i ∉ path) :
    g.visit (depth + 1) path done i =
      (g.dependencies i).foldlM (g.visit depth (path ++ [i])) done >>= fun done =>
        .ok (done ++ [i]) := by
  rw [visit, if_neg hd, if_neg hp]
  rfl

/-- A visit finds its job scheduled, or on the path, or has no depth left for it, or visits the
dependencies of the job and schedules it behind them. -/
theorem visit_cases (g : JobGraph) (depth : ℕ) (path done : List ℕ) (i : ℕ) :
    (i ∈ done ∧ g.visit depth path done i = .ok done) ∨
    (i ∈ path ∧ g.visit depth path done i = .error (g.ring path i)) ∨
    (i ∉ path ∧ depth = 0 ∧ g.visit depth path done i = .ok done) ∨
    (i ∉ done ∧ i ∉ path ∧ ∃ left, depth = left + 1 ∧
      g.visit depth path done i =
        (g.dependencies i).foldlM (g.visit left (path ++ [i])) done >>= fun done =>
          .ok (done ++ [i])) := by
  by_cases hd : i ∈ done
  · exact Or.inl ⟨hd, visit_of_mem_done hd⟩
  by_cases hp : i ∈ path
  · exact Or.inr (Or.inl ⟨hp, visit_of_mem_path hd hp⟩)
  cases depth with
  | zero =>
    refine Or.inr (Or.inr (Or.inl ⟨hp, rfl, ?_⟩))
    rw [visit, if_neg hd, if_neg hp]
  | succ left => exact Or.inr (Or.inr (Or.inr ⟨hd, hp, left, rfl, visit_succ hd hp⟩))

/-! ### The path never runs out of depth -/

/-- A path along distinct jobs, with depth left for all jobs that are not on it. -/
structure Room (g : JobGraph) (depth : ℕ) (path : List ℕ) : Prop where
  nodup : path.Nodup
  lt : ∀ k ∈ path, k < g.names.length
  enough : g.names.length ≤ path.length + depth

theorem room_nil (g : JobGraph) : g.Room g.names.length [] where
  nodup := List.nodup_nil
  lt := by simp
  enough := by simp

theorem Room.step (h : g.Room (depth + 1) path) (hi : i < g.names.length) (hp : i ∉ path) :
    g.Room depth (path ++ [i]) where
  nodup := List.nodup_append_comm.1 (List.nodup_cons.2 ⟨hp, h.nodup⟩)
  lt := by
    intro k hk
    rcases List.mem_append.1 hk with hk | hk
    · exact h.lt k hk
    · rw [List.mem_singleton.1 hk]
      exact hi
  enough := by
    have := h.enough
    rw [List.length_append, List.length_singleton]
    omega

/-- When no depth is left, every job is on the path. -/
theorem Room.mem_of_zero (h : g.Room 0 path) (hi : i < g.names.length) : i ∈ path := by
  have hsub : path ⊆ List.range g.names.length := fun k hk => List.mem_range.2 (h.lt k hk)
  have hperm : path.Perm (List.range g.names.length) := by
    refine (h.nodup.subperm hsub).perm_of_length_le ?_
    have := h.enough
    rw [List.length_range]
    omega
  exact hperm.mem_iff.2 (List.mem_range.2 hi)

/-! ### What a visit achieves -/

/-- What visiting the jobs `js` along `path` makes of the jobs `done`. -/
structure Extends (g : JobGraph) (path js done done' : List ℕ) : Prop where
  arranged : g.Arranged done'
  /-- What was scheduled before stays in its place. -/
  keeps : done <+: done'
  /-- The visited jobs are scheduled. -/
  visited : ∀ j ∈ js, j ∈ done'
  /-- The jobs of the path have to wait. -/
  waits : ∀ k ∈ path, k ∈ done' → k ∈ done

theorem Extends.of_mem_done (hdone : g.Arranged done) (hd : i ∈ done) :
    g.Extends path [i] done done where
  arranged := hdone
  keeps := List.prefix_refl done
  visited := by simpa using hd
  waits := fun _ _ hk => hk

/-- Jobs visited one after the other achieve what each of them achieves. -/
theorem foldlM_extends {f : List ℕ → ℕ → Except Cycle (List ℕ)} {js : List ℕ}
    (hf : ∀ j ∈ js, ∀ done done', g.Arranged done → f done j = .ok done' →
      g.Extends path [j] done done') :
    ∀ {done done'}, g.Arranged done → js.foldlM f done = .ok done' →
      g.Extends path js done done' := by
  induction js with
  | nil =>
    intro done done' hdone h
    cases h
    exact ⟨hdone, List.prefix_refl done, by simp, fun _ _ hk => hk⟩
  | cons j js ih =>
    intro done done' hdone h
    obtain ⟨next, hj, hjs⟩ := Fallible.foldlM_cons_eq_ok.1 h
    have first := hf j (by simp) done next hdone hj
    have rest := ih (fun k hk => hf k (by simp [hk])) first.arranged hjs
    refine ⟨rest.arranged, first.keeps.trans rest.keeps, ?_, ?_⟩
    · intro k hk
      rcases List.mem_cons.1 hk with rfl | hk
      · exact rest.keeps.subset (first.visited k (by simp))
      · exact rest.visited k hk
    · intro k hk hk'
      exact first.waits k hk (rest.waits k hk hk')

/-- A visit that succeeds schedules its job, and does so behind everything the job depends on. -/
theorem visit_extends (hg : g.WellNumbered) (hroom : g.Room depth path) (hi : i < g.names.length)
    (hdone : g.Arranged done) (h : g.visit depth path done i = .ok done') :
    g.Extends path [i] done done' := by
  induction depth using Nat.strong_induction_on generalizing path done done' i with
  | _ depth ih =>
    obtain ⟨hd, hv⟩ | ⟨-, hv⟩ | ⟨hp, hdepth, -⟩ | ⟨hd, hp, left, hdepth, hv⟩ :=
      g.visit_cases depth path done i
    · rw [hv] at h
      cases h
      exact Extends.of_mem_done hdone hd
    · rw [hv] at h
      cases h
    · exact absurd (Room.mem_of_zero (hdepth ▸ hroom) hi) hp
    · subst hdepth
      rw [hv] at h
      obtain ⟨mid, hmid, hend⟩ := Fallible.bind_eq_ok_iff.1 h
      cases hend
      have deps : g.Extends (path ++ [i]) (g.dependencies i) done mid := by
        refine foldlM_extends (fun j hj before after hbefore hvisit => ?_) hdone hmid
        exact ih left (Nat.lt_succ_self left) (hroom.step hi hp) (lt_of_mem_dependencies hg hj)
          hbefore hvisit
      -- the job itself is on the path of its dependencies, so none of them has scheduled it
      have hnot : i ∉ mid := fun hm => hd (deps.waits i (by simp) hm)
      refine ⟨deps.arranged.snoc hi hnot deps.visited, ?_, by simp, ?_⟩
      · exact deps.keeps.trans (List.prefix_append mid [i])
      · intro k hk hk'
        rcases List.mem_append.1 hk' with hk' | hk'
        · exact deps.waits k (by simp [hk]) hk'
        · exact absurd (List.mem_singleton.1 hk' ▸ hk) hp

/-- A schedule arranges all jobs. -/
theorem schedule_arranged (hg : g.WellNumbered) (h : g.schedule = .ok order) :
    g.Arranged order ∧ ∀ i < g.names.length, i ∈ order := by
  have hrun : g.Extends [] (List.range g.names.length) [] order := by
    refine foldlM_extends (fun j hj before after hbefore hvisit => ?_) Arranged.nil h
    exact visit_extends hg (room_nil g) (List.mem_range.1 hj) hbefore hvisit
  exact ⟨hrun.arranged, fun i hi => hrun.visited i (List.mem_range.2 hi)⟩

/-! ### A walk that fails has found a ring -/

/-- Distinct jobs, each of which depends on the next one, and the last one on the first. -/
structure IsRing (g : JobGraph) (first : ℕ) (rest : List ℕ) : Prop where
  nodup : (first :: rest).Nodup
  chain : List.IsChain g.DependsOn (first :: rest ++ [first])

/-- A chain leads from its first element to its last. -/
theorem transGen_of_isChain {r : ℕ → ℕ → Prop} {a b : ℕ} {l : List ℕ}
    (h : List.IsChain r (a :: l ++ [b])) : Relation.TransGen r a b := by
  induction l generalizing a with
  | nil => exact Relation.TransGen.single (by simpa using h)
  | cons c l ih =>
    rw [List.cons_append, List.cons_append, List.isChain_cons_cons] at h
    exact Relation.TransGen.head h.1 (ih h.2)

theorem IsRing.not_acyclic {first : ℕ} {rest : List ℕ} (h : g.IsRing first rest) :
    ¬ g.Acyclic := fun hacyclic => hacyclic first (transGen_of_isChain h.chain)

/-- The part of a path from one of its jobs on. -/
theorem exists_dropWhile_of_mem (h : i ∈ path) :
    ∃ before rest, path = before ++ i :: rest ∧ path.dropWhile (· ≠ i) = i :: rest := by
  induction path with
  | nil => simp at h
  | cons k path ih =>
    by_cases hk : k = i
    · subst hk
      exact ⟨[], path, rfl, by simp⟩
    · obtain ⟨before, rest, hpath, hdrop⟩ := ih (by simpa [Ne.symm hk] using h)
      refine ⟨k :: before, rest, by rw [hpath]; rfl, ?_⟩
      rw [List.dropWhile_cons_of_pos (by simpa using hk), hdrop]

/-- A path of dependencies that comes back to one of its jobs ends in a ring, and the names along
the ring are the ones reported. -/
theorem ring_isRing (hnodup : path.Nodup) (hchain : List.IsChain g.DependsOn (path ++ [i]))
    (hi : i ∈ path) :
    ∃ rest, g.IsRing i rest ∧ (g.ring path i).names = (i :: rest ++ [i]).map g.nameOf := by
  obtain ⟨before, rest, hpath, hdrop⟩ := exists_dropWhile_of_mem hi
  refine ⟨rest, ⟨?_, ?_⟩, by rw [ring, hdrop]⟩
  · rw [hpath] at hnodup
    exact (List.nodup_append.1 hnodup).2.1
  · rw [hpath, List.append_assoc] at hchain
    exact (List.isChain_append.1 hchain).2.1

/-- A visit fails only when it comes upon a ring. -/
theorem visit_error (hg : g.WellNumbered) {c : Cycle} (hnodup : path.Nodup)
    (hchain : List.IsChain g.DependsOn (path ++ [i])) (hi : i < g.names.length)
    (h : g.visit depth path done i = .error c) :
    ∃ first rest, g.IsRing first rest ∧ c.names = (first :: rest ++ [first]).map g.nameOf := by
  induction depth using Nat.strong_induction_on generalizing path done i with
  | _ depth ih =>
    obtain ⟨-, hv⟩ | ⟨hp, hv⟩ | ⟨-, -, hv⟩ | ⟨-, hp, left, hdepth, hv⟩ :=
      g.visit_cases depth path done i
    · rw [hv] at h
      cases h
    · rw [hv] at h
      cases h
      exact ⟨i, ring_isRing hnodup hchain hp⟩
    · rw [hv] at h
      cases h
    · rw [hv, Fallible.bind_eq_error_iff] at h
      rcases h with h | ⟨_, -, h⟩
      · obtain ⟨before, j, hj, hvisit⟩ := Fallible.exists_of_foldlM_eq_error h
        -- the path of dependencies grows by the job whose dependency fails
        refine ih left (by omega) ?_ ?_ (lt_of_mem_dependencies hg hj) hvisit
        · exact List.nodup_append_comm.1 (List.nodup_cons.2 ⟨hp, hnodup⟩)
        · rw [List.append_assoc, List.singleton_append, List.isChain_append_cons_cons]
          exact ⟨hchain, ⟨hi, hj⟩, List.isChain_singleton j⟩
      · cases h

theorem schedule_error (hg : g.WellNumbered) {c : Cycle} (h : g.schedule = .error c) :
    ∃ first rest, g.IsRing first rest ∧ c.names = (first :: rest ++ [first]).map g.nameOf := by
  obtain ⟨before, i, hi, hvisit⟩ := Fallible.exists_of_foldlM_eq_error h
  exact visit_error hg List.nodup_nil (List.isChain_singleton i) (List.mem_range.1 hi) hvisit

theorem IsRing.lt {first : ℕ} {rest : List ℕ} (h : g.IsRing first rest) :
    ∀ i ∈ first :: rest, i < g.names.length := by
  intro i hi
  obtain ⟨before, after, hsplit⟩ := List.append_of_mem hi
  have hchain := h.chain
  rw [hsplit, List.append_assoc, List.cons_append] at hchain
  have htail := (List.isChain_append.1 hchain).2.1
  -- every job of the ring depends on the one after it, the last one on the first
  cases after with
  | nil => exact (List.isChain_cons_cons.1 htail).1.1
  | cons k after => exact (List.isChain_cons_cons.1 htail).1.1

theorem getElem?_names (hi : i < g.names.length) : g.names[i]? = some (g.nameOf i) := by
  rw [nameOf, List.getD_eq_getElem?_getD, List.getElem?_eq_getElem hi]
  rfl

/-! ### Schedules -/

/-- **A schedule exists exactly when no job depends on itself**, and then it runs every job once,
each strictly after the jobs it depends on. -/
theorem schedule_isOk_iff_acyclic (g : JobGraph) (hg : g.WellNumbered) :
    ((∃ order, g.schedule = .ok order) ↔ g.Acyclic) ∧
      ∀ order, g.schedule = .ok order →
        order.Perm (List.range g.names.length) ∧
          ∀ i j, g.DependsOn i j → order.idxOf j < order.idxOf i := by
  refine ⟨⟨?_, ?_⟩, ?_⟩
  · rintro ⟨order, h⟩
    obtain ⟨harranged, hall⟩ := schedule_arranged hg h
    exact harranged.acyclic hall
  · intro hacyclic
    cases h : g.schedule with
    | ok order => exact ⟨order, rfl⟩
    | error c =>
      obtain ⟨first, rest, hring, -⟩ := schedule_error hg h
      exact absurd hacyclic hring.not_acyclic
  · intro order h
    obtain ⟨harranged, hall⟩ := schedule_arranged hg h
    refine ⟨harranged.perm_range hall, ?_⟩
    intro i j hij
    exact harranged.idxOf_lt (hall i hij.1) hij.2

/-- Four jobs, of which two share a dependency, one lists it twice and the last has no row. -/
def diamond : JobGraph where
  names := ["d", "c", "b", "a"]
  after := [[1, 2, 1], [3], [3]]

theorem schedule_diamond :
    diamond.schedule = .ok [3, 1, 2, 0] ∧ diamond.Acyclic ∧ diamond.DependsOn 0 2 ∧
      [3, 1, 2, 0].idxOf 2 < [3, 1, 2, 0].idxOf 0 := by
  have hrun : diamond.schedule = .ok [3, 1, 2, 0] := by decide +kernel
  have hdep : diamond.DependsOn 0 2 := ⟨by decide, by decide⟩
  have hspec := schedule_isOk_iff_acyclic diamond (by decide)
  exact ⟨hrun, hspec.1.1 ⟨_, hrun⟩, hdep, (hspec.2 _ hrun).2 0 2 hdep⟩

/-- **A ring that is reported is a ring.**  When there is no schedule, the reported names are those of
jobs in a row, each listed among the dependencies of the one before it; the last job is the first one
again, and no other job occurs twice. -/
theorem schedule_reports_ring (g : JobGraph) (hg : g.WellNumbered) (c : Cycle)
    (h : g.schedule = .error c) :
    ∃ jobs : List ℕ, 2 ≤ jobs.length ∧ jobs.getLast? = jobs.head? ∧ jobs.dropLast.Nodup ∧
      jobs.IsChain (fun i j => j ∈ g.dependencies i) ∧
      c.names.map some = jobs.map fun i => g.names[i]? := by
  obtain ⟨first, rest, hring, hnames⟩ := schedule_error hg h
  refine ⟨first :: rest ++ [first], by simp, List.getLast?_concat, ?_, ?_, ?_⟩
  · rw [List.dropLast_concat]
    exact hring.nodup
  · exact hring.chain.imp fun i j hij => hij.2
  · rw [hnames, List.map_map]
    apply List.map_congr_left
    intro i hi
    have hmem : i ∈ first :: rest := by
      rcases List.mem_append.1 hi with hi | hi
      · exact hi
      · rw [List.mem_singleton.1 hi]
        exact List.mem_cons_self
    exact (getElem?_names (hring.lt i hmem)).symm

/-- Five jobs.  The walk has scheduled the first and comes through the second before it meets the
ring. -/
def detour : JobGraph where
  names := ["done", "lead", "a", "b", "c"]
  after := [[], [0, 2], [0, 3], [4], [0, 2]]

theorem schedule_reports_detour :
    detour.schedule = .error ⟨["a", "b", "c", "a"]⟩ ∧
      ∃ jobs : List ℕ, 2 ≤ jobs.length ∧ jobs.getLast? = jobs.head? ∧ jobs.dropLast.Nodup ∧
        jobs.IsChain (fun i j => j ∈ detour.dependencies i) ∧
        ["a", "b", "c", "a"].map some = jobs.map fun i => detour.names[i]? := by
  have hrun : detour.schedule = .error ⟨["a", "b", "c", "a"]⟩ := by decide +kernel
  exact ⟨hrun, schedule_reports_ring detour (by decide) _ hrun⟩

/-! ### Jobs that are in order -/

/-- Every job of the graph depends on jobs with smaller numbers only. -/
def InOrder (g : JobGraph) : Prop :=
  ∀ i < g.names.length, ∀ j ∈ g.dependencies i, j < i

instance (g : JobGraph) : Decidable g.InOrder :=
  inferInstanceAs (Decidable (∀ i < g.names.length, ∀ j ∈ g.dependencies i, j < i))

/-- Visiting jobs that are scheduled already changes nothing. -/
theorem foldlM_visit_of_subset {js : List ℕ} (h : ∀ j ∈ js, j ∈ done) :
    js.foldlM (g.visit depth path) done = .ok done := by
  induction js with
  | nil => rfl
  | cons j js ih =>
    obtain ⟨hj, hjs⟩ := List.forall_mem_cons.1 h
    exact Fallible.foldlM_cons_eq_ok.2 ⟨done, visit_of_mem_done hj, ih hjs⟩

/-- A job that waits for nothing any more is scheduled next. -/
theorem visit_of_ready (hd : i ∉ done) (hp : i ∉ path) (hready : ∀ j ∈ g.dependencies i, j ∈ done) :
    g.visit (depth + 1) path done i = .ok (done ++ [i]) := by
  rw [visit_succ hd hp, foldlM_visit_of_subset hready]
  rfl

/-- The walk from the first jobs schedules these, each when its turn comes. -/
theorem foldlM_visit_range (h : g.InOrder) {m : ℕ} (hm : m ≤ g.names.length) :
    (List.range m).foldlM (g.visit g.names.length []) [] = .ok (List.range m) := by
  induction m with
  | zero => rfl
  | succ m ih =>
    have hlt : m < g.names.length := hm
    -- whatever the next job depends on is among the jobs before it
    have hready : ∀ j ∈ g.dependencies m, j ∈ List.range m :=
      fun j hj => List.mem_range.2 (h m hlt j hj)
    have hvisit : g.visit g.names.length [] (List.range m) m = .ok (List.range m ++ [m]) := by
      obtain ⟨left, hleft⟩ : ∃ left, g.names.length = left + 1 := ⟨g.names.length - 1, by omega⟩
      rw [hleft]
      exact visit_of_ready (by simp) (by simp) hready
    rw [List.range_succ, List.foldlM_append, ih hlt.le]
    exact Fallible.foldlM_cons_eq_ok.2 ⟨_, hvisit, rfl⟩

/-- A schedule that keeps the order of the numbers shows that the jobs were in order. -/
theorem inOrder_of_schedule (hg : g.WellNumbered)
    (h : g.schedule = .ok (List.range g.names.length)) : g.InOrder := by
  have hidx : ∀ k < g.names.length, (List.range g.names.length).idxOf k = k := by
    intro k hk
    have hget := List.nodup_range.idxOf_getElem k (show k < (List.range g.names.length).length by simpa)
    rwa [List.getElem_range] at hget
  intro i hi j hj
  have hlt := (schedule_arranged hg h).1.idxOf_lt (List.mem_range.2 hi) hj
  rwa [hidx i hi, hidx j (lt_of_mem_dependencies hg hj)] at hlt

/-- **Jobs that are in order are not reordered.**  If every job depends on jobs with smaller numbers
only, however often and in whatever order they are listed, the schedule runs the jobs by their numbers;
and no other graph whose dependencies are jobs has this schedule. -/
theorem schedule_keeps_order (g : JobGraph) :
    (g.InOrder → g.schedule = .ok (List.range g.names.length)) ∧
      (g.WellNumbered → g.schedule = .ok (List.range g.names.length) → g.InOrder) :=
  ⟨fun h => foldlM_visit_range h le_rfl, inOrder_of_schedule⟩

/-- Five jobs in order.  One lists its dependencies backwards, one lists a dependency twice, and the
last has no row. -/
def ascent : JobGraph where
  names := ["a", "b", "c", "d", "e"]
  after := [[], [0], [1, 0], [2, 0, 2]]

theorem schedule_keeps_ascent :
    ascent.InOrder ∧ ascent.WellNumbered ∧ ascent.schedule = .ok [0, 1, 2, 3, 4] ∧
      ¬diamond.InOrder ∧ diamond.schedule ≠ .ok (List.range 4) :=
  ⟨by decide, by decide, (schedule_keeps_order ascent).1 (by decide), by decide,
    fun h => absurd ((schedule_keeps_order diamond).2 (by decide) h) (by decide)⟩

end Boardwright.JobGraph
