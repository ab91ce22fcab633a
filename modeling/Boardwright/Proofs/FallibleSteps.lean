/-!
# Sequences of steps that may fail

The checks and the walks of this library are lists of steps, done one after the other up to the
first that fails.  The lemmas here say once and for all when such a list succeeds and where its
failure comes from.

* **`bind_eq_ok_iff`**, **`bind_eq_error_iff`**: two steps, one after the other.
* **`mapError_eq_ok_iff`**: a step whose error is wrapped.
* **`foldlM_cons_eq_ok`**, **`exists_of_foldlM_eq_error`**: steps that hand on a value.
* **`forM_eq_ok_iff`**: checks without a result.
* **`mapM_isOk_iff`**, **`exists_of_mapM_eq_error`**, **`flatMap_of_mapM_eq_ok`**,
  **`exists_getElem?_of_mapM_eq_ok`**: steps with one result each.
* **`Decided`**: a step together with the exact condition of its success and the errors it can have.
  The condition and the errors of a long computation are put together from those of its steps.
* **`Yields`**: a step together with what holds of its results and of its errors, put together in the
  same way.
-/

namespace Boardwright.Fallible

variable {α β ε : Type}

/-! ### Two steps -/

theorem bind_eq_ok_iff {x : Except ε α} {f : α → Except ε β} {b : β} :
    x >>= f = .ok b ↔ ∃ a, x = .ok a ∧ f a = .ok b := by
  cases x with
  | ok a => simp [bind, Except.bind]
  | error e => simp [bind, Except.bind]

theorem bind_eq_error_iff {x : Except ε α} {f : α → Except ε β} {e : ε} :
    x >>= f = .error e ↔ x = .error e ∨ ∃ a, x = .ok a ∧ f a = .error e := by
  cases x with
  | ok a => simp [bind, Except.bind]
  | error e' => simp [bind, Except.bind]

/-- A check and what comes after it. -/
theorem bind_unit_eq_ok_iff {x : Except ε Unit} {y : Except ε β} {b : β} :
    (x >>= fun _ => y) = .ok b ↔ x = .ok () ∧ y = .ok b := by
  cases x with
  | ok u => simp [bind, Except.bind]
  | error e => simp [bind, Except.bind]

theorem mapError_eq_ok_iff {ε' : Type} {x : Except ε α} {f : ε → ε'} {a : α} :
    x.mapError f = .ok a ↔ x = .ok a := by
  cases x with
  | ok a' =>
    show Except.ok a' = Except.ok a ↔ Except.ok a' = Except.ok a
    rw [Except.ok.injEq, Except.ok.injEq]
  | error e =>
    show Except.error (f e) = Except.ok a ↔ Except.error e = Except.ok a
    simp only [reduceCtorEq]

/-! ### Steps that hand on a value -/

theorem foldlM_cons_eq_ok {f : β → α → Except ε β} {a : α} {l : List α} {b c : β} :
    (a :: l).foldlM f b = .ok c ↔ ∃ b', f b a = .ok b' ∧ l.foldlM f b' = .ok c := by
  rw [List.foldlM_cons, bind_eq_ok_iff]

/-- A failure of a fold is the failure of one of its steps, from a value that the steps before it
led to. -/
theorem exists_of_foldlM_eq_error {f : β → α → Except ε β} {l : List α} {b : β} {e : ε}
    (h : l.foldlM f b = .error e) : ∃ b', ∃ a ∈ l, f b' a = .error e := by
  induction l generalizing b with
  | nil => simp [pure, Except.pure] at h
  | cons a l ih =>
    rw [List.foldlM_cons, bind_eq_error_iff] at h
    rcases h with h | ⟨b', -, h⟩
    · exact ⟨b, a, by simp, h⟩
    · obtain ⟨b'', a', ha', hf⟩ := ih h
      exact ⟨b'', a', by simp [ha'], hf⟩

/-! ### Steps that stand side by side -/

theorem forM_eq_ok_iff {f : α → Except ε Unit} {l : List α} :
    l.forM f = .ok () ↔ ∀ a ∈ l, f a = .ok () := by
  induction l with
  | nil => simp [pure, Except.pure]
  | cons a l ih =>
    show (f a >>= fun _ => l.forM f) = .ok () ↔ _
    rw [bind_eq_ok_iff, List.forall_mem_cons, ← ih]
    constructor
    · rintro ⟨⟨⟩, ha, hl⟩
      exact ⟨ha, hl⟩
    · rintro ⟨ha, hl⟩
      exact ⟨(), ha, hl⟩

theorem mapM_isOk_iff {f : α → Except ε β} {l : List α} :
    (∃ bs, l.mapM f = .ok bs) ↔ ∀ a ∈ l, ∃ b, f a = .ok b := by
  induction l with
  | nil => simp [pure, Except.pure]
  | cons a l ih =>
    rw [List.mapM_cons]
    simp only [bind_eq_ok_iff, List.forall_mem_cons, ← ih]
    constructor
    · rintro ⟨_, b, hb, bs, hbs, -⟩
      exact ⟨⟨b, hb⟩, bs, hbs⟩
    · rintro ⟨⟨b, hb⟩, bs, hbs⟩
      exact ⟨b :: bs, b, hb, bs, hbs, rfl⟩

theorem exists_of_mapM_eq_error {f : α → Except ε β} {l : List α} {e : ε}
    (h : l.mapM f = .error e) : ∃ a ∈ l, f a = .error e := by
  induction l with
  | nil => simp [pure, Except.pure] at h
  | cons a l ih =>
    rw [List.mapM_cons, bind_eq_error_iff] at h
    rcases h with h | ⟨b, -, h⟩
    · exact ⟨a, by simp, h⟩
    · rw [bind_eq_error_iff] at h
      rcases h with h | ⟨bs, -, h⟩
      · obtain ⟨a', ha', hf⟩ := ih h
        exact ⟨a', by simp [ha'], hf⟩
      · simp [pure, Except.pure] at h

/-- What all results have in them, one after the other, when it is known for each of them. -/
theorem flatMap_of_mapM_eq_ok {γ : Type} {f : α → Except ε β} {l : List α} {bs : List β}
    {part : β → List γ} {known : α → List γ} (hpart : ∀ a b, f a = .ok b → part b = known a)
    (h : l.mapM f = .ok bs) : bs.flatMap part = l.flatMap known := by
  induction l generalizing bs with
  | nil =>
    cases h
    rfl
  | cons a l ih =>
    simp only [List.mapM_cons, bind_eq_ok_iff] at h
    obtain ⟨b, hb, rest, hrest, hbs⟩ := h
    cases hbs
    rw [List.flatMap_cons, List.flatMap_cons, hpart a b hb, ih hrest]

theorem length_of_mapM_eq_ok {f : α → Except ε β} {l : List α} {bs : List β} (h : l.mapM f = .ok bs) :
    bs.length = l.length := by
  induction l generalizing bs with
  | nil =>
    cases h
    rfl
  | cons a l ih =>
    simp only [List.mapM_cons, bind_eq_ok_iff] at h
    obtain ⟨b, -, rest, hrest, hbs⟩ := h
    cases hbs
    rw [List.length_cons, List.length_cons, ih hrest]

/-- The results stand in the places of the steps. -/
theorem exists_getElem?_of_mapM_eq_ok {f : α → Except ε β} {l : List α} {bs : List β} {i : Nat} {a : α}
    (h : l.mapM f = .ok bs) (ha : l[i]? = some a) : ∃ b, f a = .ok b ∧ bs[i]? = some b := by
  induction l generalizing bs i with
  | nil => cases ha
  | cons first l ih =>
    simp only [List.mapM_cons, bind_eq_ok_iff] at h
    obtain ⟨b, hb, rest, hrest, hbs⟩ := h
    cases hbs
    cases i with
    | zero =>
      cases ha
      exact ⟨b, hb, rfl⟩
    | succ i =>
      obtain ⟨b', hb', hget⟩ := ih hrest ha
      exact ⟨b', hb', hget⟩

/-! ### Steps whose success is decided by a condition -/

/-- The step `x` succeeds exactly when `ready` holds, and its errors are among those of `blame`. -/
structure Decided (blame : ε → Prop) (x : Except ε α) (ready : Prop) : Prop where
  isOk_iff : (∃ a, x = .ok a) ↔ ready
  blamed : ∀ e, x = .error e → blame e

namespace Decided

variable {blame : ε → Prop} {x : Except ε α} {P Q : Prop}

theorem of_isOk (hx : ∃ a, x = .ok a) (hP : P) : Decided blame x P := by
  refine ⟨⟨fun _ => hP, fun _ => hx⟩, ?_⟩
  intro e he
  obtain ⟨a, ha⟩ := hx
  rw [ha] at he
  cases he

theorem of_error {e : ε} (hx : x = .error e) (he : blame e) (hP : ¬P) : Decided blame x P := by
  subst hx
  refine ⟨⟨?_, fun h => absurd h hP⟩, ?_⟩
  · rintro ⟨_, ⟨⟩⟩
  · rintro _ ⟨⟩
    exact he

theorem congr (hx : Decided blame x P) (hPQ : P ↔ Q) : Decided blame x Q :=
  ⟨hx.isOk_iff.trans hPQ, hx.blamed⟩

theorem not_of_error (hx : Decided blame x P) {e : ε} (he : x = .error e) : ¬P := by
  intro hP
  obtain ⟨a, ha⟩ := hx.isOk_iff.2 hP
  rw [ha] at he
  cases he

/-- A computation `y` that begins with the step `x`: it has the errors of `x`, and it goes on where
`x` succeeds. -/
theorem andThen {y : Except ε β} (hx : Decided blame x P)
    (hfail : ∀ e, x = .error e → y = .error e)
    (hnext : ∀ a, x = .ok a → Decided blame y Q) : Decided blame y (P ∧ Q) := by
  cases hcase : x with
  | error e =>
    exact of_error (hfail e hcase) (hx.blamed e hcase) fun h => hx.not_of_error hcase h.1
  | ok a =>
    have hP : P := hx.isOk_iff.1 ⟨a, hcase⟩
    exact (hnext a hcase).congr ⟨fun hQ => ⟨hP, hQ⟩, And.right⟩

theorem bind {f : α → Except ε β} (hx : Decided blame x P)
    (hf : ∀ a, x = .ok a → Decided blame (f a) Q) : Decided blame (x >>= f) (P ∧ Q) := by
  refine hx.andThen ?_ ?_
  · intro e he
    rw [he]
    rfl
  · intro a ha
    rw [ha]
    exact hf a ha

/-- Steps after `x` that cannot fail do not change when the computation succeeds. -/
theorem bind_total {f : α → Except ε β} (hx : Decided blame x P) (hf : ∀ a, ∃ b, f a = .ok b) :
    Decided blame (x >>= f) P :=
  (hx.bind fun a _ => of_isOk (hf a) trivial).congr (iff_of_eq (and_true P))

theorem map (hx : Decided blame x P) (f : α → β) : Decided blame (x.map f) P := by
  cases hcase : x with
  | error e => exact of_error rfl (hx.blamed e hcase) (hx.not_of_error hcase)
  | ok a => exact of_isOk ⟨f a, rfl⟩ (hx.isOk_iff.1 ⟨a, hcase⟩)

theorem mapM {f : α → Except ε β} {ready : α → Prop} {l : List α}
    (h : ∀ a ∈ l, Decided blame (f a) (ready a)) : Decided blame (l.mapM f) (∀ a ∈ l, ready a) := by
  constructor
  · rw [mapM_isOk_iff]
    exact forall₂_congr fun a ha => (h a ha).isOk_iff
  · intro e he
    obtain ⟨a, ha, hf⟩ := exists_of_mapM_eq_error he
    exact (h a ha).blamed e hf

/-- An error that is wrapped is blamed on what it is wrapped in. -/
theorem mapError {ε' : Type} {x : Except ε' α} {f : ε' → ε}
    (hx : Decided (fun e => blame (f e)) x P) : Decided blame (x.mapError f) P := by
  cases hcase : x with
  | error e => exact of_error rfl (hx.blamed e hcase) (hx.not_of_error hcase)
  | ok a => exact of_isOk ⟨a, rfl⟩ (hx.isOk_iff.1 ⟨a, hcase⟩)

end Decided

/-! ### Steps whose results have a property -/

/-- The results of the step `x` are among those of `good`, and its errors are among those of `blame`. -/
structure Yields (blame : ε → Prop) (good : α → Prop) (x : Except ε α) : Prop where
  result : ∀ a, x = .ok a → good a
  blamed : ∀ e, x = .error e → blame e

namespace Yields

variable {blame : ε → Prop} {P : α → Prop} {Q : β → Prop} {x : Except ε α}

theorem ok {a : α} (h : P a) : Yields blame P (.ok a) := by
  constructor
  · rintro _ ⟨⟩
    exact h
  · rintro _ ⟨⟩

theorem error {e : ε} (h : blame e) : Yields blame P (.error e) := by
  constructor
  · rintro _ ⟨⟩
  · rintro _ ⟨⟩
    exact h

theorem bind {f : α → Except ε β} (hx : Yields blame P x)
    (hf : ∀ a, P a → Yields blame Q (f a)) : Yields blame Q (x >>= f) := by
  cases hcase : x with
  | error e => exact error (hx.blamed e hcase)
  | ok a => exact hf a (hx.result a hcase)

theorem map {f : α → β} (hx : Yields blame P x) (hf : ∀ a, P a → Q (f a)) :
    Yields blame Q (x.map f) := by
  cases hcase : x with
  | error e => exact error (hx.blamed e hcase)
  | ok a => exact ok (hf a (hx.result a hcase))

theorem mapM {f : α → Except ε β} (hf : ∀ a, Yields blame Q (f a)) (l : List α) :
    Yields blame (fun bs => ∀ b ∈ bs, Q b) (l.mapM f) := by
  induction l with
  | nil => exact ok (by simp)
  | cons a l ih =>
    rw [List.mapM_cons]
    refine (hf a).bind fun b hb => ih.bind fun bs hbs => ok ?_
    exact List.forall_mem_cons.2 ⟨hb, hbs⟩

/-- Of an error that is wrapped, only what it is wrapped in counts. -/
theorem mapError {ε' : Type} {x : Except ε' α} {f : ε' → ε} (hresult : ∀ a, x = .ok a → P a)
    (hf : ∀ e, blame (f e)) : Yields blame P (x.mapError f) := by
  cases hcase : x with
  | error e => exact error (hf e)
  | ok a => exact ok (hresult a hcase)

end Yields

end Boardwright.Fallible
