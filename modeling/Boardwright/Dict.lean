/-!
# Dictionaries

A finite map from texts, kept as a list of entries in the strict order of their keys, so that two
dictionaries with the same content are equal and listing one always gives the same order.  Texts are
ordered by code points, which is also the order of their UTF-8 bytes.

* **`insertEntry`**, **`findValue?`**: the operations on entry lists.
* **`Dict`**: an entry list with the proof that its keys increase.
* **`Dict.insert`**, **`Dict.erase`**, **`Dict.get?`**: the operations, each with one law about
  `get?`.
-/

namespace Boardwright

variable {α : Type}

/-- Puts an entry in its place, instead of an entry with the same key. -/
def insertEntry (k : String) (v : α) : List (String × α) → List (String × α)
  | [] => [(k, v)]
  | (k', v') :: rest =>
    if k < k' then (k, v) :: (k', v') :: rest
    else if k = k' then (k, v) :: rest
    else (k', v') :: insertEntry k v rest

/-- The value of the first entry with the key `k`. -/
def findValue? (k : String) : List (String × α) → Option α
  | [] => none
  | (k', v') :: rest => if k = k' then some v' else findValue? k rest

/-- Keys of an entry list after an insertion: the new key or an old one. -/
theorem mem_insertEntry {k : String} {v : α} {l : List (String × α)} {e : String × α}
    (h : e ∈ insertEntry k v l) : e = (k, v) ∨ e ∈ l := by
  induction l with
  | nil => simpa [insertEntry] using h
  | cons d rest ih =>
    obtain ⟨k', v'⟩ := d
    simp only [insertEntry] at h
    split at h
    · simpa using h
    · split at h
      · rcases List.mem_cons.1 h with h | h
        · exact Or.inl h
        · exact Or.inr (List.mem_cons_of_mem _ h)
      · rcases List.mem_cons.1 h with h | h
        · exact Or.inr (by simp [h])
        · rcases ih h with h | h
          · exact Or.inl h
          · exact Or.inr (List.mem_cons_of_mem _ h)

/-- The keys of an entry list increase. -/
def KeysIncrease (l : List (String × α)) : Prop :=
  l.Pairwise fun a b => a.1 < b.1

/-- One of two texts is smaller unless they are equal. -/
theorem lt_of_not_lt_of_ne {a b : String} (h : ¬ a < b) (hne : a ≠ b) : b < a := by
  rcases Decidable.em (b < a) with hba | hba
  · exact hba
  · exact absurd (String.le_antisymm (String.not_lt.1 hba) (String.not_lt.1 h)) hne

/-- An insertion keeps the order of the keys. -/
theorem keysIncrease_insertEntry (k : String) (v : α) {l : List (String × α)}
    (h : KeysIncrease l) : KeysIncrease (insertEntry k v l) := by
  induction l with
  | nil => simp [insertEntry, KeysIncrease]
  | cons d rest ih =>
    obtain ⟨k', v'⟩ := d
    obtain ⟨hhead, htail⟩ := List.pairwise_cons.1 h
    simp only [insertEntry]
    split
    · next hlt =>
      refine List.pairwise_cons.2 ⟨fun e he => ?_, h⟩
      rcases List.mem_cons.1 he with rfl | he
      · exact hlt
      · exact String.lt_trans hlt (hhead e he)
    · next hnlt =>
      split
      · next heq =>
        subst heq
        exact List.pairwise_cons.2 ⟨hhead, htail⟩
      · next hne =>
        refine List.pairwise_cons.2 ⟨fun e he => ?_, ih htail⟩
        rcases mem_insertEntry he with rfl | he
        · exact lt_of_not_lt_of_ne hnlt hne
        · exact hhead e he

/-- Looking up the key that was inserted. -/
theorem findValue?_insertEntry_self (k : String) (v : α) (l : List (String × α)) :
    findValue? k (insertEntry k v l) = some v := by
  induction l with
  | nil => simp [insertEntry, findValue?]
  | cons d rest ih =>
    obtain ⟨k', v'⟩ := d
    simp only [insertEntry]
    split
    · simp [findValue?]
    · split
      · simp [findValue?]
      · next hne => simp [findValue?, hne, ih]

/-- Looking up another key than the one inserted. -/
theorem findValue?_insertEntry_of_ne {k q : String} (v : α) (l : List (String × α))
    (hq : q ≠ k) : findValue? q (insertEntry k v l) = findValue? q l := by
  induction l with
  | nil => simp [insertEntry, findValue?, hq]
  | cons d rest ih =>
    obtain ⟨k', v'⟩ := d
    simp only [insertEntry]
    split
    · simp [findValue?, hq]
    · split
      · next heq => subst heq; simp [findValue?, hq]
      · by_cases h : q = k' <;> simp [findValue?, h, ih]

/-- A finite map from texts to `α`, listed by increasing keys. -/
structure Dict (α : Type) where
  /-- The entries, by increasing keys. -/
  entries : List (String × α)
  /-- The keys increase. -/
  increasing : KeysIncrease entries

namespace Dict

/-- The dictionary without entries. -/
def empty : Dict α where
  entries := []
  increasing := List.Pairwise.nil

instance : Inhabited (Dict α) := ⟨empty⟩

instance : EmptyCollection (Dict α) := ⟨empty⟩

instance [DecidableEq α] : DecidableEq (Dict α) := fun a b =>
  if h : a.entries = b.entries then
    isTrue (by cases a; cases b; cases h; rfl)
  else isFalse fun e => h (by rw [e])

/-- Sets the value of a key. -/
def insert (d : Dict α) (k : String) (v : α) : Dict α where
  entries := insertEntry k v d.entries
  increasing := keysIncrease_insertEntry k v d.increasing

/-- The value of a key. -/
def get? (d : Dict α) (k : String) : Option α :=
  findValue? k d.entries

/-- Whether the key has a value. -/
def contains (d : Dict α) (k : String) : Bool :=
  (d.get? k).isSome

/-- Removes a key. -/
def erase (d : Dict α) (k : String) : Dict α where
  entries := d.entries.filter fun e => e.1 ≠ k
  increasing := d.increasing.sublist List.filter_sublist

/-- The keys, in increasing order. -/
def keys (d : Dict α) : List String :=
  d.entries.map (·.1)

/-- The values, in the order of their keys. -/
def values (d : Dict α) : List α :=
  d.entries.map (·.2)

/-- Whether there is no entry. -/
def isEmpty (d : Dict α) : Bool :=
  d.entries.isEmpty

/-- The dictionary of a list of pairs; of two pairs with one key the later one counts. -/
def ofList (l : List (String × α)) : Dict α :=
  l.foldl (fun d e => d.insert e.1 e.2) empty

@[simp] theorem get?_empty (k : String) : (empty : Dict α).get? k = none := rfl

@[simp] theorem get?_insert_self (d : Dict α) (k : String) (v : α) :
    (d.insert k v).get? k = some v :=
  findValue?_insertEntry_self k v d.entries

theorem get?_insert_of_ne (d : Dict α) {k q : String} (v : α) (h : q ≠ k) :
    (d.insert k v).get? q = d.get? q :=
  findValue?_insertEntry_of_ne v d.entries h

theorem get?_insert (d : Dict α) (k q : String) (v : α) :
    (d.insert k v).get? q = if q = k then some v else d.get? q := by
  split
  · next h => subst h; exact get?_insert_self d q v
  · next h => exact get?_insert_of_ne d v h

end Dict

end Boardwright
