import Boardwright.Proofs.Layout
import Boardwright.Storage.Version
import Mathlib.Data.List.Forall2

/-!
# Declarations identify a layout

The version of a layout can be a digest of its declarations, which are written one after the other
without a mark in between.  Two layouts with the same text could not be told apart by any digest.
Here the text is read back: each part of a declaration ends at a character that it does not contain,
and the name ends at the semicolon.

* **`append_cons_inj`**: a text is cut in one way only at a mark that its beginning does not contain.
* **`declarationAt_append_inj`**: what stands in front of any text that starts with a declaration.
* **`Slot.SameDeclaration`**: what two slots have in common if they are declared in the same way.
* **`storedSize_carrierOf`**: the type of the values settles their size.
-/

namespace Boardwright.Storage

/-! ### Texts up to a mark -/

theorem append_cons_inj {p : Char → Prop} {xs ys xs' ys' : List Char} {c d : Char}
    (hxs : ∀ a ∈ xs, p a) (hys : ∀ a ∈ ys, p a) (hc : ¬p c) (hd : ¬p d)
    (h : xs ++ c :: xs' = ys ++ d :: ys') : xs = ys ∧ c = d ∧ xs' = ys' := by
  induction xs generalizing ys with
  | nil =>
    cases ys with
    | nil => simpa using h
    | cons y ys =>
      -- the mark on the left would be a character in front of the mark on the right
      obtain ⟨rfl, -⟩ := List.cons.inj h
      exact absurd (hys c (by simp)) hc
  | cons x xs ih =>
    cases ys with
    | nil =>
      obtain ⟨rfl, -⟩ := List.cons.inj h
      exact absurd (hxs x (by simp)) hd
    | cons y ys =>
      obtain ⟨rfl, htail⟩ := List.cons.inj h
      obtain ⟨rfl, hrest⟩ := ih (List.forall_mem_cons.1 hxs).2 (List.forall_mem_cons.1 hys).2 htail
      exact ⟨rfl, hrest⟩

theorem toDigits_inj {m n : ℕ} (h : Nat.toDigits 10 m = Nat.toDigits 10 n) : m = n := by
  calc m = Nat.ofDigitChars 10 (Nat.toDigits 10 m) 0 := Nat.ofDigitChars_ten_toDigits.symm
    _ = Nat.ofDigitChars 10 (Nat.toDigits 10 n) 0 := by rw [h]
    _ = n := Nat.ofDigitChars_ten_toDigits

theorem toDigits_append_inj {m n : ℕ} {c d : Char} {xs ys : List Char} (hc : c.isDigit = false)
    (hd : d.isDigit = false) (h : Nat.toDigits 10 m ++ c :: xs = Nat.toDigits 10 n ++ d :: ys) :
    m = n ∧ c = d ∧ xs = ys := by
  have hdigit : ∀ n, ∀ a ∈ Nat.toDigits 10 n, a.isDigit = true :=
    fun n a ha => Nat.isDigit_of_mem_toDigits (by decide) (by decide) ha
  have hsplit := append_cons_inj (p := (·.isDigit = true)) (hdigit m) (hdigit n) (by simp [hc])
    (by simp [hd]) h
  exact ⟨toDigits_inj hsplit.1, hsplit.2⟩

/-! ### Types that hold values -/

theorem mem_table_of_ofName? {type : String} {t : ValueType} (h : ValueType.ofName? type = some t) :
    (Text.trim type, t) ∈ ValueType.table := by
  obtain ⟨before, after, htable, -⟩ := List.lookup_eq_some_iff.1 h
  rw [htable]
  simp

/-- The type that holds the values of a row of the table of types. -/
def rowCarrier (row : String × ValueType) : String :=
  match row.2 with
  | .analogPin | .digitalPin | .pin | .interrupt => "byte"
  | .enumeration => "int"
  | _ => row.1

theorem carrierOf_eq_rowCarrier {item : StoredItem} {t : ValueType}
    (h : ValueType.ofName? item.type = some t) :
    carrierOf item = rowCarrier (Text.trim item.type, t) := by
  rw [carrierOf, h]
  cases t <;> rfl

theorem rowCarrier_table : ∀ row ∈ ValueType.table,
    ',' ∉ (rowCarrier row).toList ∧ (0 < row.2.size → storedSize (rowCarrier row) = row.2.size) := by
  decide +kernel

theorem comma_not_mem_carrierOf (item : StoredItem) : ∀ c ∈ (carrierOf item).toList, c ≠ ',' := by
  intro c hc hcomma
  subst hcomma
  cases htype : ValueType.ofName? item.type with
  | none => simp [carrierOf, htype] at hc
  | some t =>
    rw [carrierOf_eq_rowCarrier htype] at hc
    exact (rowCarrier_table _ (mem_table_of_ofName? htype)).1 hc

/-- Values that are held by one type have one size, whatever the declared types are. -/
theorem storedSize_carrierOf {item : StoredItem} (h : 0 < storedSize item.type) :
    storedSize (carrierOf item) = storedSize item.type := by
  obtain ⟨t, htype, hsize⟩ := exists_type_of_storedSize h
  rw [carrierOf_eq_rowCarrier htype,
    (rowCarrier_table _ (mem_table_of_ofName? htype)).2 hsize, storedSize, htype]
  rfl

/-! ### One declaration -/

theorem className_append_inj {cached cached' : Bool} {length length' : Option UInt32}
    {xs ys : List Char}
    (h : (className cached length).toList ++ xs = (className cached' length').toList ++ ys) :
    cached = cached' ∧ length.isSome = length'.isSome ∧ xs = ys := by
  cases length <;> cases length' <;> cases cached <;> cases cached' <;>
    simp [className] at h ⊢ <;> exact h

/-- What two slots have in common if they are declared in the same way. -/
structure Slot.SameDeclaration (s t : Slot) : Prop where
  name : s.item.name = t.item.name
  cached : s.item.cached = t.item.cached
  length : s.item.length = t.item.length
  carrier : carrierOf s.item = carrierOf t.item
  offset : s.offset = t.offset

theorem Slot.SameDeclaration.declarationAt_eq {s t : Slot} (h : s.SameDeclaration t) :
    declarationAt s.offset s.item = declarationAt t.offset t.item := by
  rw [declarationAt, declarationAt, declarationEnd, declarationEnd, h.cached, h.length, h.carrier,
    h.offset, h.name]

theorem toList_declarationAt (offset : ℕ) (item : StoredItem) :
    (declarationAt offset item).toList = (className item.cached item.length).toList ++
      ((carrierOf item).toList ++ ',' :: ' ' ::
        (Nat.toDigits 10 offset ++ (declarationEnd item).toList)) := by
  simp [declarationAt]

theorem name_append_inj {name name' : String} {xs ys : List Char} (hname : ';' ∉ name.toList)
    (hname' : ';' ∉ name'.toList)
    (h : name.toList ++ ';' :: xs = name'.toList ++ ';' :: ys) : name = name' ∧ xs = ys := by
  have hsplit := append_cons_inj (p := (· ≠ ';')) (fun a ha hc => hname (hc ▸ ha))
    (fun a ha hc => hname' (hc ▸ ha)) (by simp) (by simp) h
  exact ⟨String.toList_injective hsplit.1, hsplit.2.2⟩

/-- After the address comes a bracket for a variable and a comma for an array. -/
theorem address_append_inj {m n : ℕ} {item item' : StoredItem} {xs ys : List Char}
    (hname : ';' ∉ item.name.toList) (hname' : ';' ∉ item'.name.toList)
    (h : Nat.toDigits 10 m ++ ((declarationEnd item).toList ++ xs)
      = Nat.toDigits 10 n ++ ((declarationEnd item').toList ++ ys)) :
    m = n ∧ item.length = item'.length ∧ item.name = item'.name ∧ xs = ys := by
  rw [declarationEnd, declarationEnd] at h
  cases hlength : item.length with
  | none =>
    cases hlength' : item'.length with
    | none =>
      simp only [hlength, hlength', String.toList_append, List.append_assoc] at h
      obtain ⟨hmn, -, hrest⟩ := toDigits_append_inj (c := '>') (d := '>') (by decide) (by decide) h
      obtain ⟨hnames, hxs⟩ := name_append_inj hname hname' (List.cons.inj hrest).2
      exact ⟨hmn, rfl, hnames, hxs⟩
    | some b =>
      simp only [hlength, hlength', String.toList_append, List.append_assoc] at h
      have hmark := (toDigits_append_inj (c := '>') (d := ',') (by decide) (by decide) h).2.1
      exact absurd hmark (by decide)
  | some a =>
    cases hlength' : item'.length with
    | none =>
      simp only [hlength, hlength', String.toList_append, List.append_assoc] at h
      have hmark := (toDigits_append_inj (c := ',') (d := '>') (by decide) (by decide) h).2.1
      exact absurd hmark (by decide)
    | some b =>
      simp only [hlength, hlength', String.toList_append, List.append_assoc,
        Nat.toString_eq_repr, Nat.toList_repr] at h
      obtain ⟨hmn, -, hrest⟩ := toDigits_append_inj (c := ',') (d := ',') (by decide) (by decide) h
      obtain ⟨hab, -, hrest⟩ := toDigits_append_inj (c := '>') (d := '>') (by decide) (by decide)
        (List.cons.inj hrest).2
      obtain ⟨hnames, hxs⟩ := name_append_inj hname hname' (List.cons.inj hrest).2
      exact ⟨hmn, by rw [UInt32.toNat_inj.1 hab], hnames, hxs⟩

/-- A text starts with one declaration only. -/
theorem declarationAt_append_inj {s t : Slot} {xs ys : List Char} (hs : ';' ∉ s.item.name.toList)
    (ht : ';' ∉ t.item.name.toList)
    (h : (declarationAt s.offset s.item).toList ++ xs
      = (declarationAt t.offset t.item).toList ++ ys) :
    s.SameDeclaration t ∧ xs = ys := by
  simp only [toList_declarationAt, List.append_assoc, List.cons_append] at h
  obtain ⟨hcached, -, h⟩ := className_append_inj h
  obtain ⟨hcarrier, -, h⟩ := append_cons_inj (p := (· ≠ ',')) (comma_not_mem_carrierOf _)
    (comma_not_mem_carrierOf _) (by simp) (by simp) h
  obtain ⟨hoffset, hlength, hname, hrest⟩ := address_append_inj hs ht (List.cons.inj h).2
  exact ⟨⟨hname, hcached, hlength, String.toList_injective hcarrier, hoffset⟩, hrest⟩

/-! ### All declarations -/

/-- A slot with its own declaration, in which the name ends at the semicolon. -/
structure Slot.Readable (s : Slot) : Prop where
  declaration : s.declaration = declarationAt s.offset s.item
  name : ';' ∉ s.item.name.toList

theorem readable_of_mem_slotsFrom {base : ℕ} {items : List StoredItem}
    (hnames : ∀ item ∈ items, ';' ∉ item.name.toList) :
    ∀ s ∈ slotsFrom base items, s.Readable := by
  induction items generalizing base with
  | nil => simp [slotsFrom]
  | cons item rest ih =>
    obtain ⟨hname, hnames⟩ := List.forall_mem_cons.1 hnames
    exact List.forall_mem_cons.2 ⟨⟨rfl, hname⟩, ih hnames⟩

theorem declaration_append_ne_nil {s : Slot} (h : s.Readable) (xs : List Char) :
    s.declaration.toList ++ xs ≠ [] := by
  rw [h.declaration, toList_declarationAt]
  cases s.item.length <;> cases s.item.cached <;> simp [className]

theorem flatMap_declaration_eq_iff {ss ts : List Slot} (hss : ∀ s ∈ ss, s.Readable)
    (hts : ∀ t ∈ ts, t.Readable) :
    ss.flatMap (·.declaration.toList) = ts.flatMap (·.declaration.toList) ↔
      List.Forall₂ Slot.SameDeclaration ss ts := by
  constructor
  · intro h
    induction ss generalizing ts with
    | nil =>
      cases ts with
      | nil => exact .nil
      | cons t ts =>
        rw [List.flatMap_nil, List.flatMap_cons] at h
        exact absurd h.symm (declaration_append_ne_nil (hts t (by simp)) _)
    | cons s ss ih =>
      cases ts with
      | nil =>
        rw [List.flatMap_nil, List.flatMap_cons] at h
        exact absurd h (declaration_append_ne_nil (hss s (by simp)) _)
      | cons t ts =>
        obtain ⟨hs, hss⟩ := List.forall_mem_cons.1 hss
        obtain ⟨ht, hts⟩ := List.forall_mem_cons.1 hts
        rw [List.flatMap_cons, List.flatMap_cons, hs.declaration, ht.declaration] at h
        obtain ⟨hsame, hrest⟩ := declarationAt_append_inj hs.name ht.name h
        exact .cons hsame (ih hss hts hrest)
  · intro h
    induction h with
    | nil => rfl
    | @cons s t ss ts hsame _ ih =>
      obtain ⟨hs, hss⟩ := List.forall_mem_cons.1 hss
      obtain ⟨ht, hts⟩ := List.forall_mem_cons.1 hts
      rw [List.flatMap_cons, List.flatMap_cons, hs.declaration, ht.declaration,
        hsame.declarationAt_eq, ih hss hts]

/-! ### What the digest is taken of -/

/-- The bytes that the digest of a layout is taken of. -/
def hashedBytes (layout : Layout) : List UInt8 :=
  (String.join layout.declarations).toUTF8.toList

theorem toList_loop_eq (bytes : ByteArray) (i : ℕ) (before : List UInt8) :
    ByteArray.toList.loop bytes i before = before.reverse ++ bytes.data.toList.drop i := by
  fun_induction ByteArray.toList.loop bytes i before with
  | case1 i before hlt ih =>
    have hi : i < bytes.data.toList.length := by simpa using hlt
    have hget : bytes.get! i = bytes.data.toList[i] := by
      rw [Array.getElem_toList]
      exact getElem!_pos bytes.data i hlt
    rw [ih, hget, List.reverse_cons, List.append_assoc, List.singleton_append,
      ← List.drop_eq_getElem_cons hi]
  | case2 i before hlt =>
    have hi : bytes.data.toList.length ≤ i := by simpa using hlt
    rw [List.drop_eq_nil_of_le hi, List.append_nil]

theorem utf8_toList_inj {s t : String} (h : s.toUTF8.toList = t.toUTF8.toList) : s = t := by
  have hloop : ∀ bytes : ByteArray, bytes.toList = bytes.data.toList := by
    intro bytes
    rw [ByteArray.toList, toList_loop_eq]
    rfl
  rw [hloop, hloop] at h
  exact String.toByteArray_inj.1 (ByteArray.ext (Array.toList_inj.1 h))

theorem hashedBytes_inj_iff {l₁ l₂ : Layout} :
    hashedBytes l₁ = hashedBytes l₂ ↔
      String.join l₁.declarations = String.join l₂.declarations := by
  constructor
  · exact utf8_toList_inj
  · intro h
    rw [hashedBytes, hashedBytes, h]

theorem join_declarations_eq_iff {l₁ l₂ : Layout} (h₁ : ∀ s ∈ l₁.slots, s.Readable)
    (h₂ : ∀ s ∈ l₂.slots, s.Readable) :
    String.join l₁.declarations = String.join l₂.declarations ↔
      List.Forall₂ Slot.SameDeclaration l₁.slots l₂.slots := by
  rw [← flatMap_declaration_eq_iff h₁ h₂, ← String.toList_inj, String.toList_join,
    String.toList_join, Layout.declarations, Layout.declarations, List.flatMap_map,
    List.flatMap_map]

/-! ### Layouts with the same digest input -/

/-- Something about the items changes that a layout depends on: an item is there or not, or the items
at one position have other names, another copy in memory, other lengths, sizes or types of values. -/
def Differ (items₁ items₂ : List StoredItem) : Prop :=
  items₁.length ≠ items₂.length ∨
    ∃ (k : ℕ) (a b : StoredItem), items₁[k]? = some a ∧ items₂[k]? = some b ∧
      (a.name ≠ b.name ∨ a.cached ≠ b.cached ∨ a.length ≠ b.length ∨ itemSize a ≠ itemSize b ∨
        carrierOf a ≠ carrierOf b)

theorem Slot.SameDeclaration.itemSize_eq {s t : Slot} (h : s.SameDeclaration t)
    (hs : 0 < storedSize s.item.type) (ht : 0 < storedSize t.item.type) :
    itemSize s.item = itemSize t.item := by
  have hsize : storedSize s.item.type = storedSize t.item.type := by
    rw [← storedSize_carrierOf hs, ← storedSize_carrierOf ht, h.carrier]
  rw [itemSize, itemSize, itemCount, itemCount, hsize, h.length]

theorem not_differ_of_forall₂ {items₁ items₂ : List StoredItem} {l₁ l₂ : Layout}
    (h₁ : allocate items₁ = .ok l₁) (h₂ : allocate items₂ = .ok l₂)
    (h : List.Forall₂ Slot.SameDeclaration l₁.slots l₂.slots) : ¬Differ items₁ items₂ := by
  obtain ⟨⟨hsizes₁, -⟩, rfl⟩ := allocate_eq_ok_iff.1 h₁
  obtain ⟨⟨hsizes₂, -⟩, rfl⟩ := allocate_eq_ok_iff.1 h₂
  rintro (hlength | ⟨k, a, b, ha, hb, hdiffer⟩)
  · have hslots := h.length_eq
    rw [length_slotsFrom, length_slotsFrom] at hslots
    exact hlength hslots
  · have hsame : (slotAt (addressOf versionBytes items₁ k) a).SameDeclaration
        (slotAt (addressOf versionBytes items₂ k) b) := by
      obtain ⟨hk₁, hs⟩ := List.getElem?_eq_some_iff.1 (getElem?_slotsFrom ha)
      obtain ⟨hk₂, ht⟩ := List.getElem?_eq_some_iff.1 (getElem?_slotsFrom hb)
      rw [← hs, ← ht]
      exact h.get hk₁ hk₂
    have hsize := hsame.itemSize_eq (hsizes₁ a (List.mem_of_getElem? ha))
      (hsizes₂ b (List.mem_of_getElem? hb))
    rcases hdiffer with hname | hcached | hlength | hsizes | hcarrier
    · exact hname hsame.name
    · exact hcached hsame.cached
    · exact hlength hsame.length
    · exact hsizes hsize
    · exact hcarrier hsame.carrier

/-- **Declarations identify a layout.**  Two layouts, without a semicolon in a name, have the same
text of declarations exactly when they agree slot by slot.  So a layout that stays keeps its hashed
version, and any change of the items changes what the digest is taken of. -/
theorem declarations_identify_layout {items₁ items₂ : List StoredItem} {l₁ l₂ : Layout}
    (h₁ : allocate items₁ = .ok l₁) (h₂ : allocate items₂ = .ok l₂)
    (hnames₁ : ∀ item ∈ items₁, ';' ∉ item.name.toList)
    (hnames₂ : ∀ item ∈ items₂, ';' ∉ item.name.toList) :
    (String.join l₁.declarations = String.join l₂.declarations ↔
      List.Forall₂ Slot.SameDeclaration l₁.slots l₂.slots) ∧
    (List.Forall₂ Slot.SameDeclaration l₁.slots l₂.slots → ∀ chance₁ chance₂,
      VersionMode.hash.version chance₁ l₁.declarations
        = VersionMode.hash.version chance₂ l₂.declarations) ∧
    (Differ items₁ items₂ → hashedBytes l₁ ≠ hashedBytes l₂) ∧
    ∀ chance, VersionMode.hash.version chance l₁.declarations
      = ((Digest.Sha256.digest (hashedBytes l₁)).headD 0).toNat % 2 ^ 31 := by
  have hiff : String.join l₁.declarations = String.join l₂.declarations ↔
      List.Forall₂ Slot.SameDeclaration l₁.slots l₂.slots := by
    obtain ⟨-, rfl⟩ := allocate_eq_ok_iff.1 h₁
    obtain ⟨-, rfl⟩ := allocate_eq_ok_iff.1 h₂
    exact join_declarations_eq_iff (readable_of_mem_slotsFrom hnames₁)
      (readable_of_mem_slotsFrom hnames₂)
  refine ⟨hiff, ?_, ?_, fun _ => rfl⟩
  · intro hsame _ _
    show declarationHash l₁.declarations = declarationHash l₂.declarations
    rw [declarationHash, declarationHash, hiff.2 hsame]
  · intro hdiffer hbytes
    exact not_differ_of_forall₂ h₁ h₂ (hiff.1 (hashedBytes_inj_iff.1 hbytes)) hdiffer

/-- A pin and a list of choices, by their own types or by those that hold their values. -/
def pinAndChoices (pin choice : String) : List StoredItem :=
  [{ name := "led", type := pin }, { name := "modes", type := choice, length := some 3 }]

theorem declarations_identify_pins :
    ∃ l₁ l₂ l₃, allocate (pinAndChoices "pin" "enumeration") = .ok l₁ ∧
      allocate (pinAndChoices " byte" "int") = .ok l₂ ∧
      allocate (pinAndChoices "byte" "word") = .ok l₃ ∧
      String.join l₁.declarations = String.join l₂.declarations ∧
      hashedBytes l₁ ≠ hashedBytes l₃ := by
  have hnames : ∀ pin choice, ∀ item ∈ pinAndChoices pin choice, ';' ∉ item.name.toList := by
    simp [pinAndChoices]
  obtain ⟨l₁, h₁⟩ : ∃ l, allocate (pinAndChoices "pin" "enumeration") = .ok l := ⟨_, rfl⟩
  obtain ⟨l₂, h₂⟩ : ∃ l, allocate (pinAndChoices " byte" "int") = .ok l := ⟨_, rfl⟩
  obtain ⟨l₃, h₃⟩ : ∃ l, allocate (pinAndChoices "byte" "word") = .ok l := ⟨_, rfl⟩
  refine ⟨l₁, l₂, l₃, h₁, h₂, h₃, ?_, ?_⟩
  · refine (declarations_identify_layout h₁ h₂ (hnames _ _) (hnames _ _)).1.2 ?_
    obtain ⟨-, rfl⟩ := allocate_eq_ok_iff.1 h₁
    obtain ⟨-, rfl⟩ := allocate_eq_ok_iff.1 h₂
    exact .cons ⟨rfl, rfl, rfl, by decide +kernel, rfl⟩
      (.cons ⟨rfl, rfl, rfl, by decide +kernel, by decide +kernel⟩ .nil)
  · refine (declarations_identify_layout h₁ h₃ (hnames _ _) (hnames _ _)).2.2.1 ?_
    exact .inr ⟨1, _, _, rfl, rfl, by decide +kernel⟩

end Boardwright.Storage
