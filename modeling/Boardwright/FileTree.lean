/-!
# File trees

A file tree is a value: files and directories by their locations.  Every operation that would touch a
disk is a function on file trees, so what a build does to the files can be read off its result.

Names are texts.  A disk may also have entries whose names are no UTF-8.  They are in no file tree, and
nothing is said here about what happens to them.

* **`Location`**: the names that lead from the working directory, or from the root, to an entry.
* **`File`**, **`Node`**: a file has bytes and may be protected against writing.
* **`FileTree.get?`**: the view of a tree, the entry at a location.
* **`FileTree.set`**, **`FileTree.erase`**, **`FileTree.clear`**: the elementary changes.
* **`get?_set_self`**, **`get?_set_of_ne`**: setting an entry changes this entry and no other.
* **`get?_erase_of_suffix`**, **`get?_clear_of_isIn`** and their counterparts: what removing does to
  each entry.
* **`mem_entriesUnder_of_get?`**: every entry is listed.
-/

namespace Boardwright

/-- The names that lead to an entry, its own name first.  All of them are texts.  Two dots stand for the
directories above the working directory, which itself has no name. -/
abbrev Location := List String

namespace Location

/-- The location of the root directory, from which absolute paths start. -/
def root : Location := ["/"]

/-- The directory above a location.  Above the working directory there is a location of its own, above
the root there is none. -/
def up : Location → Location
  | [] => [".."]
  | name :: above =>
    if name = ".." then ".." :: name :: above
    else if name = "/" then name :: above
    else above

/-- Whether a location is one where a path can start or that lies above one: there is always a
directory. -/
def isAnchor (l : Location) : Bool :=
  l.all (· == "..") || l == root

/-- Whether a location is in the directory at another one, however deep.  The root and what is above
the working directory are in no directory. -/
def IsIn (l above : Location) : Prop :=
  ∃ inner name, l = inner ++ name :: above ∧ isAnchor (name :: above) = false

/-- The names from the outside in. -/
def outermostFirst (l : Location) : List String :=
  l.reverse

end Location

-- one way to compare contents, whatever other libraries offer
instance decidableEqContent : DecidableEq ByteArray := ByteArray.instDecidableEq

/-- What a file is. -/
structure File where
  /-- Its bytes. -/
  content : ByteArray
  /-- Whether it is protected against writing. -/
  locked : Bool := false
  deriving DecidableEq

/-- Bytes alone are a file that can be written. -/
instance : Coe ByteArray File := ⟨fun content => { content }⟩

/-- An entry of a file tree. -/
inductive Node where
  /-- A directory. -/
  | directory
  /-- A file. -/
  | file (file : File)
  deriving DecidableEq

/-- Named entries, each with the tree below it.  A name without a node of its own only leads on. -/
inductive FileTree where
  /-- No entries. -/
  | empty
  /-- An entry, what lies below it, and the entries beside it. -/
  | entry (name : String) (node : Option Node) (inner rest : FileTree)

namespace FileTree

instance : Inhabited FileTree := ⟨empty⟩

/-! ### The entries of one directory -/

/-- The node with a name. -/
def node? : FileTree → String → Option Node
  | empty, _ => none
  | entry name node _ rest, wanted => if name = wanted then node else rest.node? wanted

/-- The tree below a name. -/
def under : FileTree → String → FileTree
  | empty, _ => empty
  | entry name _ inner rest, wanted => if name = wanted then inner else rest.under wanted

/-- The entries with another node for a name. -/
def setNode (wanted : String) (node : Node) : FileTree → FileTree
  | empty => entry wanted (some node) empty empty
  | entry name old inner rest =>
    if name = wanted then entry name (some node) inner rest
    else entry name old inner (rest.setNode wanted node)

/-- The entries with another tree below a name. -/
def setUnder (wanted : String) (inner : FileTree) : FileTree → FileTree
  | empty => entry wanted none inner empty
  | entry name node old rest =>
    if name = wanted then entry name node inner rest
    else entry name node old (setUnder wanted inner rest)

/-- The entries without a name. -/
def drop (wanted : String) : FileTree → FileTree
  | empty => empty
  | entry name node inner rest =>
    if name = wanted then rest.drop wanted else entry name node inner (rest.drop wanted)

/-- The entries that lead to anchors, when the entries lie below `above`.  They are no part of the
directory there. -/
def keepAnchors (above : Location) : FileTree → FileTree
  | empty => empty
  | entry name node inner rest =>
    if Location.isAnchor (name :: above) then entry name node inner (rest.keepAnchors above)
    else rest.keepAnchors above

/-- The names that have a node, with their nodes. -/
def nodes : FileTree → List (String × Node)
  | empty => []
  | entry name (some node) _ rest => (name, node) :: rest.nodes
  | entry _ none _ rest => rest.nodes

/-- The names that have a node, with their nodes, by increasing names. -/
def children (t : FileTree) : List (String × Node) :=
  t.nodes.mergeSort fun a b => decide (a.1 ≤ b.1)

/-! ### Entries at locations -/

/-- The tree below a location. -/
def inside (t : FileTree) : Location → FileTree
  | [] => t
  | name :: above => (t.inside above).under name

/-- The tree with a change to what lies below a location. -/
def modify (t : FileTree) : Location → (FileTree → FileTree) → FileTree
  | [], f => f t
  | name :: above, f => t.modify above fun s => setUnder name (f (s.under name)) s

/-- The node at a location, if the location has a name. -/
def look (t : FileTree) : Location → Option Node
  | [] => none
  | name :: above => (t.inside above).node? name

/-- The entry at a location. -/
def get? (t : FileTree) (l : Location) : Option Node :=
  if l.isAnchor then some .directory else t.look l

/-- The tree with another entry at a location. -/
def set (t : FileTree) (l : Location) (node : Node) : FileTree :=
  match l with
  | [] => t
  | name :: above => t.modify above (setNode name node)

/-- The tree without an entry and without everything below it. -/
def erase (t : FileTree) (l : Location) : FileTree :=
  match l with
  | [] => empty
  | name :: above => t.modify above (drop name)

/-- The tree without everything in the directory at a location. -/
def clear (t : FileTree) (l : Location) : FileTree :=
  t.modify l (keepAnchors l)

/-- All entries, with the locations they have when the tree lies below `above`. -/
def entriesUnder (above : Location) : FileTree → List (Location × Node)
  | empty => []
  | entry name node inner rest =>
    (node.toList.map fun n => (name :: above, n)) ++ entriesUnder (name :: above) inner
      ++ entriesUnder above rest

/-- All entries with their locations. -/
def entries (t : FileTree) : List (Location × Node) :=
  t.entriesUnder []

/-! ### Laws of one directory -/

theorem node?_setNode_self (name : String) (node : Node) (t : FileTree) :
    (t.setNode name node).node? name = some node := by
  induction t with
  | empty => simp [setNode, node?]
  | entry n old inner rest _ ih => by_cases h : n = name <;> simp [setNode, node?, h, ih]

theorem node?_setNode_of_ne {name other : String} (node : Node) (t : FileTree) (h : other ≠ name) :
    (t.setNode name node).node? other = t.node? other := by
  induction t with
  | empty => simp [setNode, node?, h.symm]
  | entry n old inner rest _ ih =>
    by_cases hn : n = name
    · subst hn; simp [setNode, node?, h.symm]
    · simp [setNode, node?, hn, ih]

theorem under_setNode (name other : String) (node : Node) (t : FileTree) :
    (t.setNode name node).under other = t.under other := by
  induction t with
  | empty => simp [setNode, under]
  | entry n old inner rest _ ih => by_cases hn : n = name <;> simp [setNode, under, hn, ih]

theorem under_setUnder_self (name : String) (inner t : FileTree) :
    (setUnder name inner t).under name = inner := by
  induction t with
  | empty => simp [setUnder, under]
  | entry n node old rest _ ih => by_cases h : n = name <;> simp [setUnder, under, h, ih]

theorem under_setUnder_of_ne {name other : String} (inner t : FileTree) (h : other ≠ name) :
    (setUnder name inner t).under other = t.under other := by
  induction t with
  | empty => simp [setUnder, under, h.symm]
  | entry n node old rest _ ih =>
    by_cases hn : n = name
    · subst hn; simp [setUnder, under, h.symm]
    · simp [setUnder, under, hn, ih]

theorem node?_setUnder (name other : String) (inner t : FileTree) :
    (setUnder name inner t).node? other = t.node? other := by
  induction t with
  | empty => simp [setUnder, node?]
  | entry n node old rest _ ih => by_cases hn : n = name <;> simp [setUnder, node?, hn, ih]

/-! ### Laws of locations -/

/-- A location below another one is found step by step. -/
theorem inside_append (t : FileTree) (l above : Location) :
    t.inside (l ++ above) = (t.inside above).inside l := by
  induction l with
  | nil => rfl
  | cons name l ih => simp [inside, ih]

/-- A named entry below another one is found there. -/
theorem look_append {l : Location} (t : FileTree) (above : Location) (h : l ≠ []) :
    t.look (l ++ above) = (t.inside above).look l := by
  cases l with
  | nil => exact absurd rfl h
  | cons name l => simp [look, inside_append]

/-- A change below a location is seen there. -/
theorem inside_modify_self (t : FileTree) (l : Location) (f : FileTree → FileTree) :
    (t.modify l f).inside l = f (t.inside l) := by
  induction l generalizing f with
  | nil => rfl
  | cons name above ih => simp [modify, inside, ih, under_setUnder_self]

/-- A change below a location is seen in the entries below it. -/
theorem look_modify_append (t : FileTree) (l : Location) (f : FileTree → FileTree) {inner : Location}
    (h : inner ≠ []) : (t.modify l f).look (inner ++ l) = (f (t.inside l)).look inner := by
  rw [look_append _ _ h, inside_modify_self]

/-- A change below a name is seen in no entry of the directory itself or below other names. -/
theorem look_setUnder_of_not_below {l : Location} {name : String} (inner t : FileTree)
    (h : ∀ x : Location, x ≠ [] → l ≠ x ++ [name]) : (setUnder name inner t).look l = t.look l := by
  rcases List.eq_nil_or_concat l with rfl | ⟨x, outer, rfl⟩
  · rfl
  · rw [List.concat_eq_append] at h ⊢
    by_cases hx : x = []
    · subst hx
      exact node?_setUnder name outer inner t
    · have houter : outer ≠ name := fun ho => h x hx (by rw [ho])
      rw [look_append _ _ hx, look_append _ _ hx]
      simp [inside, under_setUnder_of_ne _ _ houter]

/-- A change below a location is seen nowhere else. -/
theorem look_modify_of_not_below {q l : Location} (t : FileTree) (f : FileTree → FileTree)
    (h : ∀ x : Location, x ≠ [] → q ≠ x ++ l) : (t.modify l f).look q = t.look q := by
  induction l generalizing f with
  | nil =>
    cases q with
    | nil => rfl
    | cons name q => exact absurd (List.append_nil _).symm (h (name :: q) (by simp))
  | cons name above ih =>
    by_cases hq : ∃ x : Location, x ≠ [] ∧ q = x ++ above
    · obtain ⟨x, hx, rfl⟩ := hq
      show (t.modify above fun s => setUnder name (f (s.under name)) s).look (x ++ above) = _
      rw [look_modify_append _ _ _ hx, look_append _ _ hx]
      apply look_setUnder_of_not_below
      intro y hy hxy
      exact h y hy (by simp [hxy])
    · exact ih _ fun x hx hqx => hq ⟨x, hx, hqx⟩

/-- A change below a location is not seen in an entry that it spares. -/
theorem look_modify_of_spared {q l : Location} (t : FileTree) (f : FileTree → FileTree)
    (h : ∀ x name, q = x ++ name :: l →
      (f (t.inside l)).look (x ++ [name]) = (t.inside l).look (x ++ [name])) :
    (t.modify l f).look q = t.look q := by
  by_cases hbelow : ∃ x : Location, x ≠ [] ∧ q = x ++ l
  · obtain ⟨x, hx, rfl⟩ := hbelow
    rw [look_modify_append _ _ _ hx, look_append _ _ hx]
    rcases List.eq_nil_or_concat x with rfl | ⟨y, name, rfl⟩
    · exact absurd rfl hx
    · rw [List.concat_eq_append]
      exact h y name (by simp)
  · exact look_modify_of_not_below t f fun x hx hqx => hbelow ⟨x, hx, hqx⟩

/-- An entry of a directory is found by the first name that leads to it. -/
theorem look_eq_of_same {s t : FileTree} {name : String} (inner : Location)
    (hnode : s.node? name = t.node? name) (hunder : s.under name = t.under name) :
    s.look (inner ++ [name]) = t.look (inner ++ [name]) := by
  cases inner with
  | nil => exact hnode
  | cons n inner =>
    rw [look_append _ _ (by simp), look_append _ _ (by simp)]
    simp [inside, hunder]

/-- Setting a node spares all other entries. -/
theorem look_setNode_of_ne (name : String) (node : Node) (t : FileTree) {l : Location}
    (h : l ≠ [name]) : (t.setNode name node).look l = t.look l := by
  rcases List.eq_nil_or_concat l with rfl | ⟨inner, outer, rfl⟩
  · rfl
  · rw [List.concat_eq_append] at h ⊢
    by_cases hi : inner = []
    · subst hi
      have hne : outer ≠ name := fun ho => h (by simp [ho])
      simp [look, inside, node?_setNode_of_ne node t hne]
    · rw [look_append _ _ hi, look_append _ _ hi]
      simp [inside, under_setNode]

/-- An entry that is set is there. -/
theorem get?_set_self (t : FileTree) {l : Location} (node : Node) (h : l.isAnchor = false) :
    (t.set l node).get? l = some node := by
  cases l with
  | nil => simp [Location.isAnchor] at h
  | cons name above => simp [get?, h, set, look, inside_modify_self, node?_setNode_self]

theorem look_set_of_ne (t : FileTree) {l q : Location} (node : Node) (h : q ≠ l) :
    (t.set l node).look q = t.look q := by
  cases l with
  | nil => rfl
  | cons name above =>
    apply look_modify_of_spared
    rintro x outer rfl
    apply look_setNode_of_ne
    intro hname
    apply h
    calc x ++ outer :: above = (x ++ [outer]) ++ above := by simp
      _ = name :: above := by rw [hname]; rfl

/-- Setting an entry changes no other entry. -/
theorem get?_set_of_ne (t : FileTree) {l q : Location} (node : Node) (h : q ≠ l) :
    (t.set l node).get? q = t.get? q := by
  rw [get?, get?, look_set_of_ne t node h]

/-! ### Laws of removing -/

theorem inside_empty (l : Location) : empty.inside l = empty := by
  induction l with
  | nil => rfl
  | cons name above ih => simp [inside, ih, under]

theorem look_empty (l : Location) : empty.look l = none := by
  cases l with
  | nil => rfl
  | cons name above => simp [look, inside_empty, node?]

theorem node?_drop_self (name : String) (t : FileTree) : (t.drop name).node? name = none := by
  induction t with
  | empty => rfl
  | entry n node inner rest _ ih => by_cases hn : n = name <;> simp [drop, node?, hn, ih]

theorem under_drop_self (name : String) (t : FileTree) : (t.drop name).under name = empty := by
  induction t with
  | empty => rfl
  | entry n node inner rest _ ih => by_cases hn : n = name <;> simp [drop, under, hn, ih]

theorem node?_drop_of_ne {name other : String} (t : FileTree) (h : other ≠ name) :
    (t.drop name).node? other = t.node? other := by
  induction t with
  | empty => rfl
  | entry n node inner rest _ ih =>
    by_cases hn : n = name
    · subst hn; simp [drop, node?, h.symm, ih]
    · simp [drop, node?, hn, ih]

theorem under_drop_of_ne {name other : String} (t : FileTree) (h : other ≠ name) :
    (t.drop name).under other = t.under other := by
  induction t with
  | empty => rfl
  | entry n node inner rest _ ih =>
    by_cases hn : n = name
    · subst hn; simp [drop, under, h.symm, ih]
    · simp [drop, under, hn, ih]

theorem node?_keepAnchors (above : Location) (name : String) (t : FileTree) :
    (t.keepAnchors above).node? name =
      if Location.isAnchor (name :: above) then t.node? name else none := by
  induction t with
  | empty => simp [keepAnchors, node?]
  | entry n node inner rest _ ih =>
    by_cases hn : n = name
    · subst hn
      by_cases ha : Location.isAnchor (n :: above) = true <;> simp [keepAnchors, node?, ha, ih]
    · by_cases ha : Location.isAnchor (n :: above) = true <;> simp [keepAnchors, node?, ha, hn, ih]

theorem under_keepAnchors (above : Location) (name : String) (t : FileTree) :
    (t.keepAnchors above).under name =
      if Location.isAnchor (name :: above) then t.under name else empty := by
  induction t with
  | empty => simp [keepAnchors, under]
  | entry n node inner rest _ ih =>
    by_cases hn : n = name
    · subst hn
      by_cases ha : Location.isAnchor (n :: above) = true <;> simp [keepAnchors, under, ha, ih]
    · by_cases ha : Location.isAnchor (n :: above) = true <;> simp [keepAnchors, under, ha, hn, ih]

/-- What lies below a location that is no anchor is no anchor. -/
theorem isAnchor_append_of_not {l : Location} (inner : Location) (h : l.isAnchor = false) :
    Location.isAnchor (inner ++ l) = false := by
  cases inner with
  | nil => exact h
  | cons name inner =>
    simp only [Location.isAnchor, Bool.or_eq_false_iff] at h ⊢
    refine ⟨by simp [h.1], ?_⟩
    cases l with
    | nil => simp at h
    | cons n l => simp [Location.root]

/-- A change below a location that leaves nothing under a name leaves no entry there. -/
theorem get?_modify_of_gone (t : FileTree) (f : FileTree → FileTree) {l : Location} {name : String}
    (inner : Location) (hanchor : Location.isAnchor (name :: l) = false)
    (hnode : (f (t.inside l)).node? name = none) (hunder : (f (t.inside l)).under name = empty) :
    (t.modify l f).get? (inner ++ name :: l) = none := by
  have hsplit : inner ++ name :: l = (inner ++ [name]) ++ l := by simp
  rw [get?, if_neg (by simp [isAnchor_append_of_not inner hanchor]), hsplit,
    look_modify_append _ _ _ (by simp), look_eq_of_same (t := empty) inner hnode hunder, look_empty]

/-- An erased entry is gone, with everything below it. -/
theorem get?_erase_of_suffix (t : FileTree) {l q : Location} (h : l.isAnchor = false) (hq : l <:+ q) :
    (t.erase l).get? q = none := by
  obtain ⟨inner, rfl⟩ := hq
  cases l with
  | nil => simp [Location.isAnchor] at h
  | cons name above =>
    exact get?_modify_of_gone t _ inner h (node?_drop_self name _) (under_drop_self name _)

/-- Erasing an entry changes no entry that is not below it. -/
theorem get?_erase_of_not_suffix (t : FileTree) {l q : Location} (h : l ≠ []) (hq : ¬l <:+ q) :
    (t.erase l).get? q = t.get? q := by
  cases l with
  | nil => exact absurd rfl h
  | cons name above =>
    have hlook : (t.modify above (drop name)).look q = t.look q := by
      apply look_modify_of_spared
      rintro x outer rfl
      have houter : outer ≠ name := fun ho => hq ⟨x, by rw [ho]⟩
      exact look_eq_of_same x (node?_drop_of_ne _ houter) (under_drop_of_ne _ houter)
    simp [get?, erase, hlook]

/-- A cleared directory holds nothing. -/
theorem get?_clear_of_isIn (t : FileTree) {l q : Location} (h : q.IsIn l) :
    (t.clear l).get? q = none := by
  obtain ⟨inner, name, rfl, hname⟩ := h
  exact get?_modify_of_gone t _ inner hname (by simp [node?_keepAnchors, hname])
    (by simp [under_keepAnchors, hname])

/-- Clearing a directory changes nothing but what is in it. -/
theorem get?_clear_of_not_isIn (t : FileTree) {l q : Location} (h : ¬q.IsIn l) :
    (t.clear l).get? q = t.get? q := by
  have hlook : (t.modify l (keepAnchors l)).look q = t.look q := by
    apply look_modify_of_spared
    rintro x outer rfl
    have houter : Location.isAnchor (outer :: l) = true := by
      cases ha : Location.isAnchor (outer :: l) with
      | true => rfl
      | false => exact absurd ⟨x, outer, rfl, ha⟩ h
    exact look_eq_of_same x (by simp [node?_keepAnchors, houter])
      (by simp [under_keepAnchors, houter])
  simp [get?, clear, hlook]

/-! ### The list of all entries -/

theorem mem_entriesUnder_of_node? {t : FileTree} {name : String} {node : Node}
    (h : t.node? name = some node) (above : Location) :
    (name :: above, node) ∈ t.entriesUnder above := by
  induction t with
  | empty => simp [node?] at h
  | entry n old inner rest _ ih =>
    by_cases hn : n = name
    · subst hn
      simp only [node?, if_true] at h
      simp [entriesUnder, h]
    · simp [entriesUnder, ih (by simpa [node?, hn] using h)]

theorem mem_entriesUnder_of_under {t : FileTree} {name : String} {above : Location}
    {e : Location × Node} (h : e ∈ (t.under name).entriesUnder (name :: above)) :
    e ∈ t.entriesUnder above := by
  induction t with
  | empty => simp [under, entriesUnder] at h
  | entry n old inner rest _ ih =>
    by_cases hn : n = name
    · subst hn
      simp only [under, if_true] at h
      simp [entriesUnder, h]
    · simp [entriesUnder, ih (by simpa [under, hn] using h)]

theorem mem_entriesUnder_of_inside {t : FileTree} {l above : Location} {e : Location × Node}
    (h : e ∈ (t.inside l).entriesUnder (l ++ above)) : e ∈ t.entriesUnder above := by
  induction l with
  | nil => exact h
  | cons name l ih => exact ih (mem_entriesUnder_of_under h)

/-- What is found at a location that is no anchor is an entry below each location above it. -/
theorem mem_entriesUnder_of_get? {t : FileTree} {l above : Location} {node : Node}
    (h : t.get? (l ++ above) = some node) (hl : l ≠ []) (ha : (l ++ above).isAnchor = false) :
    (l, node) ∈ (t.inside above).entriesUnder [] := by
  rw [get?, if_neg (by simp [ha]), look_append t above hl] at h
  cases l with
  | nil => exact absurd rfl hl
  | cons name l =>
    apply mem_entriesUnder_of_inside (l := l)
    simpa using mem_entriesUnder_of_node? h l

end FileTree

end Boardwright
