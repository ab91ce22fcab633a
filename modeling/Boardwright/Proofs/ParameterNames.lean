import Boardwright.Proofs.ObjectNames
import Boardwright.Proofs.Paths

/-!
# Names of parameters

A parameter that was given no name gets one by its position.  The names stand in the head of a function,
and the call that forwards to a method passes them on.  They are pairwise distinct unless two parameters
were given one name, or a parameter was given the name that another one gets by its position.

* **`givenNames`**, **`placeName`**: the two sorts of names; **`Forestalled`**: a name of both sorts.
* **`nodup_parameterNames_iff`**: when no two parameters have one name.
* **`namesRead`**: the names as they are read out of a head or a call.
* **`Heads`**: the names in a head; **`parameters_distinct_iff`**: those of wrapped methods and of
  events.
* **`forestalled_name_repeated`**: a name that stands in a head twice.
-/

namespace Boardwright

variable {ps : List Parameter} {p : Parameter}

/-! ### Given names and names by position -/

/-- The names that parameters were given. -/
def givenNames (ps : List Parameter) : List String :=
  ps.filterMap (·.name)

/-- The name of a parameter without a name at a position. -/
def placeName (i : ℕ) : String :=
  "arg" ++ toString i

/-- Some parameter has no name, and the name by its position was given to another one. -/
def Forestalled (ps : List Parameter) : Prop :=
  ∃ i p, ps[i]? = some p ∧ p.name = none ∧ placeName i ∈ givenNames ps

theorem placeName_injective : Function.Injective placeName :=
  Generation.append_toString_injective "arg"

/-- The positions, counted from `index`, of the parameters without a name. -/
def unnamedFrom (index : ℕ) (ps : List Parameter) : List ℕ :=
  ps.findIdxs (·.name.isNone) index

theorem forestalled_iff : Forestalled ps ↔ ∃ i ∈ unnamedFrom 0 ps, placeName i ∈ givenNames ps := by
  constructor
  · intro h
    obtain ⟨i, p, hp, hnone, hgiven⟩ := h
    obtain ⟨hlt, rfl⟩ := List.getElem?_eq_some_iff.1 hp
    exact ⟨i, List.mem_findIdxs_iff_exists_getElem_pos.2 ⟨hlt, Option.isNone_iff_eq_none.2 hnone⟩, hgiven⟩
  · intro h
    obtain ⟨i, hi, hgiven⟩ := h
    obtain ⟨hlt, hnone⟩ := List.mem_findIdxs_iff_exists_getElem_pos.1 hi
    exact ⟨i, ps[i], List.getElem?_eq_getElem hlt, Option.isNone_iff_eq_none.1 hnone, hgiven⟩

instance (ps : List Parameter) : Decidable (Forestalled ps) :=
  decidable_of_iff _ forestalled_iff.symm

/-- Every parameter has a name of one of the two sorts. -/
theorem parameterNamesFrom_perm (index : ℕ) (ps : List Parameter) :
    (parameterNamesFrom index ps).Perm (givenNames ps ++ (unnamedFrom index ps).map placeName) := by
  induction ps generalizing index with
  | nil => exact .nil
  | cons p ps ih =>
    rw [parameterNamesFrom, givenNames, unnamedFrom, List.findIdxs_cons, List.filterMap_cons,
      Parameter.nameAt]
    cases p.name with
    | some n => exact (ih (index + 1)).cons n
    | none => exact ((ih (index + 1)).cons (placeName index)).trans List.perm_middle.symm

theorem nodup_parameterNames_iff (ps : List Parameter) :
    (parameterNames ps).Nodup ↔ (givenNames ps).Nodup ∧ ¬ Forestalled ps := by
  have hplaces : ((unnamedFrom 0 ps).map placeName).Nodup :=
    List.Nodup.map placeName_injective List.nodup_findIdxs
  have hapart : (givenNames ps).Disjoint ((unnamedFrom 0 ps).map placeName) ↔ ¬ Forestalled ps := by
    rw [forestalled_iff, List.disjoint_right, List.forall_mem_map, not_exists]
    exact forall_congr' fun i => not_and.symm
  rw [parameterNames, (parameterNamesFrom_perm 0 ps).nodup_iff, List.nodup_append', hapart]
  exact ⟨fun h => ⟨h.1, h.2.2⟩, fun h => ⟨h.1, hplaces, h.2⟩⟩

/-! ### Names by place -/

theorem getElem?_parameterNames (ps : List Parameter) (i : ℕ) :
    (parameterNames ps)[i]? = ps[i]?.map fun p => p.name.getD (placeName i) := by
  rw [parameterNames, parameterNamesFrom_eq, List.getElem?_map, List.getElem?_zipIdx, Option.map_map,
    Nat.zero_add]
  congr 1
  funext p
  exact p.nameAt_eq i

/-! ### Reading names -/

/-- What stands behind the last occurrence of a character. -/
def lastPiece (sep : Char) (cs : List Char) : List Char :=
  (Text.splitChars sep cs).getLastD []

/-- What stands between the last opening parenthesis of a text and its last character. -/
def inParentheses (text : String) : List Char :=
  (lastPiece '(' text.toList).dropLast

/-- The words before the commas between the parentheses, and the last word there.  In the head of a
function these are the names of the parameters, in a call they are the arguments. -/
def namesRead (text : String) : List String :=
  if inParentheses text = [] then []
  else (Text.splitChars ',' (inParentheses text)).map fun piece => String.ofList (lastPiece ' ' piece)

/-- A text with neither an opening parenthesis nor a comma in it. -/
structure Undivided (s : String) : Prop where
  noParenthesis : '(' ∉ s.toList
  noComma : ',' ∉ s.toList

instance (s : String) : Decidable (Undivided s) :=
  decidable_of_iff ('(' ∉ s.toList ∧ ',' ∉ s.toList) ⟨fun h => ⟨h.1, h.2⟩, fun h => ⟨h.1, h.2⟩⟩

/-- A text that can be read as a name. -/
structure OneWord (s : String) : Prop extends Undivided s where
  noBlank : ' ' ∉ s.toList
  ne_empty : s ≠ ""

instance (s : String) : Decidable (OneWord s) :=
  decidable_of_iff (Undivided s ∧ ' ' ∉ s.toList ∧ s ≠ "")
    ⟨fun h => ⟨h.1, h.2.1, h.2.2⟩, fun h => ⟨h.1, h.2, h.3⟩⟩

/-- A parameter that is written without parentheses and commas, under a name of one word if it was given
one. -/
structure Parameter.Plain (p : Parameter) : Prop where
  type : Undivided p.type
  name : ∀ n ∈ p.name, OneWord n

instance (p : Parameter) : Decidable p.Plain :=
  decidable_of_iff (Undivided p.type ∧ ∀ n ∈ p.name, OneWord n) ⟨fun h => ⟨h.1, h.2⟩, fun h => ⟨h.1, h.2⟩⟩

theorem isAlphanum_of_mem_placeName {i : ℕ} {c : Char} (h : c ∈ (placeName i).toList) :
    c.isAlphanum = true := by
  have hlist : (placeName i).toList = "arg".toList ++ Nat.toDigits 10 i := by simp [placeName]
  rw [hlist, List.mem_append] at h
  cases h with
  | inl harg =>
    have hletters : ∀ c ∈ "arg".toList, c.isAlphanum = true := List.all_eq_true.1 (by decide)
    exact hletters c harg
  | inr hdigits =>
    have hdigit := Nat.isDigit_of_mem_toDigits (by decide) (by decide) hdigits
    rw [Char.isAlphanum, hdigit, Bool.or_true]

theorem oneWord_placeName (i : ℕ) : OneWord (placeName i) := by
  have hmarks : ∀ c : Char, c.isAlphanum = false → c ∉ (placeName i).toList := by
    intro c hc hmem
    rw [isAlphanum_of_mem_placeName hmem] at hc
    cases hc
  have hne : placeName i ≠ "" := by
    intro h
    exact absurd (congrArg String.toList h) (by simp [placeName])
  exact ⟨⟨hmarks _ (by decide), hmarks _ (by decide)⟩, hmarks _ (by decide), hne⟩

theorem Parameter.Plain.oneWord (h : p.Plain) (i : ℕ) : OneWord (p.nameAt i) := by
  rw [p.nameAt_eq]
  cases hname : p.name with
  | none => exact oneWord_placeName i
  | some n => exact h.name n hname

theorem lastPiece_of_not_mem {sep : Char} {cs : List Char} (h : sep ∉ cs) : lastPiece sep cs = cs := by
  rw [lastPiece, Text.splitChars_of_not_mem h]
  rfl

theorem lastPiece_append {sep : Char} {cs : List Char} (before : List Char) (h : sep ∉ cs) :
    lastPiece sep (before ++ sep :: cs) = cs := by
  rw [lastPiece, Text.splitChars_append_sep, Text.splitChars_of_not_mem h, List.getLastD_concat]

theorem lastPiece_cons_sep (sep : Char) (cs : List Char) :
    lastPiece sep (sep :: cs) = lastPiece sep cs := by
  rw [lastPiece, Text.splitChars, if_pos rfl, List.getLastD_cons]
  rfl

theorem splitChars_joined {piece : String} {rest : List String}
    (h : ∀ x ∈ piece :: rest, ',' ∉ x.toList) :
    Text.splitChars ',' (", ".intercalate (piece :: rest)).toList =
      piece.toList :: rest.map fun x => ' ' :: x.toList := by
  have hpiece := Text.splitChars_of_not_mem (h piece List.mem_cons_self)
  induction rest generalizing piece with
  | nil => rw [String.intercalate_singleton, hpiece, List.map_nil]
  | cons next rest ih =>
    have hrest : ∀ x ∈ next :: rest, ',' ∉ x.toList := fun x hx => h x (List.mem_cons_of_mem _ hx)
    have hnext := ih hrest (Text.splitChars_of_not_mem (hrest next List.mem_cons_self))
    rw [String.intercalate_cons_cons, String.toList_append, String.toList_append, List.append_assoc]
    show Text.splitChars ',' (piece.toList ++ ',' :: ' ' :: (", ".intercalate (next :: rest)).toList) = _
    rw [Text.splitChars_append_sep, hpiece, Text.splitChars, if_neg (by decide), hnext]
    rfl

theorem toList_joined_ne_nil {piece : String} (h : piece ≠ "") (rest : List String) :
    (", ".intercalate (piece :: rest)).toList ≠ [] := by
  cases rest with
  | nil =>
    rw [String.intercalate_singleton]
    exact fun hnil => h (String.toList_eq_nil_iff.1 hnil)
  | cons next rest => simp [String.intercalate_cons_cons]

theorem inParentheses_eq (before : String) {inside : String} (h : '(' ∉ inside.toList) :
    inParentheses (before ++ "(" ++ inside ++ ")") = inside.toList := by
  have hlist : (before ++ "(" ++ inside ++ ")").toList =
      before.toList ++ '(' :: (inside.toList ++ [')']) := by
    simp
  have hlast : '(' ∉ inside.toList ++ [')'] := by
    simpa using h
  rw [inParentheses, hlist, lastPiece_append _ hlast, List.dropLast_concat]

/-- A piece of text between commas whose last word is a name. -/
structure Shows (piece name : String) : Prop extends Undivided piece where
  ne_empty : piece ≠ ""
  lastWord : lastPiece ' ' piece.toList = name.toList

theorem OneWord.shows_self {n : String} (h : OneWord n) : Shows n n :=
  ⟨h.toUndivided, h.ne_empty, lastPiece_of_not_mem h.noBlank⟩

theorem OneWord.shows_typed {type n : String} (h : OneWord n) (htype : Undivided type) :
    Shows (type ++ " " ++ n) n := by
  have hlist : (type ++ " " ++ n).toList = type.toList ++ ' ' :: n.toList := by simp
  have hmem : ∀ c, c ≠ ' ' → c ∉ type.toList → c ∉ n.toList → c ∉ (type ++ " " ++ n).toList := by
    intro c hc ht hn
    simp [hlist, hc, ht, hn]
  refine ⟨⟨?_, ?_⟩, ?_, ?_⟩
  · exact hmem _ (by decide) htype.noParenthesis h.noParenthesis
  · exact hmem _ (by decide) htype.noComma h.noComma
  · intro hempty
    simp [hempty] at hlist
  · rw [hlist, lastPiece_append _ h.noBlank]

/-- The names are read from pieces that show them, joined between parentheses. -/
theorem namesRead_joined {α : Type} (before : String) {xs : List α} {piece name : α → String}
    (h : ∀ x ∈ xs, Shows (piece x) (name x)) :
    namesRead (before ++ "(" ++ ", ".intercalate (xs.map piece) ++ ")") = xs.map name := by
  have hopen : '(' ∉ (", ".intercalate (xs.map piece)).toList := by
    intro hmem
    obtain hsep | ⟨_, hpiece, hmem⟩ := Text.mem_intercalate hmem
    · exact absurd hsep (by decide)
    · obtain ⟨x, hx, rfl⟩ := List.mem_map.1 hpiece
      exact (h x hx).noParenthesis hmem
  have hword : ∀ x ∈ xs, String.ofList (lastPiece ' ' (piece x).toList) = name x := by
    intro x hx
    rw [(h x hx).lastWord, String.ofList_toList]
  rw [namesRead, inParentheses_eq before hopen]
  cases xs with
  | nil => rfl
  | cons x xs =>
    have hcomma : ∀ y ∈ (x :: xs).map piece, ',' ∉ y.toList :=
      List.forall_mem_map.2 fun y hy => (h y hy).noComma
    have hne := toList_joined_ne_nil (h x List.mem_cons_self).ne_empty (xs.map piece)
    rw [List.map_cons, if_neg hne, splitChars_joined hcomma, List.map_cons, List.map_map, List.map_map,
      List.map_cons, hword x List.mem_cons_self]
    congr 1
    refine List.map_congr_left ?_
    intro y hy
    show String.ofList (lastPiece ' ' (' ' :: (piece y).toList)) = name y
    rw [lastPiece_cons_sep, hword y (List.mem_cons_of_mem _ hy)]

/-! ### Heads and calls -/

theorem namesRead_head (before : String) (h : ∀ p ∈ ps, p.Plain) :
    namesRead (before ++ "(" ++ ", ".intercalate (namedParameters ps) ++ ")") = parameterNames ps := by
  rw [namedParameters_eq, parameterNames, parameterNamesFrom_eq]
  refine namesRead_joined before ?_
  intro x hx
  have hplain := h x.1 (List.fst_mem_of_mem_zipIdx hx)
  exact (hplain.oneWord x.2).shows_typed hplain.type

theorem namesRead_call (before : String) (h : ∀ p ∈ ps, p.Plain) :
    namesRead (before ++ "(" ++ ", ".intercalate (parameterNames ps) ++ ")") = parameterNames ps := by
  rw [parameterNames, parameterNamesFrom_eq]
  refine namesRead_joined before ?_
  intro x hx
  exact ((h x.1 (List.fst_mem_of_mem_zipIdx hx)).oneWord x.2).shows_self

/-- The names of parameters in the head of a function. -/
structure Heads (ps : List Parameter) (names : List String) (before head : String) : Prop where
  /-- A parameter has the name that it was given, or else the name by its position. -/
  getElem?_names : ∀ i : ℕ, names[i]? = ps[i]?.map fun p => p.name.getD (placeName i)
  /-- Each name stands behind the type of its parameter. -/
  head_eq : head =
    before ++ "(" ++ ", ".intercalate
      (List.zipWith (fun (p : Parameter) n => p.type ++ " " ++ n) ps names) ++ ")"
  /-- The names can be read there. -/
  namesRead_eq : (∀ p ∈ ps, p.Plain) → namesRead head = names

theorem heads_signature (result : Option String) (name : String) (ps : List Parameter) :
    Heads ps (parameterNames ps) (resultName result ++ " " ++ name) (signature result name ps true) where
  getElem?_names := getElem?_parameterNames ps
  head_eq := rfl
  namesRead_eq := namesRead_head _

/-- **When the names of parameters are distinct.**  In the head of every forwarding function and of
every handler, each parameter stands with the name that it was given or gets by its position, and the
forwarding call passes these names in the same order.  No two of them are equal if and only if no two
were given equal and none that was given is the name by position of a parameter without one. -/
theorem parameters_distinct_iff (w : MethodWrapper) (e : Event) (name target handler : String) :
    (∃ names, Heads w.parameters names (resultName w.result ++ " " ++ name) (w.head name) ∧
      w.call target = target ++ "(" ++ ", ".intercalate names ++ ")" ∧
      ((∀ p ∈ w.parameters, p.Plain) → namesRead (w.call target) = names) ∧
      (names.Nodup ↔ (givenNames w.parameters).Nodup ∧ ¬ Forestalled w.parameters)) ∧
    ∃ names, Heads e.parameters names (resultName e.result ++ " " ++ handler)
        (e.handlerHead handler true) ∧
      (names.Nodup ↔ (givenNames e.parameters).Nodup ∧ ¬ Forestalled e.parameters) := by
  constructor
  · exact ⟨parameterNames w.parameters, heads_signature w.result name w.parameters, rfl,
      namesRead_call target, nodup_parameterNames_iff w.parameters⟩
  · exact ⟨parameterNames e.parameters, heads_signature e.result handler e.parameters,
      nodup_parameterNames_iff e.parameters⟩

/-- A method with the given parameters that is forwarded to. -/
def readMethod (ps : List Parameter) : MethodWrapper where
  method := "read"
  parameters := ps
  result := some "int"

/-- An event with the given parameters. -/
def changedEvent (ps : List Parameter) : Event where
  name := "Changed"
  parameters := ps
  binding := some ⟨.method, "notify"⟩

/-- Parameters of which one was given a name that another would get by its position if it had none. -/
def channelParameters : List Parameter :=
  [⟨"byte", some "channel"⟩, ⟨"unsigned long", none⟩, ⟨"int", some "arg0"⟩]

theorem parameters_distinct_channel :
    (∀ p ∈ channelParameters, p.Plain) ∧
      ∃ names names' : List String,
        namesRead ((readMethod channelParameters).head "f") = names ∧
        namesRead ((readMethod channelParameters).call "c.read") = names ∧ names.Nodup ∧
        namesRead ((changedEvent channelParameters).handlerHead "g" true) = names' ∧ names'.Nodup := by
  have hplain : ∀ p ∈ channelParameters, p.Plain := by decide +kernel
  have hdistinct : (givenNames channelParameters).Nodup ∧ ¬ Forestalled channelParameters := by
    decide +kernel
  obtain ⟨⟨names, hhead, -, hcall, hnodup⟩, names', hhead', hnodup'⟩ :=
    parameters_distinct_iff (readMethod channelParameters) (changedEvent channelParameters) "f" "c.read"
      "g"
  exact ⟨hplain, names, names', hhead.namesRead_eq hplain, hcall hplain, hnodup.2 hdistinct,
    hhead'.namesRead_eq hplain, hnodup'.2 hdistinct⟩

/-- Parameters of which the first was given the name that the second gets by its position. -/
def forestallingParameters : List Parameter :=
  [⟨"int", some "arg1"⟩, ⟨"bool", none⟩]

/-- A name that was given once stands in the heads twice, and the call passes it twice. -/
theorem forestalled_name_repeated :
    ComponentType.check
        { controller := some { classType := "Sensor" }
          events := [changedEvent forestallingParameters]
          methodWrappers := [readMethod forestallingParameters] } = .ok () ∧
      (givenNames forestallingParameters).Nodup ∧
      (readMethod forestallingParameters).head "f" = "int f(int arg1, bool arg1)" ∧
      (readMethod forestallingParameters).call "c.read" = "c.read(arg1, arg1)" ∧
      (changedEvent forestallingParameters).handlerHead "g" true = "void g(int arg1, bool arg1)" ∧
      ¬ (namesRead ((readMethod forestallingParameters).head "f")).Nodup := by
  decide +kernel

end Boardwright
