import Boardwright.Generation.LooperTable
import Boardwright.Proofs.Templates

/-!
# The text of the looper table

The section of the loopers is a filled template.  Here it is read back as data: the rows of the table,
the functions that they refer to, and how many there are.

* **`TableRow`**, **`LooperFunction`**: a row and a function, with their texts.
* **`tableRows`**, **`looperFunctions`**: the rows and the functions of a list of loopers.
* **`exists_looperSection`**: the lines of the section that depend on the loopers.
* **`ShowsLoopers`**: a text in which a number, rows and functions stand in their places.
* **`showsLoopers_looperSection`**: the section is such a text.
-/

namespace Boardwright.Generation

open StoredTemplate

/-! ### Rows and functions -/

/-- A row of the looper table. -/
structure TableRow where
  /-- The time before the first call. -/
  delay : Int
  /-- The name of the function that is called. -/
  handler : String
  deriving DecidableEq, Repr

def TableRow.text (row : TableRow) : String :=
  "\x7b" ++ toString row.delay ++ ", ENABLED, " ++ row.handler ++ "\x7d"

/-- A function that calls the method of a looper. -/
structure LooperFunction where
  /-- Its name. -/
  name : String
  /-- The object that is called. -/
  object : String
  /-- The method that is called. -/
  method : String
  /-- The number that is returned; without it, the result of the call is returned. -/
  returns : Option Int
  deriving DecidableEq, Repr

def LooperFunction.lines (f : LooperFunction) : List String :=
  let call := f.object ++ "." ++ f.method ++ "()"
  let body :=
    match f.returns with
    | some ms => [call ++ ";", "return " ++ toString ms ++ ";"]
    | none => ["return " ++ call ++ ";"]
  ["unsigned long " ++ f.name ++ "() \x7b"] ++ body.map (Template.indent ++ ·) ++ ["\x7d"]

/-- The rows of loopers, from number `i` on. -/
def tableRows (i : ℕ) (records : List LooperRecord) : List TableRow :=
  (records.zipIdx i).map fun r => ⟨r.1.initialDelay, handlerName r.2⟩

/-- The functions of loopers, from number `i` on. -/
def looperFunctions (i : ℕ) (records : List LooperRecord) : List LooperFunction :=
  (records.zipIdx i).map fun r => ⟨handlerName r.2, r.1.controller, r.1.method, r.1.interval⟩

theorem length_tableRows (i : ℕ) (records : List LooperRecord) :
    (tableRows i records).length = records.length := by
  rw [tableRows, List.length_map, List.length_zipIdx]

theorem length_looperFunctions (i : ℕ) (records : List LooperRecord) :
    (looperFunctions i records).length = records.length := by
  rw [looperFunctions, List.length_map, List.length_zipIdx]

theorem getElem?_tableRows (i k : ℕ) (records : List LooperRecord) :
    (tableRows i records)[k]? = records[k]?.map fun r => ⟨r.initialDelay, handlerName (i + k)⟩ := by
  rw [tableRows, List.getElem?_map, List.getElem?_zipIdx, Option.map_map]
  rfl

theorem getElem?_looperFunctions (i k : ℕ) (records : List LooperRecord) :
    (looperFunctions i records)[k]? =
      records[k]?.map fun r => ⟨handlerName (i + k), r.controller, r.method, r.interval⟩ := by
  rw [looperFunctions, List.getElem?_map, List.getElem?_zipIdx, Option.map_map]
  rfl

/-! ### Their texts -/

/-- The text of rows: a comma and a line feed between two of them. -/
def rowsText (rows : List TableRow) : String :=
  ",\n".intercalate (rows.map fun row => Template.indent ++ row.text)

/-- The text of functions: an empty line between two of them. -/
def functionsText (functions : List LooperFunction) : String :=
  "\n\n".intercalate (functions.map fun f => "\n".intercalate f.lines)

theorem rowsText_cons (row next : TableRow) (rows : List TableRow) :
    rowsText (row :: next :: rows) = Template.indent ++ row.text ++ ",\n" ++ rowsText (next :: rows) :=
  String.intercalate_cons_cons

theorem functionsText_cons (f next : LooperFunction) (functions : List LooperFunction) :
    functionsText (f :: next :: functions) =
      "\n".intercalate f.lines ++ "\n\n" ++ functionsText (next :: functions) :=
  String.intercalate_cons_cons

theorem mergeLines_rowsFrom (i : ℕ) (records : List LooperRecord) :
    Text.mergeLines (rowsFrom i records) Template.indent = rowsText (tableRows i records) := by
  induction records generalizing i with
  | nil => rfl
  | cons r rest ih =>
    cases rest with
    | nil => rfl
    | cons next rest =>
      have hcomma : ",\n" = "," ++ "\n" := rfl
      have hne : rowsFrom (i + 1) (next :: rest) ≠ [] := List.cons_ne_nil _ _
      have hrow : rowsFrom i (r :: next :: rest) =
          ((⟨r.initialDelay, handlerName i⟩ : TableRow).text ++ ",") :: rowsFrom (i + 1) (next :: rest) := rfl
      have hrows : rowsText (tableRows i (r :: next :: rest)) =
          Template.indent ++ (⟨r.initialDelay, handlerName i⟩ : TableRow).text ++ ",\n" ++
            rowsText (tableRows (i + 1) (next :: rest)) := rowsText_cons _ _ _
      rw [hrow, Text.mergeLines_cons _ _ hne, ih, hrows, hcomma]
      simp only [String.append_assoc]

theorem handlerLines_eq (i : ℕ) (r : LooperRecord) :
    handlerLines i r = (⟨handlerName i, r.controller, r.method, r.interval⟩ : LooperFunction).lines := by
  unfold handlerLines LooperFunction.lines
  cases r.interval with
  | none => simp [String.append_assoc]
  | some ms => simp [String.append_assoc]

theorem handlerLines_ne_nil (i : ℕ) (r : LooperRecord) : handlerLines i r ≠ [] := by
  rw [handlerLines_eq]
  exact List.cons_ne_nil _ _

theorem handlersFrom_ne_nil (i : ℕ) (r : LooperRecord) (rest : List LooperRecord) :
    handlersFrom i (r :: rest) ≠ [] := by
  cases rest with
  | nil => exact handlerLines_ne_nil i r
  | cons next rest => exact List.append_ne_nil_of_left_ne_nil (handlerLines_ne_nil i r) _

theorem mergeLines_handlersFrom (i : ℕ) (records : List LooperRecord) :
    Text.mergeLines (handlersFrom i records) "" = functionsText (looperFunctions i records) := by
  induction records generalizing i with
  | nil => rfl
  | cons r rest ih =>
    cases rest with
    | nil =>
      rw [handlersFrom, handlerLines_eq, Text.mergeLines_empty]
      rfl
    | cons next rest =>
      have hfeeds : "\n\n" = "\n" ++ "\n" := rfl
      have hsplit : handlersFrom i (r :: next :: rest) =
          handlerLines i r ++ "" :: handlersFrom (i + 1) (next :: rest) := rfl
      have hfunctions : functionsText (looperFunctions i (r :: next :: rest)) =
          "\n".intercalate (handlerLines i r) ++ "\n\n" ++
            functionsText (looperFunctions (i + 1) (next :: rest)) := by
        rw [handlerLines_eq]
        exact functionsText_cons _ _ _
      rw [hsplit, Text.mergeLines_append (handlerLines_ne_nil i r) (List.cons_ne_nil _ _),
        Text.mergeLines_cons _ _ (handlersFrom_ne_nil _ _ _), ih, hfunctions, Text.mergeLines_empty, hfeeds]
      simp only [String.append_assoc, String.empty_append]

/-! ### The section -/

/-- A section with a number, rows and functions in their places.  Without loopers there is no section.
-/
inductive ShowsLoopers : ℕ → List TableRow → List LooperFunction → String → Prop where
  | none : ShowsLoopers 0 [] [] ""
  | some {count : ℕ} {rows : List TableRow} {functions : List LooperFunction}
      (lead between trail : List String) :
      0 < count →
      ShowsLoopers count rows functions (ended "\r\n"
        (lead ++ ["// Generated looper handlers", functionsText functions, "// End of looper handlers"] ++
          between ++ ["#define LOOPERS_COUNT " ++ toString count,
            "Looper loopers[LOOPERS_COUNT] = \x7b " ++ rowsText rows ++ " \x7d;"] ++ trail))

/-- The text of an array that lists loopers by their numbers. -/
def queueText (order : List ℕ) : String :=
  "\x7b" ++ ", ".intercalate (order.map fun i => "loopers + " ++ toString i) ++ "\x7d"

/-- The parts of the section that depend on the loopers. -/
theorem exists_looperSection {records : List LooperRecord} (hne : records ≠ []) (ns : String) :
    ∃ lead between trail, looperSection records ns = ended "\r\n"
      (lead ++ ["// Generated looper handlers", functionsText (looperFunctions 0 records),
          "// End of looper handlers"] ++
        between ++ ["#define LOOPERS_COUNT " ++ toString records.length,
          "Looper loopers[LOOPERS_COUNT] = \x7b " ++ Text.mergeLines (rowsFrom 0 records) Template.indent ++
            " \x7d;"] ++
        ("Looper* pq[LOOPERS_COUNT] = " ++ queueText (byDelay records) ++ ";") :: trail) := by
  have hlines : looperTableLines = looperTableLines.take 16 ++
      ["// Generated looper handlers", "$" ++ "looperHandlers", "// End of looper handlers"] ++
      (looperTableLines.drop 19).take 7 ++ ["#define LOOPERS_COUNT " ++ "$" ++ "numberOfLoopers",
        "Looper loopers[LOOPERS_COUNT] = \x7b " ++ "$" ++ "loopersInit" ++ " \x7d;"] ++
      ("Looper* pq[LOOPERS_COUNT] = " ++ "$" ++ "pqInit" ++ ";") :: looperTableLines.drop 29 := rfl
  have hfunctions : (looperReplacements records ns).get? "looperHandlers" =
      some (functionsText (looperFunctions 0 records)) := by
    rw [← mergeLines_handlersFrom]
    simp [looperReplacements, Dict.ofList, Dict.get?_insert]
  have hcount : (looperReplacements records ns).get? "numberOfLoopers" = some (toString records.length) := by
    simp [looperReplacements, Dict.ofList, Dict.get?_insert]
  have hrows : (looperReplacements records ns).get? "loopersInit" =
      some (Text.mergeLines (rowsFrom 0 records) Template.indent) := by
    simp [looperReplacements, Dict.ofList, Dict.get?_insert]
  have hqueue : (looperReplacements records ns).get? "pqInit" = some (queueText (byDelay records)) := by
    simp [looperReplacements, Dict.ofList, queueText]
  rw [looperSection, if_neg (by simpa using hne), StoredTemplate.text,
    Template.fill_ended (by decide) (by decide), hlines]
  simp only [List.map_append, List.map_cons, List.map_nil]
  rw [Template.fill_name (by decide) hfunctions, Template.fill_placeholder (by decide) (by decide) hcount,
    Template.fill_placeholder_append (by decide) (by decide) hrows (by decide) (by decide),
    Template.fill_placeholder_append (by decide) (by decide) hqueue (by decide) (by decide),
    Template.fill_of_not_mem (by decide), Template.fill_of_not_mem (by decide)]
  exact ⟨_, _, _, rfl⟩

theorem showsLoopers_looperSection (records : List LooperRecord) (ns : String) :
    ShowsLoopers records.length (tableRows 0 records) (looperFunctions 0 records)
      (looperSection records ns) := by
  by_cases hne : records = []
  · rw [hne]
    exact .none
  · obtain ⟨lead, between, trail, hsection⟩ := exists_looperSection hne ns
    rw [hsection, mergeLines_rowsFrom]
    exact .some lead between _ (List.length_pos_iff.2 hne)

end Boardwright.Generation
