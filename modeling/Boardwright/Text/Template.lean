import Boardwright.Dict

/-!
# Templates

A template is a text with placeholders: a dollar sign and the longest run of ASCII letters, digits
and underscores after it.  Filling a template puts the replacement of its name in the place of each
placeholder, or nothing when there is none.  Replacements are not scanned again.

* **`isNameChar`**: the characters of a placeholder's name.
* **`fillChars`**: filling, over an arbitrary look-up.
* **`fill`**: filling from a dictionary.
-/

namespace Boardwright.Template

/-- The characters of a placeholder's name. -/
def isNameChar (c : Char) : Bool :=
  c.isAlphanum || c == '_'

/-- Dropping the leading name never makes a text longer. -/
theorem length_dropWhile_le (p : Char → Bool) (cs : List Char) :
    (cs.dropWhile p).length ≤ cs.length :=
  (List.dropWhile_sublist p).length_le

/-- Fills a template; `look` gives the text that takes the place of a name. -/
def fillChars (look : List Char → List Char) : List Char → List Char
  | [] => []
  | c :: cs =>
    if c = '$' then look (cs.takeWhile isNameChar) ++ fillChars look (cs.dropWhile isNameChar)
    else c :: fillChars look cs
termination_by cs => cs.length
decreasing_by
  · have := length_dropWhile_le isNameChar cs
    simp only [List.length_cons]
    omega
  · simp

/-- The texts that take the place of placeholders. -/
abbrev Replacements := Dict String

/-- The replacement of a name, or nothing. -/
def lookUp (replacements : Replacements) (name : List Char) : List Char :=
  match replacements.get? (String.ofList name) with
  | some text => text.toList
  | none => []

/-- Fills a template. -/
def fill (template : String) (replacements : Replacements) : String :=
  String.ofList (fillChars (lookUp replacements) template.toList)

/-- The indentation of nested lines. -/
def indent : String := "  "

end Boardwright.Template
