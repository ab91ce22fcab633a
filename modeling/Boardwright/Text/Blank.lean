/-!
# Blank characters and trimming

Names, types and values are compared after the blanks around them are removed.  A character is blank
when it has the Unicode property `White_Space`; the zero width space and the byte order mark do not
have it and stay.

* **`isBlank`**: the property, as its 25 code points.
* **`trimChars`**, **`trim`**: a text without the blanks at its two ends.
* **`asciiLower`**: lower case of the ASCII letters, everything else unchanged.
-/

namespace Boardwright.Text

/-- The characters with the Unicode property `White_Space`. -/
def isBlank (c : Char) : Bool :=
  let n := c.toNat
  (0x09 ≤ n && n ≤ 0x0d) || n == 0x20 || n == 0x85 || n == 0xa0 || n == 0x1680
    || (0x2000 ≤ n && n ≤ 0x200a) || n == 0x2028 || n == 0x2029 || n == 0x202f || n == 0x205f
    || n == 0x3000

/-- A text without the blanks it starts with. -/
def trimStart (cs : List Char) : List Char :=
  cs.dropWhile isBlank

/-- A text without the blanks it ends with. -/
def trimEnd (cs : List Char) : List Char :=
  (cs.reverse.dropWhile isBlank).reverse

/-- A text without the blanks at its two ends. -/
def trimChars (cs : List Char) : List Char :=
  trimEnd (trimStart cs)

/-- A text without the blanks at its two ends. -/
def trim (s : String) : String :=
  String.ofList (trimChars s.toList)

/-- Whether nothing is left of a text after trimming. -/
def isBlankText (s : String) : Bool :=
  s.toList.all isBlank

/-- The trimmed text, unless nothing is left of it. -/
def nonBlank? (s : String) : Option String :=
  let t := trim s
  if t.isEmpty then none else some t

/-- Lower case of the ASCII letters; no other character changes. -/
def asciiLower (s : String) : String :=
  String.ofList (s.toList.map Char.toLower)

end Boardwright.Text
