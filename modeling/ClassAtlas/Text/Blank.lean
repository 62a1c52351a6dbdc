/-!
# Blank characters

The characters with the `White_Space` property separate words and are cut from
both ends of a type name. The narrower class of layout characters, space, tab
and the two line ends, is the only one a written signature may contain.
-/

namespace ClassAtlas.Text

/-- Characters with the `White_Space` property. -/
def isBlank (c : Char) : Bool :=
  let n := c.toNat
  (9 ≤ n && n ≤ 13) || n = 0x20 || n = 0x85 || n = 0xA0 || n = 0x1680
    || (0x2000 ≤ n && n ≤ 0x200A) || n = 0x2028 || n = 0x2029 || n = 0x202F
    || n = 0x205F || n = 0x3000

/-- Space, tab, carriage return and line feed. -/
def isLayout (c : Char) : Bool :=
  c = ' ' || c = '\t' || c = '\r' || c = '\n'

/-- A text without the blanks at both of its ends. -/
def trimBlanks (text : List Char) : List Char :=
  ((text.dropWhile isBlank).reverse.dropWhile isBlank).reverse

/-- A string without the blanks at both of its ends. -/
def trim (text : String) : String :=
  String.ofList (trimBlanks text.toList)

/-- The first maximal run of non-blank characters, if there is one. -/
def firstWord? (text : List Char) : Option (List Char) :=
  match (text.dropWhile isBlank).takeWhile (!isBlank ·) with
  | [] => none
  | word => some word

end ClassAtlas.Text
