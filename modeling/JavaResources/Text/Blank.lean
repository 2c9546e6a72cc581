/-!
# White space around text

A character is blank when it has the property `White_Space` of the Unicode standard, which 25
characters have. `trim` removes the blanks at both ends of a text.
-/

namespace JavaResources.Text

/-- The character is white space: the ASCII controls from tab to carriage return, the space, the
next line and no-break space controls, and the separators of the punctuation and ideographic blocks.
-/
def isBlank (c : Char) : Bool :=
  let code := c.toNat
  (9 ≤ code && code ≤ 13) || code == 0x20 || code == 0x85 || code == 0xA0 || code == 0x1680
    || (0x2000 ≤ code && code ≤ 0x200A) || code == 0x2028 || code == 0x2029 || code == 0x202F
    || code == 0x205F || code == 0x3000

/-- A text without the blanks at its start. -/
def trimLeft (text : List Char) : List Char :=
  text.dropWhile isBlank

/-- A text without the blanks at its end. -/
def trimRight (text : List Char) : List Char :=
  (text.reverse.dropWhile isBlank).reverse

/-- A text without the blanks at its two ends. -/
def trim (text : List Char) : List Char :=
  trimRight (trimLeft text)

/-- Nothing is removed in front of a character that is not blank. -/
theorem trimLeft_cons {c : Char} (hc : isBlank c = false) (rest : List Char) :
    trimLeft (c :: rest) = c :: rest :=
  List.dropWhile_cons_of_neg (by simp [hc])

end JavaResources.Text
