/-!
# Hexadecimal text of fixed width

`hex width n` writes the last `width` hexadecimal digits of a number in lower case, with leading
zeros, so that its text is always `width` characters long.
-/

namespace JavaResources.Text

/-- A number below sixteen as a hexadecimal digit in lower case. -/
def hexDigit (value : Nat) : Char :=
  Nat.digitChar value

/-- The last `width` hexadecimal digits of a number, most significant first. -/
def hex : Nat → Nat → List Char
  | 0, _ => []
  | width + 1, value => hex width (value / 16) ++ [hexDigit (value % 16)]

@[simp]
theorem length_hex (width value : Nat) : (hex width value).length = width := by
  induction width generalizing value with
  | zero => rfl
  | succ width ih => simp [hex, ih]

end JavaResources.Text
