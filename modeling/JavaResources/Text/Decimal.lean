/-!
# Decimal text of integers

An integer is written with the fewest digits, after a minus sign when it is negative.
-/

namespace JavaResources.Text

/-- The decimal text of an integer. -/
def decimal (value : Int) : List Char :=
  if value < 0 then '-' :: Nat.toDigits 10 value.natAbs else Nat.toDigits 10 value.natAbs

end JavaResources.Text
