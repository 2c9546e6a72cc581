/-!
# Binary floating-point numbers

A finite number of the binary64 format is a whole mantissa below `2 ^ 53` times a power of two.
`Binary64.ofDecimal?` rounds a decimal to the nearest such number and, of two that are equally near,
to the one with the even mantissa. A decimal too large for the format has no number.
-/

namespace JavaResources

/-- A binary64 number. A finite one is `mantissa * 2 ^ exponent`, negated if `negative`. -/
inductive Binary64 where
  | nan
  | infinite (negative : Bool)
  | finite (negative : Bool) (mantissa : Nat) (exponent : Int)
  deriving DecidableEq, Repr

namespace Binary64

/-- The least exponent of a finite number. -/
def minExponent : Int := -1074

/-- The greatest exponent of a finite number. -/
def maxExponent : Int := 971

/-- A fraction rounded to the nearest whole number, and from the middle to the even one. -/
def roundHalfEven (numerator denominator : Nat) : Nat :=
  let quotient := numerator / denominator
  let remainder := numerator % denominator
  if 2 * remainder < denominator then quotient
  else if denominator < 2 * remainder then quotient + 1
  else quotient + quotient % 2

/-- Multiply a fraction by a power of two. -/
def scaleFraction (numerator denominator : Nat) (exponent : Int) : Nat × Nat :=
  if 0 ≤ exponent then (numerator * Nat.pow 2 exponent.toNat, denominator)
  else (numerator, denominator * Nat.pow 2 (-exponent).toNat)

/-- The exponent at which the mantissa of a fraction has 53 bits, or the least exponent if that is
greater. -/
def exponentOf (numerator denominator : Nat) : Int :=
  let guess : Int := (numerator.log2 : Int) - denominator.log2 - 52
  let (scaled, unit) := scaleFraction numerator denominator (-guess)
  max minExponent (if scaled / unit < Nat.pow 2 52 then guess - 1 else guess)

/-- The number nearest to a positive fraction, unless it is too large. -/
def ofFraction? (negative : Bool) (numerator denominator : Nat) : Option Binary64 :=
  let exponent := exponentOf numerator denominator
  let (scaled, unit) := scaleFraction numerator denominator (-exponent)
  let mantissa := roundHalfEven scaled unit
  let (mantissa, exponent) :=
    if mantissa = Nat.pow 2 53 then (Nat.pow 2 52, exponent + 1) else (mantissa, exponent)
  if maxExponent < exponent then none else some (.finite negative mantissa exponent)

/-- The number of decimal digits of a positive number. -/
def digitCount (value : Nat) : Nat :=
  (Nat.toDigits 10 value).length

/-- The number nearest to `digits * 10 ^ exponent`, unless it is too large. Decimals far outside the
range of the format are told by the place of their first digit alone. -/
def ofDecimal? (negative : Bool) (digits : Nat) (exponent : Int) : Option Binary64 :=
  if digits = 0 then some (.finite negative 0 minExponent)
  else
    let place := exponent + digitCount digits
    if 310 < place then none
    else if place < -330 then some (.finite negative 0 minExponent)
    else if 0 ≤ exponent then ofFraction? negative (digits * Nat.pow 10 exponent.toNat) 1
    else ofFraction? negative digits (Nat.pow 10 (-exponent).toNat)

end Binary64

end JavaResources
