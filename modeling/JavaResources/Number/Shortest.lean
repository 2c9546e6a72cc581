import JavaResources.Number.Binary64

/-!
# The shortest decimal of a floating-point number

Many decimals are nearest to the same binary64 number. `Binary64.shortest` finds one with the fewest
digits and, of those, the one closest to the number; the larger of two that are equally close.
`Binary64.text` writes it without an exponent and with at least one digit behind the point.
-/

namespace JavaResources.Binary64

/-- The decimals that round to a positive number: the number itself and half the distance to its
lower and its upper neighbour, over a common denominator, and whether the ends of that range round
to it too. -/
structure Range where
  value : Nat
  below : Nat
  above : Nat
  unit : Nat
  closed : Bool

/-- The range of decimals of `mantissa * 2 ^ exponent`. Below a power of two the neighbour is only
half as far away as above it. -/
def Range.ofFinite (mantissa : Nat) (exponent : Int) : Range :=
  let (scale, unit) := scaleFraction 1 4 exponent
  { value := 4 * mantissa * scale
    below := if mantissa = Nat.pow 2 52 ∧ minExponent < exponent then scale else 2 * scale
    above := 2 * scale
    unit
    closed := mantissa % 2 == 0 }

/-- Whether a fraction lies in the range. -/
def Range.contains (range : Range) (numerator denominator : Nat) : Bool :=
  let point := numerator * range.unit
  let low := (range.value - range.below) * denominator
  let high := (range.value + range.above) * denominator
  if range.closed then low ≤ point && point ≤ high else low < point && point < high

/-- The exponent of the first digit's place: the least with the number below that power of ten. -/
def Range.magnitude (range : Range) : Int :=
  if range.unit ≤ range.value then digitCount (range.value / range.unit)
  else 1 - (digitCount ((range.unit - 1) / range.value) : Int)

/-- A power of ten as a fraction. -/
def tenth (exponent : Int) : Nat × Nat :=
  if 0 ≤ exponent then (Nat.pow 10 exponent.toNat, 1) else (1, Nat.pow 10 (-exponent).toNat)

/-- The decimal on the grid of `10 ^ exponent` that is closest to the number and lies in its range.
-/
def Range.onGrid? (range : Range) (exponent : Int) : Option Nat :=
  let (up, down) := tenth exponent
  let low := range.value * down / (range.unit * up)
  let holds (digits : Nat) : Bool := range.contains (digits * up) down
  let distanceLow := range.value * down - low * up * range.unit
  let distanceHigh := (low + 1) * up * range.unit - range.value * down
  match holds low, holds (low + 1) with
  | false, false => none
  | true, false => some low
  | false, true => some (low + 1)
  | true, true => if distanceLow < distanceHigh then some low else some (low + 1)

/-- The first of the grids from `count` digits on that has a decimal in the range. Seventeen digits
are always enough. -/
def Range.search (range : Range) (magnitude : Int) : Nat → Nat → Nat × Int
  | 0, _ => (range.value, 0)
  | tries + 1, count =>
    match range.onGrid? (magnitude - count) with
    | some digits => (digits, magnitude - count)
    | none => search range magnitude tries (count + 1)

/-- The shortest decimal of a positive number, as digits and the exponent of the last one. -/
def shortest (mantissa : Nat) (exponent : Int) : Nat × Int :=
  let range := Range.ofFinite mantissa exponent
  range.search range.magnitude 17 1

/-- The digits of a decimal with a point at its place, and a zero where no digit stands on a side.
-/
def positional (digits : Nat) (exponent : Int) : List Char :=
  let figures := Nat.toDigits 10 digits
  if 0 ≤ exponent then figures ++ List.replicate exponent.toNat '0' ++ ['.', '0']
  else
    let places := (-exponent).toNat
    let padded := List.replicate (places + 1 - figures.length) '0' ++ figures
    let whole := padded.take (padded.length - places)
    let rest := (padded.drop (padded.length - places)).reverse.dropWhile (· == '0')
    whole ++ '.' :: (if rest.isEmpty then ['0'] else rest.reverse)

/-- The text of a number. -/
def text : Binary64 → List Char
  | .nan => ['N', 'a', 'N']
  | .infinite negative => (if negative then ['-'] else []) ++ ['i', 'n', 'f']
  | .finite negative mantissa exponent =>
    (if negative then ['-'] else [])
      ++ if mantissa = 0 then ['0', '.', '0']
        else
          let (digits, place) := shortest mantissa exponent
          positional digits place

end JavaResources.Binary64
