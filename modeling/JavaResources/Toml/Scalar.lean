import JavaResources.Number.Binary64
import JavaResources.Text.Lines

/-!
# Bare values

A value that is not quoted and has no brackets is a boolean, an integer, a floating-point number, or
a date or time. `Scalar.ofText?` decides which one a bare text is; no text is of two of these kinds.
`Scalar.hasForm` asks for less: it lets numbers pass that are too large for 64 bits, and integers
whose digits are missing or are not all digits of their base. Main statement: every text of a bare
value has the form of one.
-/

namespace JavaResources.Toml

/-- A bare value. Dates and times are told from other values, and carry nothing further. -/
inductive Scalar where
  | boolean (value : Bool)
  | integer (value : Int)
  | float (value : Binary64)
  | dateTime
  deriving DecidableEq, Repr

namespace Scalar

/-- The value of a digit. -/
def digit (c : Char) : Nat :=
  if c ≤ '9' then c.toNat - '0'.toNat
  else if c ≤ 'F' then c.toNat - 'A'.toNat + 10
  else c.toNat - 'a'.toNat + 10

/-- A decimal digit. -/
def isDecimal (c : Char) : Bool :=
  '0' ≤ c && c ≤ '9'

/-- A hexadecimal digit. -/
def isHexadecimal (c : Char) : Bool :=
  isDecimal c || ('a' ≤ c && c ≤ 'f') || ('A' ≤ c && c ≤ 'F')

/-- An octal digit. -/
def isOctal (c : Char) : Bool :=
  '0' ≤ c && c ≤ '7'

/-- A binary digit. -/
def isBinary (c : Char) : Bool :=
  c == '0' || c == '1'

/-- Digits without the underscores in them, each of which stands between two digits. -/
def digits? (isDigit : Char → Bool) : List Char → Option (List Char)
  | [] => none
  | [c] => if isDigit c then some [c] else none
  | c :: '_' :: rest => if isDigit c then (digits? isDigit rest).map (c :: ·) else none
  | c :: rest => if isDigit c then (digits? isDigit rest).map (c :: ·) else none

/-- The number that digits stand for. -/
def number (base : Nat) (digits : List Char) : Nat :=
  digits.foldl (fun value c => value * base + digit c) 0

/-- Decimal digits of which the first is not zero, unless it is the only one. -/
def plainDigits? (text : List Char) : Option (List Char) :=
  match digits? isDecimal text with
  | some ('0' :: _ :: _) => none
  | digits => digits

/-- A sign at the front of a text: whether it is a minus, and what is left. -/
def sign : List Char → Bool × List Char
  | '-' :: rest => (true, rest)
  | '+' :: rest => (false, rest)
  | text => (false, text)

/-- An integer that fits into 64 bits. -/
def inRange (value : Int) : Option Scalar :=
  if Int64.minValue.toInt ≤ value ∧ value ≤ Int64.maxValue.toInt then some (.integer value)
  else none

/-- An integer: decimal with an optional sign, or in another base behind a mark for it. -/
def integer? : List Char → Option Scalar
  | '0' :: 'x' :: rest => (digits? isHexadecimal rest).bind fun digits => inRange (number 16 digits)
  | '0' :: 'o' :: rest => (digits? isOctal rest).bind fun digits => inRange (number 8 digits)
  | '0' :: 'b' :: rest => (digits? isBinary rest).bind fun digits => inRange (number 2 digits)
  | text =>
    let (negative, rest) := sign text
    (plainDigits? rest).bind fun digits =>
      let value : Int := number 10 digits
      inRange (if negative then -value else value)

/-- Text cut in two before the first character of a kind. -/
def cut (test : Char → Bool) (text : List Char) : List Char × List Char :=
  (text.takeWhile (!test ·), text.dropWhile (!test ·))

/-- A decimal integer in groups with underscores between them. Every underscore stands between two
digits, but the later groups are looked at no further, and there the digits next to an underscore
may be hexadecimal. So a text such as `1_f0` has the form of an integer, and no value. -/
def isGrouped (text : List Char) : Bool :=
  match Text.pieces '_' text with
  | [] => false
  | first :: others =>
    first.all isDecimal && first.head?.any (· != '0') &&
      others.all (·.head?.any isHexadecimal) &&
      others.dropLast.all (·.getLast?.any isHexadecimal) &&
      !text.any fun c => c == ' ' || c == '.' || c == 'e' || c == 'E'

/-- The text has the form of an integer. Behind the mark of a base the digits may be missing. -/
def isInteger : List Char → Bool
  | '0' :: 'x' :: rest => rest == [] || (digits? isHexadecimal rest).isSome
  | '0' :: 'o' :: rest => rest == [] || (digits? isOctal rest).isSome
  | '0' :: 'b' :: rest => rest == [] || (digits? isBinary rest).isSome
  | text =>
    let (_, rest) := sign text
    (plainDigits? rest).isSome || isGrouped rest

/-- The digits behind the point, of which there are none without a point. -/
def fraction? : List Char → Option (List Char)
  | [] => some []
  | '.' :: rest => digits? isDecimal rest
  | _ => none

/-- The power of ten of a number, which is zero without a mark for it. -/
def exponent? : List Char → Option Int
  | [] => some 0
  | _ :: rest =>
    let (negative, digits) := sign rest
    (digits? isDecimal digits).map fun digits =>
      let value : Int := number 10 digits
      if negative then -value else value

/-- A decimal with a point, an exponent, or both: whether it is negated, its digits as one number,
and the power of ten that they are multiplied by. -/
def decimal? (text : List Char) : Option (Bool × Nat × Int) :=
  let (negative, rest) := sign text
  let (decimal, power) := cut (fun c => c == 'e' || c == 'E') rest
  let (whole, part) := cut (· == '.') decimal
  if power = [] ∧ part = [] then none
  else
    match plainDigits? whole, fraction? part, exponent? power with
    | some whole, some places, some exponent =>
      some (negative, number 10 (whole ++ places), exponent - places.length)
    | _, _, _ => none

/-- Infinity, or what is no number. -/
def notFinite? (text : List Char) : Option Binary64 :=
  let (negative, rest) := sign text
  if rest = ['i', 'n', 'f'] then some (.infinite negative)
  else if rest = ['n', 'a', 'n'] then some .nan
  else none

/-- A floating-point number: infinity, no number, or a decimal. One too large for the format is
none. -/
def float? (text : List Char) : Option Scalar :=
  ((notFinite? text).or ((decimal? text).bind fun (negative, digits, exponent) =>
    Binary64.ofDecimal? negative digits exponent)).map .float

/-- The text has the form of a floating-point number. -/
def isFloat (text : List Char) : Bool :=
  (notFinite? text).isSome || (decimal? text).isSome

/-- A number of exactly two digits, and what follows. -/
def twoDigits? : List Char → Option (Nat × List Char)
  | tens :: ones :: rest =>
    if isDecimal tens && isDecimal ones then some (number 10 [tens, ones], rest) else none
  | _ => none

/-- The year has one day more. -/
def isLeapYear (year : Nat) : Bool :=
  year % 4 == 0 && (year % 100 != 0 || year % 400 == 0)

/-- The number of days of a month. -/
def daysIn (year month : Nat) : Nat :=
  if month = 2 then (if isLeapYear year then 29 else 28)
  else if month = 4 ∨ month = 6 ∨ month = 9 ∨ month = 11 then 30
  else 31

/-- What follows a date at the front of a text. -/
def date? (text : List Char) : Option (List Char) := do
  let (century, rest) ← twoDigits? text
  let (year, rest) ← twoDigits? rest
  let '-' :: rest := rest | none
  let (month, rest) ← twoDigits? rest
  let '-' :: rest := rest | none
  let (day, rest) ← twoDigits? rest
  if 1 ≤ month ∧ month ≤ 12 ∧ 1 ≤ day ∧ day ≤ daysIn (century * 100 + year) month then some rest
  else none

/-- What follows the fraction of a second, of which there may be none. -/
def subsecond? : List Char → Option (List Char)
  | '.' :: rest => if rest.head?.any isDecimal then some (rest.dropWhile isDecimal) else none
  | text => some text

/-- What follows a time at the front of a text. The seconds may be left out, and a minute may have a
leap second. -/
def time? (text : List Char) : Option (List Char) := do
  let (hour, rest) ← twoDigits? text
  let ':' :: rest := rest | none
  let (minute, rest) ← twoDigits? rest
  if 23 < hour ∨ 59 < minute then none
  else
    match rest with
    | ':' :: rest => do
      let (second, rest) ← twoDigits? rest
      if 60 < second then none else subsecond? rest
    | rest => some rest

/-- The text is nothing or the distance of a time zone from universal time. -/
def isOffset (text : List Char) : Bool :=
  match text with
  | [] => true
  | ['Z'] => true
  | ['z'] => true
  | mark :: rest =>
    (mark == '+' || mark == '-') &&
      match twoDigits? rest with
      | some (hour, ':' :: rest) =>
        match twoDigits? rest with
        | some (minute, []) => hour ≤ 23 && minute ≤ 59
        | _ => false
      | _ => false

/-- The text is a date, with a time or without, or a time alone. -/
def isDateTime (text : List Char) : Bool :=
  match date? text with
  | some [] => true
  | some (mark :: rest) =>
    (mark == 'T' || mark == 't' || mark == ' ') && (time? rest).any isOffset
  | none => time? text == some []

/-- A boolean. -/
def boolean? (text : List Char) : Option Scalar :=
  if text = ['t', 'r', 'u', 'e'] then some (.boolean true)
  else if text = ['f', 'a', 'l', 's', 'e'] then some (.boolean false)
  else none

/-- The bare value that a text is, if it is one. -/
def ofText? (text : List Char) : Option Scalar :=
  (boolean? text).or ((integer? text).or ((float? text).or
    (if isDateTime text then some .dateTime else none)))

/-- The text has the form of a bare value. -/
def hasForm (text : List Char) : Bool :=
  (boolean? text).isSome || isInteger text || isFloat text || isDateTime text

/-- The text of an integer has the form of one. -/
theorem isInteger_of_integer? {text : List Char} {value : Scalar}
    (hvalue : integer? text = some value) : isInteger text := by
  have hread {read : Option (List Char)} {value? : List Char → Option Scalar}
      (h : read.bind value? = some value) : read.isSome := by
    cases read <;> simp_all
  unfold integer? at hvalue
  unfold isInteger
  split at hvalue
  · simp [hread hvalue]
  · simp [hread hvalue]
  · simp [hread hvalue]
  · simp only [Bool.or_eq_true]
    exact .inl (hread hvalue)

/-- The text of a floating-point number has the form of one. -/
theorem isFloat_of_float? {text : List Char} {value : Scalar}
    (hvalue : float? text = some value) : isFloat text := by
  unfold float? at hvalue
  unfold isFloat
  cases hspecial : notFinite? text <;> cases hdecimal : decimal? text <;> simp_all

/-- The text of a bare value has the form of one. -/
theorem hasForm_of_ofText? {text : List Char} {value : Scalar}
    (hvalue : ofText? text = some value) : hasForm text := by
  unfold ofText? at hvalue
  unfold hasForm
  cases hboolean : boolean? text <;> cases hinteger : integer? text <;>
    cases hfloat : float? text <;>
    simp_all [isInteger_of_integer?, isFloat_of_float?]

end Scalar

end JavaResources.Toml
