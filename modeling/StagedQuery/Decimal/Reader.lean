import StagedQuery.Decimal.Layout

/-!
# Reading decimal numbers

Integers are an optional sign and at least one digit. Floating point numbers are
an optional sign followed by one of the words `inf`, `infinity` and `nan` in any
mixture of cases, or by digits with an optional point anywhere among them and an
optional power of ten; they are rounded to the nearest, ties to even.
-/

namespace StagedQuery.Decimal

/-- The value of a decimal digit of the ASCII range. -/
def digitValue (char : Char) : Nat :=
  char.toNat - '0'.toNat

/-- The natural number that a list of digits writes, continuing from `start`. -/
def readDigits (start : Nat) (digits : List Char) : Nat :=
  digits.foldl (fun number digit => 10 * number + digitValue digit) start

/-- Takes an optional sign; the first component says whether it is a minus. -/
def takeSign : List Char → Bool × List Char
  | '-' :: rest => (true, rest)
  | '+' :: rest => (false, rest)
  | chars => (false, chars)

/-- The integer that a whole text writes. -/
def readInteger? (chars : List Char) : Option Int :=
  let (negative, digits) := takeSign chars
  if digits.isEmpty || !digits.all Char.isDigit then none
  else
    let magnitude : Int := readDigits 0 digits
    some (if negative then -magnitude else magnitude)

/-- The optional power of ten at the end of a text. -/
def readExponent? : List Char → Option Int
  | [] => some 0
  | mark :: rest =>
    if mark = 'e' ∨ mark = 'E' then readInteger? rest else none

/-- The digits and the exponent that a text without sign writes. At least one digit
    stands before the power of ten. -/
def readScaled? (chars : List Char) : Option Scaled :=
  let whole := chars.takeWhile Char.isDigit
  let afterWhole := chars.dropWhile Char.isDigit
  let fraction := match afterWhole with
    | '.' :: rest => rest.takeWhile Char.isDigit
    | _ => []
  let afterFraction := match afterWhole with
    | '.' :: rest => rest.dropWhile Char.isDigit
    | other => other
  if whole.isEmpty && fraction.isEmpty then none
  else
    (readExponent? afterFraction).map fun exponent =>
      ⟨readDigits 0 (whole ++ fraction), exponent - (fraction.length : Int)⟩

/-- Positive infinity. -/
def infinity : Float :=
  Float.ofBits 0x7ff0000000000000

/-- A number that is none. -/
def notANumber : Float :=
  Float.ofBits 0x7ff8000000000000

/-- The nearest floating point number to digits times a power of ten. Magnitudes far
    beyond the range are settled without computing the power. -/
def Scaled.toFloat (scaled : Scaled) : Float :=
  let leading := ((digitsOf scaled.digits).length : Int) + scaled.exponent
  if scaled.digits = 0 ∨ leading < -400 then 0.0
  else if 400 < leading then infinity
  else Float.ofScientific scaled.digits (scaled.exponent < 0) scaled.exponent.natAbs

/-- The words for numbers that are not finite. -/
def readSpecial? (chars : List Char) : Option Float :=
  let word := String.ofList (chars.map Char.toLower)
  if word = "inf" ∨ word = "infinity" then some infinity
  else if word = "nan" then some notANumber
  else none

/-- The floating point number that a whole text writes. -/
def readFloat? (chars : List Char) : Option Float :=
  let (negative, unsigned) := takeSign chars
  let magnitude := match readScaled? unsigned with
    | some scaled => some scaled.toFloat
    | none => readSpecial? unsigned
  magnitude.map fun number => if negative then -number else number

end StagedQuery.Decimal
