import StagedQuery.Decimal.Shortest

/-!
# Writing floating point numbers

A layout says how the shortest digits of a number are laid out: within which
exponents positionally, with or without a fraction for whole numbers, which way
a tie between two equally short decimals goes, and what is written for numbers
that are not finite. Two layouts are in use: `plain` for texts and `document`
for JSON.
-/

namespace StagedQuery.Decimal

/-- A layout of decimal digits. -/
structure Layout where
  /-- The exponents of a first digit for which the number is written positionally. -/
  positional : Int → Bool
  /-- Whether a whole number in positional form ends in a point and a zero. -/
  wholeFraction : Bool
  tie : Tie
  notANumber : String
  /-- The text of an infinity, given whether it is negative. -/
  infinity : Bool → String

/-- Always positional, whole numbers without a fraction; of two equally near
    shortest decimals the larger magnitude is taken. -/
def Layout.plain : Layout where
  positional _ := true
  wholeFraction := false
  tie := .away
  notANumber := "NaN"
  infinity negative := if negative then "-inf" else "inf"

/-- Positional from `1e-5` to below `1e16`, whole numbers with the fraction `.0`;
    numbers that are not finite have no text of their own and become null. -/
def Layout.document : Layout where
  positional exponent := -5 ≤ exponent && exponent < 16
  wholeFraction := true
  tie := .toEven
  notANumber := "null"
  infinity _ := "null"

/-- Decimal digits of a natural number. -/
def digitsOf (number : Nat) : List Char :=
  Nat.toDigits 10 number

/-- An integer in decimal, with a minus sign if it is negative. -/
def integerText (number : Int) : String :=
  match number with
  | .ofNat natural => String.ofList (digitsOf natural)
  | .negSucc less => String.ofList ('-' :: digitsOf (less + 1))

/-- Digits laid out positionally; `pointAfter` is the number of digits before the
    decimal point, which may be negative or exceed the number of digits. -/
def positionalText (wholeFraction : Bool) (digits : List Char) (pointAfter : Int) : List Char :=
  if pointAfter ≤ 0 then
    ['0', '.'] ++ List.replicate (-pointAfter).toNat '0' ++ digits
  else if (digits.length : Int) ≤ pointAfter then
    digits ++ List.replicate (pointAfter.toNat - digits.length) '0'
      ++ (if wholeFraction then ['.', '0'] else [])
  else
    digits.take pointAfter.toNat ++ '.' :: digits.drop pointAfter.toNat

/-- Digits with a point after the first one and a signed power of ten. -/
def scientificText (digits : List Char) (exponent : Int) : List Char :=
  let fraction := match digits with
    | first :: second :: rest => first :: '.' :: second :: rest
    | short => short
  fraction ++ 'e' :: (if exponent < 0 then '-' else '+') :: digitsOf exponent.natAbs

/-- The magnitude of a finite number in a layout. -/
def Layout.magnitude (style : Layout) (bits : UInt64) : List Char :=
  let binary := Binary.ofBits bits
  if binary.significand = 0 then positionalText style.wholeFraction ['0'] 1
  else
    let scaled := binary.shortest style.tie
    let digits := digitsOf scaled.digits
    let pointAfter := (digits.length : Int) + scaled.exponent
    if style.positional (pointAfter - 1) then
      positionalText style.wholeFraction digits pointAfter
    else scientificText digits (pointAfter - 1)

/-- A floating point number in a layout. -/
def Layout.write (style : Layout) (number : Float) : String :=
  let bits := number.toBits
  let negative : Bool := (1 <<< 63) ≤ bits.toNat
  if (bits.toNat >>> 52) % (1 <<< 11) = 2047 then
    if bits.toNat % (1 <<< 52) = 0 then style.infinity negative else style.notANumber
  else
    let magnitude := style.magnitude bits
    String.ofList (if negative then '-' :: magnitude else magnitude)

end StagedQuery.Decimal
