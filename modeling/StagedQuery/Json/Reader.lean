import StagedQuery.Json.Basic
import StagedQuery.Decimal.Reader

/-!
# Reading JSON text

A reader for whole JSON documents. It accepts arrays and objects nested to a
depth of 127, keeps the last value of a repeated name, and refuses lone
surrogates and numbers too large for a floating point number.

A number without fraction and exponent is an integer while its magnitude fits in
64 bits (signed below zero) and a floating point number otherwise; `-0` is a
floating point number. A floating point number is not rounded from all its
digits: the digits that fit in 64 bits are taken as a whole number, which is
rounded and then multiplied or divided by a power of ten. Digits after those are
dropped, the whole ones among them counting towards the power.
-/

namespace StagedQuery.Json

/-- Whether a character may stand between the parts of a document. -/
def isSpace (char : Char) : Bool :=
  char == ' ' || char == '\n' || char == '\t' || char == '\r'

/-- The text from its first character that is no space. -/
def skipSpace (chars : List Char) : List Char :=
  chars.dropWhile isSpace

/-- Divides a number by a power of ten, `1e308` at a time while the exponent exceeds
    308, which happens at most `rounds` times. -/
def divideByPower (number : Float) (exponent rounds : Nat) : Float :=
  match rounds with
  | 0 => number / Float.ofScientific 1 false exponent
  | rounds + 1 =>
    if exponent ≤ 308 then number / Float.ofScientific 1 false exponent
    else if number == 0.0 then number
    else divideByPower (number / Float.ofScientific 1 false 308) (exponent - 308) rounds

/-- A significand of at most 64 bits times a power of ten; refused when it is too
    large. -/
def scaledFloat? (negative : Bool) (significand : Nat) (exponent : Int) : Option Float :=
  let whole := (UInt64.ofNat significand).toFloat
  let magnitude : Option Float :=
    if exponent < 0 then some (divideByPower whole exponent.natAbs (exponent.natAbs / 308))
    else if 308 < exponent then if significand = 0 then some whole else none
    else
      let product := whole * Float.ofScientific 1 false exponent.natAbs
      if product.isInf then none else some product
  magnitude.map fun number => if negative then -number else number

/-- Takes digits while the significand stays below two to the 64th. Returns the
    significand, how many digits it took, and the rest. -/
def takeSignificand (significand taken : Nat) : List Char → Nat × Nat × List Char
  | [] => (significand, taken, [])
  | char :: rest =>
    if char.isDigit ∧ significand * 10 + Decimal.digitValue char < 1 <<< 64 then
      takeSignificand (significand * 10 + Decimal.digitValue char) (taken + 1) rest
    else (significand, taken, char :: rest)

/-- A power of ten after its mark, added to `start`. -/
def readPower? (negative : Bool) (significand : Nat) (start : Int) (chars : List Char) :
    Option (Float × List Char) :=
  let (below, digits) := Decimal.takeSign chars
  let power := digits.takeWhile Char.isDigit
  let rest := digits.dropWhile Char.isDigit
  if power.isEmpty then none
  else
    let magnitude := Decimal.readDigits 0 power
    if 1 <<< 31 ≤ magnitude then
      if significand ≠ 0 ∧ !below then none else some (if negative then -0.0 else 0.0, rest)
    else
      let exponent := if below then start - (magnitude : Int) else start + (magnitude : Int)
      (scaledFloat? negative significand exponent).map (·, rest)

/-- An optional power of ten after the digits of a number. -/
def readTail? (negative : Bool) (significand : Nat) (exponent : Int) (chars : List Char) :
    Option (Float × List Char) :=
  match chars with
  | 'e' :: rest => readPower? negative significand exponent rest
  | 'E' :: rest => readPower? negative significand exponent rest
  | rest => (scaledFloat? negative significand exponent).map (·, rest)

/-- A fraction after its point. Digits that no longer fit are dropped. -/
def readFraction? (negative : Bool) (significand : Nat) (exponent : Int) (chars : List Char) :
    Option (Float × List Char) :=
  match chars with
  | [] => none
  | first :: _ =>
    if first.isDigit then
      let (extended, taken, rest) := takeSignificand significand 0 chars
      readTail? negative extended (exponent - (taken : Int)) (rest.dropWhile Char.isDigit)
    else none

/-- What follows the whole digits of a number that fit in 64 bits. -/
def readAfterWhole? (negative : Bool) (significand : Nat) (chars : List Char) :
    Option (Json × List Char) :=
  match chars with
  | '.' :: rest =>
    (readFraction? negative significand 0 rest).map fun (number, rest) => (.real number, rest)
  | 'e' :: rest =>
    (readPower? negative significand 0 rest).map fun (number, rest) => (.real number, rest)
  | 'E' :: rest =>
    (readPower? negative significand 0 rest).map fun (number, rest) => (.real number, rest)
  | rest =>
    if !negative then some (.integer significand, rest)
    else if significand = 0 ∨ 1 <<< 63 < significand then
      some (.real (-(UInt64.ofNat significand).toFloat), rest)
    else some (.integer (-(significand : Int)), rest)

/-- What follows the whole digits of a number that do not fit in 64 bits, from the
    first one that does not fit. -/
def readLong? (negative : Bool) (significand : Nat) (chars : List Char) :
    Option (Json × List Char) :=
  let dropped : Int := (chars.takeWhile Char.isDigit).length
  let number := match chars.dropWhile Char.isDigit with
    | '.' :: rest => readFraction? negative significand dropped rest
    | rest => readTail? negative significand dropped rest
  number.map fun (number, rest) => (.real number, rest)

/-- The magnitude of a number, from its first digit. A leading zero stands alone. -/
def readMagnitude? (negative : Bool) (chars : List Char) : Option (Json × List Char) :=
  match chars with
  | [] => none
  | '0' :: rest =>
    match rest with
    | [] => readAfterWhole? negative 0 []
    | next :: after => if next.isDigit then none else readAfterWhole? negative 0 (next :: after)
  | first :: rest =>
    if first.isDigit then
      match takeSignificand (Decimal.digitValue first) 0 rest with
      | (significand, _, next :: after) =>
        if next.isDigit then readLong? negative significand (next :: after)
        else readAfterWhole? negative significand (next :: after)
      | (significand, _, []) => readAfterWhole? negative significand []
    else none

/-- The value of a hexadecimal digit. -/
def hexValue? (char : Char) : Option Nat :=
  let code := char.toNat
  if char.isDigit then some (code - 48)
  else if 97 ≤ code ∧ code ≤ 102 then some (code - 87)
  else if 65 ≤ code ∧ code ≤ 70 then some (code - 55)
  else none

/-- Four hexadecimal digits. -/
def readUnit? : List Char → Option (Nat × List Char)
  | a :: b :: c :: d :: rest => do
    let high := (← hexValue? a) * 16 + (← hexValue? b)
    let low := (← hexValue? c) * 16 + (← hexValue? d)
    some (high * 256 + low, rest)
  | _ => none

/-- A character after a backslash and the letter `u`. A leading surrogate is followed
    by the escape of a trailing one. -/
def readEscapedUnit? (chars : List Char) : Option (Char × List Char) := do
  let (unit, rest) ← readUnit? chars
  if 0xdc00 ≤ unit ∧ unit ≤ 0xdfff then none
  else if 0xd800 ≤ unit ∧ unit ≤ 0xdbff then
    match rest with
    | '\\' :: 'u' :: after =>
      let (trailing, rest) ← readUnit? after
      if 0xdc00 ≤ trailing ∧ trailing ≤ 0xdfff then
        some (Char.ofNat ((unit - 0xd800) * 0x400 + (trailing - 0xdc00) + 0x10000), rest)
      else none
    | _ => none
  else some (Char.ofNat unit, rest)

/-- A character after a backslash. -/
def readEscape? : List Char → Option (Char × List Char)
  | '"' :: rest => some ('"', rest)
  | '\\' :: rest => some ('\\', rest)
  | '/' :: rest => some ('/', rest)
  | 'b' :: rest => some ('\x08', rest)
  | 'f' :: rest => some ('\x0c', rest)
  | 'n' :: rest => some ('\n', rest)
  | 'r' :: rest => some ('\r', rest)
  | 't' :: rest => some ('\t', rest)
  | 'u' :: rest => readEscapedUnit? rest
  | _ => none

/-- The characters of a string up to its closing quote, at most `bound` of them. -/
def readChars? (bound : Nat) (chars : List Char) : Option (List Char × List Char) :=
  match bound with
  | 0 => none
  | bound + 1 =>
    match chars with
    | [] => none
    | '"' :: rest => some ([], rest)
    | '\\' :: rest => do
      let (char, rest) ← readEscape? rest
      let (others, rest) ← readChars? bound rest
      some (char :: others, rest)
    | char :: rest =>
      if char.toNat < 32 then none
      else do
        let (others, rest) ← readChars? bound rest
        some (char :: others, rest)

/-- A string after its opening quote. -/
def readString? (chars : List Char) : Option (String × List Char) :=
  (readChars? (chars.length + 1) chars).map fun (content, rest) => (String.ofList content, rest)

mutual

/-- A value at the start of a text. `bound` exceeds the number of steps that the text
    can ask for; `depth` is how many more arrays and objects may be opened. -/
def readValue? (bound depth : Nat) (chars : List Char) : Option (Json × List Char) :=
  match bound with
  | 0 => none
  | bound + 1 =>
    match skipSpace chars with
    | 'n' :: 'u' :: 'l' :: 'l' :: rest => some (.null, rest)
    | 't' :: 'r' :: 'u' :: 'e' :: rest => some (.bool true, rest)
    | 'f' :: 'a' :: 'l' :: 's' :: 'e' :: rest => some (.bool false, rest)
    | '-' :: rest => readMagnitude? true rest
    | '"' :: rest => (readString? rest).map fun (content, rest) => (.string content, rest)
    | '[' :: rest =>
      match depth with
      | 0 => none
      | depth + 1 =>
        match skipSpace rest with
        | ']' :: rest => some (.array [], rest)
        | other => (readItems? bound depth other).map fun (items, rest) => (.array items, rest)
    | '\x7b' :: rest =>
      match depth with
      | 0 => none
      | depth + 1 =>
        match skipSpace rest with
        | '\x7d' :: rest => some (.object [], rest)
        | other => (readPairs? bound depth other).map fun (pairs, rest) => (ofPairs pairs, rest)
    | other => readMagnitude? false other

/-- The items of an array up to its closing bracket. -/
def readItems? (bound depth : Nat) (chars : List Char) : Option (List Json × List Char) :=
  match bound with
  | 0 => none
  | bound + 1 => do
    let (item, rest) ← readValue? bound depth chars
    match skipSpace rest with
    | ']' :: rest => some ([item], rest)
    | ',' :: rest =>
      let (others, rest) ← readItems? bound depth rest
      some (item :: others, rest)
    | _ => none

/-- The members of an object up to its closing brace. -/
def readPairs? (bound depth : Nat) (chars : List Char) :
    Option (List (String × Json) × List Char) :=
  match bound with
  | 0 => none
  | bound + 1 =>
    match skipSpace chars with
    | '"' :: rest => do
      let (name, rest) ← readString? rest
      match skipSpace rest with
      | ':' :: rest =>
        let (value, rest) ← readValue? bound depth rest
        match skipSpace rest with
        | '\x7d' :: rest => some ([(name, value)], rest)
        | ',' :: rest =>
          let (others, rest) ← readPairs? bound depth rest
          some ((name, value) :: others, rest)
        | _ => none
      | _ => none
    | _ => none

end

/-- The value that a whole document writes. -/
def read? (document : String) : Option Json :=
  let chars := document.toList
  match readValue? (2 * chars.length + 2) 127 chars with
  | some (value, rest) => if (skipSpace rest).isEmpty then some value else none
  | none => none

end StagedQuery.Json
