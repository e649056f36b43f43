import StagedQuery.Value.Basic
import StagedQuery.Decimal.Reader
import StagedQuery.Text.Blank

/-!
# Conversion between scalars

The table of conversions to a scalar kind. Null converts to null of every kind; a
pair of kinds that the table does not list has no conversion. Texts are read
without the blank space around them, but for booleans.
-/

namespace StagedQuery.Value

/-- The integers of 64 bits. -/
def fitsInt64 (number : Int) : Bool :=
  Int64.minValue.toInt ≤ number && number ≤ Int64.maxValue.toInt

/-- The integer that a floating point number equals, if it is whole and in range. -/
def wholeOfFloat? (number : Float) : Option Int64 :=
  if number.floor == number
      && -9223372036854775808.0 ≤ number && number < 9223372036854775808.0 then
    some number.toInt64
  else none

/-- The integer of 64 bits that a text writes. -/
def readInt? (text : String) : Option Int64 :=
  match Decimal.readInteger? (Text.stripBlank text.toList) with
  | some number => if fitsInt64 number then some (Int64.ofInt number) else none
  | none => none

/-- The decimal text of an integer. -/
def intText (number : Int64) : String :=
  Decimal.integerText number.toInt

/-- Conversion to an integer. -/
def toInt? : Value → Option Value
  | .null => some .null
  | .int number => some (.int number)
  | .float number => (wholeOfFloat? number).map .int
  | .bool truth => some (.int (if truth then 1 else 0))
  | .string text => (readInt? text).map .int
  | _ => none

/-- Conversion to a floating point number. -/
def toFloat? : Value → Option Value
  | .null => some .null
  | .int number => some (.float (widen number))
  | .float number => some (.float number)
  | .string text => (Decimal.readFloat? (Text.stripBlank text.toList)).map .float
  | _ => none

/-- Conversion to a boolean. -/
def toBoolean? : Value → Option Value
  | .null => some .null
  | .bool truth => some (.bool truth)
  | .int number => some (.bool (number ≠ 0))
  | .string text =>
    if text = "true" then some (.bool true)
    else if text = "false" then some (.bool false)
    else none
  | _ => none

/-- Conversion to an identifier, which is a string. -/
def toId? : Value → Option Value
  | .null => some .null
  | .string text => some (.string text)
  | .enumeration name => some (.string name)
  | .int number => some (.string (intText number))
  | _ => none

/-- Conversion to a string. -/
def toString? : Value → Option Value
  | .float number => some (.string (Decimal.Layout.plain.write number))
  | .bool truth => some (.string (if truth then "true" else "false"))
  | value => value.toId?

/-- Converts a scalar to a kind. -/
def convert? (value : Value) : ScalarKind → Option Value
  | .int => value.toInt?
  | .float => value.toFloat?
  | .string => value.toString?
  | .boolean => value.toBoolean?
  | .id => value.toId?

end StagedQuery.Value
