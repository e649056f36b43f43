import StagedQuery.Json.Basic
import StagedQuery.Decimal.Layout

/-!
# Compact JSON text

JSON values without any blank space between their parts. A string escapes the
quote, the backslash and the controls below the space: five of them by a letter,
the others by four hexadecimal digits.
-/

namespace StagedQuery.Json

/-- One character inside a JSON string. -/
def escapedChar (char : Char) : List Char :=
  match char with
  | '"' => ['\\', '"']
  | '\\' => ['\\', '\\']
  | '\n' => ['\\', 'n']
  | '\r' => ['\\', 'r']
  | '\t' => ['\\', 't']
  | '\x08' => ['\\', 'b']
  | '\x0c' => ['\\', 'f']
  | other =>
    if other.toNat < 32 then
      ['\\', 'u', '0', '0', Nat.digitChar (other.toNat / 16), Nat.digitChar (other.toNat % 16)]
    else [other]

/-- A JSON string. -/
def stringText (text : String) : String :=
  String.ofList ('"' :: text.toList.flatMap escapedChar ++ ['"'])

mutual

/-- The compact text of a JSON value. -/
def text : Json → String
  | .null => "null"
  | .bool truth => if truth then "true" else "false"
  | .integer number => Decimal.integerText number
  | .real number => Decimal.Layout.document.write number
  | .string content => stringText content
  | .array items => "[" ++ ",".intercalate (itemTexts items) ++ "]"
  | .object members => "\x7b" ++ ",".intercalate (memberTexts members) ++ "\x7d"

/-- The texts of the items of an array. -/
def itemTexts : List Json → List String
  | [] => []
  | item :: rest => item.text :: itemTexts rest

/-- The texts of the members of an object. -/
def memberTexts : List (String × Json) → List String
  | [] => []
  | (name, value) :: rest => (stringText name ++ ":" ++ value.text) :: memberTexts rest

end

end StagedQuery.Json
