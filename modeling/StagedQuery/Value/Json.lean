import StagedQuery.Value.Convert
import StagedQuery.Json.Writer
import StagedQuery.Text.Quoted

/-!
# Values as JSON and as text

A value becomes a JSON value whose objects are sorted by name; enumeration values
become strings and numbers that are not finite become null. Conversely an
integer that does not fit in 64 bits becomes a floating point number. `document`
writes the same values with their members in order of arrival. Messages show a
string or an enumeration value in quotes and any other value as JSON.
-/

namespace StagedQuery.Value

mutual

/-- The JSON value of a value. -/
def toJson : Value → Json
  | .null => .null
  | .bool truth => .bool truth
  | .int number => .integer number.toInt
  | .float number => if number.isFinite then .real number else .null
  | .string text => .string text
  | .enumeration name => .string name
  | .list items => .array (itemsToJson items)
  | .object members => Json.ofPairs (membersToJson members)

/-- The JSON values of some values. -/
def itemsToJson : List Value → List Json
  | [] => []
  | item :: rest => item.toJson :: itemsToJson rest

/-- The JSON values of some members. -/
def membersToJson : List (String × Value) → List (String × Json)
  | [] => []
  | (name, value) :: rest => (name, value.toJson) :: membersToJson rest

end

mutual

/-- The value of a JSON value. -/
def ofJson : Json → Value
  | .null => .null
  | .bool truth => .bool truth
  | .integer number =>
    if fitsInt64 number then .int (Int64.ofInt number) else .float (Float.ofInt number)
  | .real number => .float number
  | .string text => .string text
  | .array items => .list (itemsOfJson items)
  | .object members => ofPairs (membersOfJson members)

/-- The values of some JSON values. -/
def itemsOfJson : List Json → List Value
  | [] => []
  | item :: rest => ofJson item :: itemsOfJson rest

/-- The values of the members of a JSON object. -/
def membersOfJson : List (String × Json) → List (String × Value)
  | [] => []
  | (name, value) :: rest => (name, ofJson value) :: membersOfJson rest

end

mutual

/-- The compact text of a value with members in order of arrival. -/
def document : Value → String
  | .null => "null"
  | .bool truth => if truth then "true" else "false"
  | .int number => intText number
  | .float number => Decimal.Layout.document.write number
  | .string text => Json.stringText text
  | .enumeration name => Json.stringText name
  | .list items => "[" ++ ",".intercalate (itemDocuments items) ++ "]"
  | .object members => "\x7b" ++ ",".intercalate (memberDocuments members) ++ "\x7d"

/-- The compact texts of some values. -/
def itemDocuments : List Value → List String
  | [] => []
  | item :: rest => item.document :: itemDocuments rest

/-- The compact texts of some members. -/
def memberDocuments : List (String × Value) → List String
  | [] => []
  | (name, value) :: rest => (Json.stringText name ++ ":" ++ value.document) :: memberDocuments rest

end

/-- The text of a value in messages. -/
def display : Value → String
  | .string text => Text.quoted text
  | .enumeration name => Text.quoted name
  | value => value.toJson.text

end StagedQuery.Value
