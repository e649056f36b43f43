import StagedQuery.Members

/-!
# JSON values

JSON values as a document holds them. A number is an integer or a floating point
number; the members of an object are sorted by name.
-/

namespace StagedQuery

/-- A JSON value. -/
inductive Json where
  | null
  | bool (truth : Bool)
  | integer (number : Int)
  | real (number : Float)
  | string (text : String)
  | array (items : List Json)
  | object (members : List (String × Json))

namespace Json

/-- An object whose members are sorted by name; the last value of a repeated name wins. -/
def ofPairs (pairs : List (String × Json)) : Json :=
  .object (Members.sorted pairs)

end Json

end StagedQuery
