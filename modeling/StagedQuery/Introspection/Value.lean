import StagedQuery.Json.Basic
import StagedQuery.Value.Basic

/-!
# Values under introspection

Introspection shows what the library holds as JSON, so that tools can look at it.
Unlike the JSON value of a value, the view of a value tells all its kinds apart:
a floating point number is shown by its bits, an enumeration value apart from a
string, and the members of an object in order of arrival. Only the numbers that are
not a number look alike.
-/

namespace StagedQuery

/-- Digits of base sixteen, filled up with zeros. -/
def hexText (width number : Nat) : String :=
  let digits := Nat.toDigits 16 number
  String.ofList (List.replicate (width - digits.length) '0' ++ digits)

/-- The view of an option: null stands for none. -/
def Json.ofOption {α : Type} (view : α → Json) : Option α → Json
  | some found => view found
  | none => .null

/-- The view of a list of texts. -/
def Json.ofTexts (texts : List String) : Json :=
  .array (texts.map .string)

namespace Value

/-- The view of a floating point number. -/
def floatView (number : Float) : Json :=
  .object [("f", .string (if number.isNaN then "nan" else hexText 16 number.toBits.toNat))]

mutual

/-- The view of a value. -/
def view : Value → Json
  | .null => .null
  | .bool truth => .bool truth
  | .int number => .integer number.toInt
  | .float number => floatView number
  | .string text => .string text
  | .enumeration name => .object [("e", .string name)]
  | .list items => .array (itemViews items)
  | .object members => .object [("o", .array (memberViews members))]

/-- The views of some values. -/
def itemViews : List Value → List Json
  | [] => []
  | item :: rest => item.view :: itemViews rest

/-- The views of some members. -/
def memberViews : List (String × Value) → List Json
  | [] => []
  | (name, value) :: rest => .array [.string name, value.view] :: memberViews rest

end

/-- The view of an optional value, in which none differs from null. -/
def optionView : Option Value → Json
  | some value => .object [("some", value.view)]
  | none => .object [("none", .bool true)]

end Value

end StagedQuery
