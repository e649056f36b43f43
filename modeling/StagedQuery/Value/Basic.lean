import StagedQuery.Shape

/-!
# Values

The data a query reads from and the results it builds. Integers have 64 bits and
wrap around. The members of an object stand in order of first arrival, and their
names are pairwise distinct (`Value.WellFormed`); every operation of the library
that builds an object keeps this.

Two equalities are used. `Value.same` compares values of equal kind and ignores
the order of members; `Value.looseSame` also equates an integer with a floating
point number and a string with an enumeration value.
-/

namespace StagedQuery

/-- A runtime value. -/
inductive Value where
  | null
  | bool (truth : Bool)
  | int (number : Int64)
  | float (number : Float)
  | string (text : String)
  | enumeration (name : String)
  | list (items : List Value)
  | object (members : List (String × Value))

namespace Value

/-- Where a value is missing, null stands for it. -/
instance : Inhabited Value := ⟨.null⟩

/-- The object that a list of pairs describes; the last value of a repeated name wins. -/
def ofPairs (pairs : List (String × Value)) : Value :=
  .object (Members.ofPairs pairs)

/-- The members of an object. -/
def members? : Value → Option (Members Value)
  | .object members => some members
  | _ => none

/-- The member of an object, null for any other value and for a missing member. -/
def member (value : Value) (name : String) : Value :=
  match value with
  | .object members => (Members.value? members name).getD .null
  | _ => .null

/-- The value at the end of a path of members. -/
def along (value : Value) (path : List String) : Value :=
  path.foldl member value

/-- Whether a value is null. -/
def isNull : Value → Bool
  | .null => true
  | _ => false

/-- Everything but null and false counts as true. -/
def isTruthy : Value → Bool
  | .null => false
  | .bool false => false
  | _ => true

/-- The text of a string or of an enumeration value. -/
def text? : Value → Option String
  | .string text => some text
  | .enumeration name => some name
  | _ => none

/-- The number of an integer. -/
def int? : Value → Option Int64
  | .int number => some number
  | _ => none

/-- The name of a value's kind. -/
def kindName : Value → String
  | .null => "Null"
  | .bool _ => "Boolean"
  | .int _ => "Int"
  | .float _ => "Float"
  | .string _ => "String"
  | .enumeration _ => "Enum"
  | .list _ => "List"
  | .object _ => "Object"

mutual

/-- The shape of a value, as far as the value itself shows it. A list takes the shape of
    its first item. -/
def shape : Value → Shape
  | .bool _ => .scalar .boolean
  | .int _ => .scalar .int
  | .float _ => .scalar .float
  | .string _ => .scalar .string
  | .list items => .list (firstShape items)
  | .null => .any
  | .enumeration _ => .any
  | .object _ => .any

/-- The shape of the first of some values. -/
def firstShape : List Value → Shape
  | [] => .any
  | item :: _ => item.shape

end

mutual

/-- Equality of values of one kind. Objects are equal when they have the same members,
    in whatever order. -/
def same : Value → Value → Bool
  | .null, .null => true
  | .bool left, .bool right => left == right
  | .int left, .int right => left == right
  | .float left, .float right => left == right
  | .string left, .string right => left == right
  | .enumeration left, .enumeration right => left == right
  | .list left, .list right => sameItems left right
  | .object left, .object right => left.length == right.length && sameMembers left right
  | _, _ => false

/-- Equality of lists of values, item by item. -/
def sameItems : List Value → List Value → Bool
  | [], [] => true
  | left :: leftRest, right :: rightRest => left.same right && sameItems leftRest rightRest
  | _, _ => false

/-- Whether every member on the left has an equal member on the right. -/
def sameMembers : List (String × Value) → List (String × Value) → Bool
  | [], _ => true
  | (name, value) :: rest, right =>
    (match Members.value? right name with
      | some other => value.same other
      | none => false) && sameMembers rest right

end

/-- Values are compared form by form; numbers of two forms are not equal. -/
instance : BEq Value := ⟨same⟩

/-- The floating point number nearest to an integer: that of its magnitude, with its sign. -/
def widen (number : Int64) : Float :=
  if number < 0 then -(-number).toUInt64.toFloat else number.toUInt64.toFloat

/-- Equality that widens numbers and does not tell strings from enumeration values.
    Inside lists and objects it is `same`. -/
def looseSame : Value → Value → Bool
  | .int left, .float right => widen left == right
  | .float left, .int right => widen right == left
  | .string left, .enumeration right => left == right
  | .enumeration left, .string right => left == right
  | left, right => left.same right

/-- The order of two floating point numbers, if they have one. -/
def compareFloats (left right : Float) : Option Ordering :=
  if left < right then some .lt
  else if left == right then some .eq
  else if right < left then some .gt
  else none

/-- The order of two texts, code point by code point. -/
def compareTexts (left right : String) : Ordering :=
  if left < right then .lt else if left = right then .eq else .gt

/-- The order used by sorting and by comparisons. Null comes first; values of unrelated
    kinds have no order. -/
def compare? : Value → Value → Option Ordering
  | .null, .null => some .eq
  | .null, _ => some .lt
  | _, .null => some .gt
  | .int left, .int right =>
    some (if left < right then .lt else if left = right then .eq else .gt)
  | .int left, .float right => compareFloats (widen left) right
  | .float left, .int right => compareFloats left (widen right)
  | .float left, .float right => compareFloats left right
  | .bool left, .bool right => some (compare left right)
  | .string left, .string right => some (compareTexts left right)
  | .string left, .enumeration right => some (compareTexts left right)
  | .enumeration left, .string right => some (compareTexts left right)
  | .enumeration left, .enumeration right => some (compareTexts left right)
  | _, _ => none

mutual

/-- Every object at every depth has pairwise distinct names. -/
def WellFormed : Value → Prop
  | .list items => WellFormedItems items
  | .object members => Members.Distinct members ∧ WellFormedMembers members
  | _ => True

/-- Every item is well formed. -/
def WellFormedItems : List Value → Prop
  | [] => True
  | item :: rest => item.WellFormed ∧ WellFormedItems rest

/-- Every member's value is well formed. -/
def WellFormedMembers : List (String × Value) → Prop
  | [] => True
  | (_, value) :: rest => value.WellFormed ∧ WellFormedMembers rest

end

end Value

end StagedQuery
