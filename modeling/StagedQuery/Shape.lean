import StagedQuery.Members

/-!
# Static shapes

What is known of a value before it exists. A shape is unknown (`any`), a scalar of
some kind, a named object with ordered members, or a list. The second stage of a
query asks the shape of the first stage's result whether a member is already
there, so shapes decide what is read and what is computed again.
-/

namespace StagedQuery

/-- The kinds of scalars. -/
inductive ScalarKind where
  | int
  | float
  | string
  | boolean
  | id
  deriving DecidableEq, Repr

/-- The name of a scalar kind. -/
def ScalarKind.name : ScalarKind → String
  | .int => "Int"
  | .float => "Float"
  | .string => "String"
  | .boolean => "Boolean"
  | .id => "ID"

/-- All kinds of scalars. -/
def ScalarKind.all : List ScalarKind :=
  [.int, .float, .string, .boolean, .id]

/-- The scalar kind of a name. -/
def ScalarKind.ofName? (name : String) : Option ScalarKind :=
  ScalarKind.all.find? (·.name = name)

/-- What is statically known of a value. -/
inductive Shape where
  | any
  | scalar (kind : ScalarKind)
  | object (name : String) (members : List (String × Shape))
  | list (element : Shape)

namespace Shape

/-- Where a shape is missing, any value is declared. -/
instance : Inhabited Shape := ⟨.any⟩

/-- An object shape built from pairs; the last shape of a repeated name wins. -/
def ofPairs (name : String) (pairs : List (String × Shape)) : Shape :=
  .object name (Members.ofPairs pairs)

/-- The shape of a declared member. -/
def member? (shape : Shape) (name : String) : Option Shape :=
  match shape with
  | .object _ members => Members.value? members name
  | _ => none

/-- Whether a member is declared. -/
def hasMember (shape : Shape) (name : String) : Bool :=
  (shape.member? name).isSome

/-- The shape of the items of a list. -/
def element? : Shape → Option Shape
  | .list element => some element
  | _ => none

/-- The name and the members of an object shape. -/
def object? : Shape → Option (String × Members Shape)
  | .object name members => some (name, members)
  | _ => none

/-- The name of an object shape. -/
def objectName? (shape : Shape) : Option String :=
  shape.object?.map Prod.fst

/-- Whether a shape is a list. -/
def isList : Shape → Bool
  | .list _ => true
  | _ => false

/-- Whether a shape is an object. -/
def isObject : Shape → Bool
  | .object _ _ => true
  | _ => false

/-- The scalar members of an object shape, in order. -/
def scalarMembers (shape : Shape) : List (String × ScalarKind) :=
  match shape with
  | .object _ members => members.filterMap fun (name, member) =>
    match member with
    | .scalar kind => some (name, kind)
    | _ => none
  | _ => []

/-- The text of a shape: an object shows its name, a list its element in brackets. -/
def text : Shape → String
  | .any => "Any"
  | .scalar kind => kind.name
  | .object name _ => name
  | .list element => "[" ++ element.text ++ "]"

mutual

/-- Equality of shapes. Members of objects are compared in order. -/
def same : Shape → Shape → Bool
  | .any, .any => true
  | .scalar left, .scalar right => left == right
  | .object left leftMembers, .object right rightMembers =>
    left == right && sameMembers leftMembers rightMembers
  | .list left, .list right => left.same right
  | _, _ => false

/-- Equality of the members of objects, in order. -/
def sameMembers : List (String × Shape) → List (String × Shape) → Bool
  | [], [] => true
  | (left, leftShape) :: leftRest, (right, rightShape) :: rightRest =>
    left == right && leftShape.same rightShape && sameMembers leftRest rightRest
  | _, _ => false

end

/-- Shapes are compared member by member. -/
instance : BEq Shape := ⟨same⟩

end Shape

end StagedQuery
