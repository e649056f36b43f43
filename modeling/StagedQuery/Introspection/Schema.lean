import StagedQuery.Argument.Binding
import StagedQuery.Introspection.Value

/-!
# Schemas under introspection

The views of shapes, argument types, input objects and argument tables. They show
every part, so two schemas with the same view are the same.
-/

namespace StagedQuery

mutual

/-- The view of a shape. -/
def Shape.view : Shape → Json
  | .any => .string "Any"
  | .scalar kind => .string kind.name
  | .list element => .object [("list", element.view)]
  | .object name members =>
    .object [("object", .array [.string name, .array (Shape.memberViews members)])]

/-- The views of declared members. -/
def Shape.memberViews : List (String × Shape) → List Json
  | [] => []
  | (name, shape) :: rest => .array [.string name, shape.view] :: Shape.memberViews rest

end

/-- The view of an argument type, given the words that stand for its kind. -/
def ArgumentType.viewOf (type : ArgumentType) (kind : List Json) : Json :=
  .object
    [("kind", .array kind), ("text", .string type.text), ("required", .bool type.presence.required),
      ("default", Value.optionView type.presence.default?)]

mutual

/-- The view of an argument type. -/
def ArgumentType.view : ArgumentType → Json
  | .scalar kind presence =>
    (ArgumentType.scalar kind presence).viewOf [.string "scalar", .string kind.name]
  | .enumeration name values presence =>
    (ArgumentType.enumeration name values presence).viewOf
      [.string "enum", .string name, Json.ofTexts values]
  | .input name fields presence =>
    (ArgumentType.input name fields presence).viewOf
      [.string "input", .array [.string name, .array (ArgumentType.fieldViews fields)]]
  | .list item presence =>
    (ArgumentType.list item presence).viewOf [.string "list", item.view]

/-- The views of the fields of an input object. -/
def ArgumentType.fieldViews : List (InputField ArgumentType) → List Json
  | [] => []
  | ⟨name, member, type⟩ :: rest =>
    .array [.string name, .string member, type.view] :: ArgumentType.fieldViews rest

end

/-- The view of an input object type. -/
def InputShape.view (shape : InputShape) : Json :=
  .array [.string shape.name, .array (ArgumentType.fieldViews shape.fields)]

/-- The view of one entry of an argument table. -/
def Binding.view (binding : Binding) : Json :=
  .array [.string binding.schemaName, .string binding.member, binding.type.view]

end StagedQuery
