import StagedQuery.Introspection.Expr
import StagedQuery.Query

/-!
# Selections under introspection

The views of field definitions, selected fields, mutations and the stages of a query.
Selected fields are shown by their place in the arena.
-/

namespace StagedQuery

/-- The view of an address. -/
def Address.view (address : Address) : Json :=
  .integer address.index

/-- The view of an argument table. -/
def bindingsView (bindings : List Binding) : Json :=
  .array (bindings.map Binding.view)

/-- The view of the capabilities that are called. -/
def capabilitiesView (capabilities : List Capability) : Json :=
  Json.ofTexts (capabilities.map Capability.shortName)

/-- The view of the extensions of a field. -/
def extensionsView (extensions : List Extension) : Json :=
  Json.ofTexts (extensions.map Extension.name)

/-- What the view of a field definition shows. -/
def FieldDefinition.viewMembers (field : FieldDefinition) : List (String × Json) :=
  [("name", .string field.name), ("description", Json.ofOption .string field.description?),
    ("shape", field.shape.view), ("arguments", bindingsView field.bindings),
    ("extensions", extensionsView field.extensions)]

/-- What the view of a mutation shows. -/
def Mutation.viewMembers (mutation : Mutation) : List (String × Json) :=
  [("name", .string mutation.name), ("description", Json.ofOption .string mutation.description?),
    ("deprecated", .array [.bool mutation.deprecation?.isSome,
      Json.ofOption .string mutation.deprecation?]),
    ("returns", mutation.returns.view), ("returns_list", .bool mutation.returnsList),
    ("params", .integer mutation.parameters.length), ("arguments", bindingsView mutation.bindings),
    ("async", .bool mutation.procedure.isAsync),
    ("declaring", .string mutation.procedure.declaring.shortName),
    ("procedure", .string mutation.procedure.summary)]

namespace SelectionTree

/-- The view of a kind of field. -/
def kindView (tree : SelectionTree) : FieldKind → Json
  | .scalar => .string "scalar"
  | .object _ => .string "object"
  | .list _ => .string "list"
  | .spread fragment =>
    .array [.string "spread", Json.ofOption (.string ·.name) (tree.fragment? fragment)]
  | .mutation selection =>
    .array [.string "mutation", .string selection.mutation.name, .string selection.result.name,
      .bool selection.request.isEmpty]

/-- What the view of a selected field shows. -/
def fieldViewMembers (tree : SelectionTree) (address : Address) (field : Field) :
    List (String × Json) :=
  [("name", .string field.name), ("kind", tree.kindView field.kind), ("expr", field.expr.view),
    ("context", .string field.context.name),
    ("over_context", .bool (field.expr.references field.context)),
    ("parent", Json.ofOption Address.view field.parent?),
    ("children", .array (field.children.map Address.view)),
    ("services", capabilitiesView field.services), ("extensions", extensionsView field.extensions),
    ("arguments", field.arguments.toValue.view),
    ("variables", .array (field.arguments.values.names.map fun member =>
      .array [.string member, Json.ofOption .string (field.arguments.sourceOf? member)])),
    ("element", Json.ofOption Placeholder.view field.element?),
    ("extracted", Json.ofOption extractedView field.extracted?),
    ("has_services", Json.ofOption .bool (tree.hasServices? address))]

end SelectionTree

/-- The view of a stage. -/
def Stage.view (stage : Stage) : Json :=
  .object (stage.expr.viewMembers ++
    [("param", .string stage.slot.name), ("param_shape", stage.slot.shape.view),
      ("executable", Json.ofOption
        (fun executable => .string (executable.slot.name ++ " " ++ executable.summary))
        stage.executable?)])

/-- What the view of a query shows. -/
def Query.viewMembers (query : Query) : List (String × Json) :=
  [("stage1", query.first.view), ("stage2", Json.ofOption Stage.view query.second?)]

end StagedQuery
