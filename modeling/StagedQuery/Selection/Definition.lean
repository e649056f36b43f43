import StagedQuery.Extension

/-!
# Field definitions

What a schema says of a field: its name, its shape, its arguments, its extensions,
and how its expression is built from the expression of its parent and the bound
arguments.
-/

namespace StagedQuery

/-- A field of a schema. -/
structure FieldDefinition where
  name : String
  description? : Option String
  shape : Shape
  bindings : List Binding
  extensions : List Extension
  resolve : Expr → ArgumentSet → Drawing Expr

namespace FieldDefinition

/-- A field with a resolver of its own. -/
def ofResolver (name : String) (shape : Shape) (resolve : Expr → ArgumentSet → Drawing Expr) :
    FieldDefinition :=
  ⟨name, none, shape, [], [], resolve⟩

/-- A field that reads the member of the same name of its parent. -/
def ofMember (name : String) (shape : Shape) : FieldDefinition :=
  ofResolver name shape fun parent _ => pure (.member parent name shape)

/-- Adds an argument. -/
def withBinding (field : FieldDefinition) (binding : Binding) : FieldDefinition :=
  { field with bindings := field.bindings ++ [binding] }

/-- Adds an extension and the arguments that it brings. -/
def withExtension (field : FieldDefinition) (extension : Extension) : FieldDefinition :=
  { field with
    bindings := field.bindings ++ extension.bindings (field.shape.element?.getD field.shape)
    extensions := field.extensions ++ [extension] }

/-- Adds a description. -/
def withDescription (field : FieldDefinition) (description : String) : FieldDefinition :=
  { field with description? := some description }

end FieldDefinition

end StagedQuery
