import StagedQuery.Argument.Coercion

/-!
# The registry of input types

Input object types by name. Registering a type registers every type that it
mentions, through lists and fields, and goes no further at a name that is already
present.
-/

namespace StagedQuery

/-- Input object types by name. -/
structure InputTypes where
  types : Members InputShape

namespace InputTypes

/-- The registry without types. -/
def empty : InputTypes :=
  ⟨[]⟩

/-- The type of a name. -/
def type? (registry : InputTypes) (name : String) : Option InputShape :=
  registry.types.value? name

/-- Whether a name is taken. -/
def has (registry : InputTypes) (name : String) : Bool :=
  registry.types.has name

/-- Registers one type under its name. -/
def add (registry : InputTypes) (shape : InputShape) : InputTypes :=
  ⟨registry.types.put shape.name shape⟩

/-- How many types are registered. -/
def size (registry : InputTypes) : Nat :=
  registry.types.length

mutual

/-- Registers the input types that an argument type mentions. -/
def register (registry : InputTypes) : ArgumentType → InputTypes
  | .scalar _ _ => registry
  | .enumeration _ _ _ => registry
  | .list item _ => register registry item
  | .input name fields _ =>
    if registry.has name then registry else registerFields (registry.add ⟨name, fields⟩) fields

/-- Registers the input types that some fields mention. -/
def registerFields (registry : InputTypes) : List (InputField ArgumentType) → InputTypes
  | [] => registry
  | ⟨_, _, type⟩ :: rest => registerFields (register registry type) rest

end

end InputTypes

end StagedQuery
