import StagedQuery.Mutation.Procedure
import StagedQuery.Mutation.InputTypes

/-!
# Declaring mutations

A declaration is checked once and then becomes a mutation. It is refused when the
parameters and the declared arguments do not fit together, or when a bound
instance is not of the declaring type. The arguments of the mutation are the
fields of the declared input object that are not ignored, under the names that
the schema exposes.
-/

namespace StagedQuery

/-- A mutation as declared. -/
structure MutationDeclaration where
  name : String
  procedure : Procedure
  description? : Option String := none
  deprecation? : Option String := none
  returns : Shape := .any
  parameters : List Parameter := []
  /-- The input object whose fields become the arguments. -/
  arguments? : Option InputShape := none
  /-- The members that are no arguments. -/
  ignored : List String := []
  validators : List ArgumentValidator := []
  /-- The instance on which every call runs. -/
  instance? : Option Instance := none
  /-- The instance that stands in when none is bound or provided. -/
  defaultInstance? : Option Instance := none

/-- A mutation. -/
structure Mutation where
  name : String
  description? : Option String
  deprecation? : Option String
  returns : Shape
  parameters : List Parameter
  hasArguments : Bool
  bindings : List Binding
  validators : List ArgumentValidator
  procedure : Procedure
  instance? : Option Instance
  defaultInstance? : Option Instance

namespace MutationDeclaration

/-- Why a declaration is refused, if it is. -/
def objection? (declaration : MutationDeclaration) : Option String :=
  let receivers := declaration.parameters.count .arguments
  if receivers = 0 ∧ declaration.arguments?.isSome then
    some "an argument shape is declared but no parameter receives it"
  else if receivers = 1 ∧ declaration.arguments?.isNone then
    some "the arguments parameter has no declared argument shape"
  else if 1 < receivers then
    some "only one parameter may receive the arguments"
  else if declaration.instance?.any fun found => !declaration.procedure.declaring.matches found then
    some "the bound instance does not match the declaring type"
  else none

/-- The fields that become arguments. -/
def exposedFields (declaration : MutationDeclaration) : List (InputField ArgumentType) :=
  ((declaration.arguments?.map InputShape.fields).getD []).filter fun field =>
    !declaration.ignored.contains field.member

/-- Checks a declaration. If the input types are to be registered, those that the
    arguments mention are. -/
def build (declaration : MutationDeclaration) (registry : InputTypes) (schemaName : String → String)
    (registering : Bool) : Except CompileFault (Mutation × InputTypes) :=
  match declaration.objection? with
  | some reason => .error (.invalidMutation declaration.name reason)
  | none =>
    let fields := declaration.exposedFields
    let mutation : Mutation :=
      { name := declaration.name
        description? := declaration.description?
        deprecation? := declaration.deprecation?
        returns := declaration.returns
        parameters := declaration.parameters
        hasArguments := declaration.arguments?.isSome
        bindings := fields.map fun field => ⟨schemaName field.member, field.member, field.type⟩
        validators := declaration.validators
        procedure := declaration.procedure
        instance? := declaration.instance?
        defaultInstance? := declaration.defaultInstance? }
    .ok (mutation, if registering then registry.registerFields fields else registry)

end MutationDeclaration

end StagedQuery
