import StagedQuery.Capability

/-!
# Faults

The causes of failure, each with its message and its code. Compilation faults are
found while a selection is built or compiled, execution faults while a stage runs,
and mutation faults while a procedure is invoked.
-/

namespace StagedQuery

/-- A text between plain double quotes, without escapes. -/
def inQuotes (text : String) : String :=
  "\"" ++ text ++ "\""

/-- Faults found while a selection is built or compiled. -/
inductive CompileFault where
  | unknownArgument (field argument : String)
  | missingArgument (field argument : String)
  | invalidArgument (field argument expected found : String)
  | undefinedVariable (name : String)
  | unknownFragment (name : String)
  | fragmentCycle (name : String)
  | duplicateField (parent field : String)
  | notSelectable (field shape : String)
  | pageSizeExceeded (field : String) (requested : Int) (most : Nat)
  | invalidMutation (mutation reason : String)
  | notAMutation (field : String)
  deriving DecidableEq, Repr

namespace CompileFault

/-- The message of a compilation fault. -/
def message : CompileFault → String
  | .unknownArgument field argument =>
    "Unknown argument " ++ inQuotes argument ++ " on field " ++ inQuotes field
  | .missingArgument field argument =>
    "Missing required argument " ++ inQuotes argument ++ " on field " ++ inQuotes field
  | .invalidArgument field argument expected found =>
    "Invalid value for argument " ++ inQuotes argument ++ " on field " ++ inQuotes field
      ++ ": expected " ++ expected ++ ", got " ++ found
  | .undefinedVariable name => "Variable " ++ inQuotes ("$" ++ name) ++ " is not defined"
  | .unknownFragment name => "Fragment " ++ inQuotes name ++ " is not defined"
  | .fragmentCycle name => "Fragment " ++ inQuotes name ++ " spreads itself"
  | .duplicateField parent field =>
    "Field " ++ inQuotes field ++ " is selected more than once in " ++ inQuotes parent
  | .notSelectable field shape =>
    "Field " ++ inQuotes field ++ " of type " ++ shape ++ " has no selectable members"
  | .pageSizeExceeded field requested most =>
    "Requested page size " ++ toString requested ++ " on field " ++ inQuotes field
      ++ " exceeds the maximum of " ++ toString most
  | .invalidMutation mutation reason =>
    "Invalid mutation " ++ inQuotes mutation ++ ": " ++ reason
  | .notAMutation field => "Field " ++ inQuotes field ++ " is not a mutation"

/-- The code of a compilation fault. -/
def code : CompileFault → String
  | .unknownArgument .. => "stageql::compile::unknown_argument"
  | .missingArgument .. => "stageql::compile::missing_argument"
  | .invalidArgument .. => "stageql::compile::invalid_argument"
  | .undefinedVariable .. => "stageql::compile::undefined_variable"
  | .unknownFragment .. => "stageql::compile::unknown_fragment"
  | .fragmentCycle .. => "stageql::compile::fragment_cycle"
  | .duplicateField .. => "stageql::compile::duplicate_field"
  | .notSelectable .. => "stageql::compile::not_selectable"
  | .pageSizeExceeded .. => "stageql::compile::page_size_exceeded"
  | .invalidMutation .. => "stageql::compile::invalid_mutation"
  | .notAMutation .. => "stageql::compile::not_a_mutation"

end CompileFault

/-- Faults raised while a stage runs. -/
inductive ExecutionFault where
  | missingCapability (capability : Capability)
  | service (capability : Capability) (method reason : String)
  | typeMismatch (operation expected found : String)
  | conversion (value : String) (kind : ScalarKind)
  | unboundPlaceholder (name : String)
  deriving DecidableEq, Repr

namespace ExecutionFault

/-- The message of an execution fault. -/
def message : ExecutionFault → String
  | .missingCapability capability =>
    "No instance of capability `" ++ capability.shortName ++ "` is available"
  | .service capability method reason =>
    "Service `" ++ capability.shortName ++ "::" ++ method ++ "` failed: " ++ reason
  | .typeMismatch operation expected found =>
    "Type mismatch in " ++ inQuotes operation ++ ": expected " ++ expected ++ ", got " ++ found
  | .conversion value kind => "Cannot convert " ++ value ++ " to " ++ kind.name
  | .unboundPlaceholder name => "Placeholder " ++ inQuotes ("$" ++ name) ++ " is not bound"

/-- The code of an execution fault. -/
def code : ExecutionFault → String
  | .missingCapability .. => "stageql::execution::missing_capability"
  | .service .. => "stageql::execution::service"
  | .typeMismatch .. => "stageql::execution::type_mismatch"
  | .conversion .. => "stageql::execution::conversion"
  | .unboundPlaceholder .. => "stageql::execution::unbound_param"

end ExecutionFault

/-- Faults raised while a mutation's procedure is invoked. -/
inductive MutationFault where
  | arguments (cause : CompileFault)
  | missingCapability (mutation : String) (capability : Capability)
  | missingInstance (mutation : String) (declaring : Capability)
  | validation (messages : List String)
  | procedure (reason : String)
  deriving DecidableEq, Repr

/-- The message that sums up the errors of a validation. -/
def validationMessage (messages : List String) : String :=
  "Validation failed: " ++ "; ".intercalate messages

namespace MutationFault

/-- The message of a mutation fault. The fault of an argument and the failure of a
    procedure are reported in their own words. -/
def message : MutationFault → String
  | .arguments cause => cause.message
  | .missingCapability mutation capability =>
    "Mutation " ++ inQuotes mutation ++ " requires capability `" ++ capability.shortName
      ++ "` but no instance is available"
  | .missingInstance mutation declaring =>
    "Mutation " ++ inQuotes mutation ++ " could not obtain an instance of `" ++ declaring.name
      ++ "`"
  | .validation messages => validationMessage messages
  | .procedure reason => reason

/-- The code of a mutation fault. -/
def code : MutationFault → String
  | .arguments .. => "stageql::mutation::arguments"
  | .missingCapability .. => "stageql::mutation::missing_capability"
  | .missingInstance .. => "stageql::mutation::missing_instance"
  | .validation .. => "stageql::mutation::validation"
  | .procedure .. => "stageql::mutation::procedure"

end MutationFault

/-- Any fault. -/
inductive Fault where
  | compile (cause : CompileFault)
  | execution (cause : ExecutionFault)
  | mutation (cause : MutationFault)
  deriving DecidableEq, Repr

namespace Fault

/-- The message of the fault inside. -/
def message : Fault → String
  | .compile cause => cause.message
  | .execution cause => cause.message
  | .mutation cause => cause.message

/-- The code of the fault inside. -/
def code : Fault → String
  | .compile cause => cause.code
  | .execution cause => cause.code
  | .mutation cause => cause.code

end Fault

end StagedQuery
