import StagedQuery.Argument.Binding
import StagedQuery.Outcome

/-!
# Procedures of mutations

A procedure is declared on a capability and runs on an instance of it with one
value for each declared parameter. It replies with a value or the text of its
failure, and may record errors on the validator of the invocation, provided that
one of its parameters receives it. Validation before the call is done by argument
validators, which see the errors recorded so far, may replace the arguments, and
can only add errors.
-/

namespace StagedQuery

/-- The errors recorded during one invocation, shared by the caller and the procedure. -/
structure Validator where
  messages : List String

namespace Validator

/-- No error yet. -/
def empty : Validator :=
  ⟨[]⟩

/-- Records an error. -/
def addError (validator : Validator) (message : String) : Validator :=
  ⟨validator.messages ++ [message]⟩

/-- Whether an error is recorded. -/
def hasErrors (validator : Validator) : Bool :=
  !validator.messages.isEmpty

end Validator

/-- Validators by handle. Several handles may share one list of errors; a handle that is
    met for the first time has a list of its own. -/
structure ValidatorHandles where
  /-- The number of the list that a handle stands for. -/
  lists : Members Nat
  validators : List Validator

namespace ValidatorHandles

/-- No handles. -/
def empty : ValidatorHandles :=
  ⟨[], []⟩

/-- Gives a handle that is met for the first time a list of its own. -/
def touch (handles : ValidatorHandles) (name : String) : ValidatorHandles :=
  if handles.lists.has name then handles
  else
    ⟨handles.lists.put name handles.validators.length, handles.validators ++ [Validator.empty]⟩

/-- The validator that a handle stands for. -/
def validator (handles : ValidatorHandles) (name : String) : Validator :=
  ((handles.lists.value? name).bind (handles.validators[·]?)).getD Validator.empty

/-- Records an error on the list of a handle. -/
def addError (handles : ValidatorHandles) (name message : String) : ValidatorHandles :=
  let known := handles.touch name
  match known.lists.value? name with
  | some index => ⟨known.lists, known.validators.modify index (·.addError message)⟩
  | none => known

/-- Lets the handle `other` share the list of the handle `name`. -/
def share (handles : ValidatorHandles) (name other : String) : ValidatorHandles :=
  let known := handles.touch name
  match known.lists.value? name with
  | some index => ⟨known.lists.put other index, known.validators⟩
  | none => known

end ValidatorHandles

/-- What a parameter of a procedure receives. -/
inductive Parameter where
  /-- The bound arguments. -/
  | arguments
  /-- The context of the request if it is of this type, else a provided instance. -/
  | context (type : Capability)
  /-- The validator of the invocation. -/
  | validator
  /-- A provided instance. -/
  | capability (type : Capability)
  deriving DecidableEq, Repr

/-- A value for one parameter. -/
inductive CallArgument where
  | arguments (bound : ArgumentSet)
  | context (found : Instance)
  | validator (current : Validator)
  | capability (found : Instance)

namespace CallArgument

/-- The bound arguments among some values. -/
def arguments? (values : List CallArgument) : Option ArgumentSet :=
  values.findSome? fun value =>
    match value with
    | .arguments bound => some bound
    | _ => none

/-- The state of the first context of a type among some values. -/
def context? (type : Capability) (values : List CallArgument) : Option Value :=
  values.findSome? fun value =>
    match value with
    | .context found => if type.matches found then some found.state else none
    | _ => none

/-- The first validator among some values. -/
def validator? (values : List CallArgument) : Option Validator :=
  values.findSome? fun value =>
    match value with
    | .validator current => some current
    | _ => none

/-- The state of the first provided instance of a type among some values. -/
def capability? (type : Capability) (values : List CallArgument) : Option Value :=
  values.findSome? fun value =>
    match value with
    | .capability found => if type.matches found then some found.state else none
    | _ => none

/-- Puts another argument set in the place of the bound arguments. -/
def replaceArguments (bound : ArgumentSet) (values : List CallArgument) : List CallArgument :=
  values.map fun value =>
    match value with
    | .arguments _ => .arguments bound
    | other => other

/-- The summary of an instance passed to a procedure, which does not show the instance. -/
def summary : CallArgument → String
  | .arguments _ => "Arguments(..)"
  | .context _ => "Context(..)"
  | .validator _ => "Validator(..)"
  | .capability _ => "Capability(..)"

end CallArgument

/-- The reply of a procedure: a value or the text of its failure, and the errors that it
    records. -/
structure Reply where
  result : Except String Value
  reported : List String

/-- A procedure, given the state of its instance and a value for each parameter. An
    asynchronous one starts when its invocation is awaited. -/
structure Procedure where
  declaring : Capability
  isAsync : Bool
  body : Value → List CallArgument → Reply

/-- The summary of a procedure: its mode and the capability that it is declared on. -/
def Procedure.summary (procedure : Procedure) : String :=
  (if procedure.isAsync then "Async" else "Sync") ++ " \x7b declaring: "
    ++ procedure.declaring.shortName ++ ", .. \x7d"

/-- What an argument validator sees. -/
structure ValidationContext where
  mutation : String
  arguments : ArgumentSet
  errors : List String

/-- What an argument validator leaves behind: the arguments and the errors that it adds. -/
structure Verdict where
  arguments : ArgumentSet
  added : List String

/-- A step of argument validation. -/
abbrev ArgumentValidator := ValidationContext → Verdict

namespace ValidationContext

/-- Runs one validator. -/
def step (context : ValidationContext) (validator : ArgumentValidator) : ValidationContext :=
  let verdict := validator context
  { context with arguments := verdict.arguments, errors := context.errors ++ verdict.added }

/-- Runs validators in order. All of them run, whatever errors there are. -/
def run (context : ValidationContext) (validators : List ArgumentValidator) : ValidationContext :=
  validators.foldl step context

end ValidationContext

end StagedQuery
