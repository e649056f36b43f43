import StagedQuery.Mutation.Declaration

/-!
# Invoking mutations

Without a context nothing is invoked and there is no result. With one, the
arguments are bound, a value is found for each parameter, the argument validators
run, and an instance of the declaring type is found: the bound one, else a
provided one, else the default. Only then is the procedure called, once. The first
of these steps that fails decides the fault.

A synchronous procedure runs at once; an asynchronous one runs when the pending
invocation is awaited.
-/

namespace StagedQuery

/-- What a finished invocation leaves behind. -/
structure Completion where
  result : Except MutationFault (Option Value)
  log : List Event
  validator : Validator

/-- An invocation that was started. -/
inductive Invocation where
  | ready (completion : Completion)
  /-- The procedure has not started; awaiting it leads to the completion. -/
  | pending (completion : Completion)

namespace Invocation

/-- The completion that awaiting leads to. -/
def await : Invocation → Completion
  | .ready completion => completion
  | .pending completion => completion

/-- The completion, if it is there without awaiting. -/
def ready? : Invocation → Option Completion
  | .ready completion => some completion
  | .pending _ => none

end Invocation

/-- Starts a procedure on an instance. An instance of another type is refused. -/
def Procedure.call (procedure : Procedure) (found : Instance) (values : List CallArgument)
    (validator : Validator) : Completion :=
  if procedure.declaring.matches found then
    let reply := procedure.body found.state values
    { result := (reply.result.map some).mapError .procedure
      log := [.procedure procedure.declaring found.state]
      validator :=
        if (CallArgument.validator? values).isSome then
          ⟨validator.messages ++ reply.reported⟩
        else validator }
  else
    { result := .error (.procedure
        ("expected an instance of `" ++ procedure.declaring.shortName ++ "`"))
      log := []
      validator := validator }

namespace Mutation

/-- Whether a mutation returns a list. -/
def returnsList (mutation : Mutation) : Bool :=
  mutation.returns.isList

/-- Asks a provider, if there is one. -/
def resolve (mutation : Mutation) (provider : Option Provider) (type : Capability) :
    Except MutationFault Instance :=
  match provider.bind (· type) with
  | some found => .ok found
  | none => .error (.missingCapability mutation.name type)

/-- The value for one parameter. -/
def valueFor (mutation : Mutation) (context : Instance) (bound : ArgumentSet)
    (validator : Validator) (provider : Option Provider) :
    Parameter → Except MutationFault CallArgument
  | .arguments => .ok (.arguments bound)
  | .validator => .ok (.validator validator)
  | .context type =>
    if type.matches context then .ok (.context context)
    else (mutation.resolve provider type).map .context
  | .capability type => (mutation.resolve provider type).map .capability

/-- Binds the arguments, if the mutation declares any. -/
def bindArguments (mutation : Mutation) (request : Request) (supplied : Option Variables) :
    Except MutationFault ArgumentSet :=
  if mutation.hasArguments then
    (ArgumentSet.bind mutation.name mutation.bindings request supplied).mapError .arguments
  else .ok .empty

/-- Runs the argument validators and puts the arguments that they leave in their place. -/
def validate (mutation : Mutation) (bound : ArgumentSet) (values : List CallArgument) :
    Except MutationFault (List CallArgument) :=
  if mutation.validators.isEmpty then .ok values
  else
    let context := (ValidationContext.mk mutation.name bound []).run mutation.validators
    if context.errors.isEmpty then .ok (CallArgument.replaceArguments context.arguments values)
    else .error (.validation context.errors)

/-- The instance on which the procedure runs. -/
def declaringInstance (mutation : Mutation) (provider : Option Provider) :
    Except MutationFault Instance :=
  let declaring := mutation.procedure.declaring
  match (mutation.instance?.or (provider.bind (· declaring))).or mutation.defaultInstance? with
  | some found => .ok found
  | none => .error (.missingInstance mutation.name declaring)

/-- Everything that happens before the procedure is called. -/
def prepare (mutation : Mutation) (context : Instance) (request : Request) (validator : Validator)
    (provider : Option Provider) (supplied : Option Variables) :
    Except MutationFault (Instance × List CallArgument) := do
  let bound ← mutation.bindArguments request supplied
  let values ← mutation.parameters.mapM (mutation.valueFor context bound validator provider)
  let values ← mutation.validate bound values
  let found ← mutation.declaringInstance provider
  pure (found, values)

/-- Invokes a mutation. -/
def invoke (mutation : Mutation) (context : Option Instance) (request : Request)
    (validator : Validator) (provider : Option Provider) (supplied : Option Variables) :
    Invocation :=
  match context with
  | none => .ready ⟨.ok none, [], validator⟩
  | some context =>
    match mutation.prepare context request validator provider supplied with
    | .error fault => .ready ⟨.error fault, [], validator⟩
    | .ok (found, values) =>
      let completion := mutation.procedure.call found values validator
      if mutation.procedure.isAsync then .pending completion else .ready completion

end Mutation

end StagedQuery
