import StagedQuery.Query

/-!
# Executing operations and mutations

Executing an operation compiles its query fields and runs them. Executing a
mutation compiles its selection first, then invokes the procedure, and runs the
selection over the result only if the procedure returned one and no error is
recorded on the validator afterwards.
-/

namespace StagedQuery

/-- A finished execution: its result, the calls that were started and the validator
    afterwards. -/
structure Execution where
  result : Except Fault (Option Value)
  log : List Event
  validator : Validator

namespace SelectionTree

/-- Executes the query fields of an operation over a root value. -/
def execute (tree : SelectionTree) (noExecution : Bool) (root : Value) (provider : Provider) :
    Drawing (Outcome (Option Value)) := do
  let query ← tree.compile noExecution
  pure (query.execute root provider)

/-- Runs the selection of a mutation over what the procedure returned. The value is an
    object with one member, named after the mutation. -/
def selectResult (query : Query) (name : String) (completion : Completion) (provider : Provider) :
    Execution :=
  match completion.result with
  | .error fault => ⟨.error (.mutation fault), completion.log, completion.validator⟩
  | .ok result? =>
    if completion.validator.hasErrors then
      ⟨.error (.mutation (.validation completion.validator.messages)), completion.log,
        completion.validator⟩
    else
      match result? with
      | none => ⟨.ok none, completion.log, completion.validator⟩
      | some result =>
        let outcome := query.execute result provider
        { result := match outcome.result with
            | .error fault => .error (.execution fault)
            | .ok value => .ok (value.map fun selected => .object [(name, selected)])
          log := completion.log ++ outcome.log
          validator := completion.validator }

/-- Executes the mutation at an address. -/
def executeMutation (tree : SelectionTree) (address : Address) (noExecution : Bool)
    (context : Option Instance) (validator : Validator) (provider : Provider) :
    Drawing Execution :=
  match tree.mutation? address with
  | .error fault => pure ⟨.error (.compile fault), [], validator⟩
  | .ok selection => do
    match ← tree.compileMutation address noExecution with
    | .error fault => pure ⟨.error (.compile fault), [], validator⟩
    | .ok query =>
      let invocation := selection.mutation.invoke context selection.request validator
        (some provider) selection.supplied?
      pure (selectResult query selection.mutation.name invocation.await provider)

end SelectionTree

end StagedQuery
