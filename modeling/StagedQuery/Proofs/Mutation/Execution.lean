import StagedQuery.Execution
import StagedQuery.Proofs.Mutation.Invocation
import StagedQuery.Proofs.Selection.ClosedStages
import StagedQuery.Proofs.Selection.Inlined

/-!
# Effects of an execution

Executing a mutation has up to two kinds of effects. The invocation starts at most the
procedure; the selection calls services and nothing else. The selection is run only after the
procedure, over what it returned, and only if no error is recorded by then. So nothing that
the selection calls comes before the procedure or after a failure of it.

An execution without execution runs no stage, so it calls no service and yields no value. But
invoking a mutation is no stage: the procedure is started nevertheless.
-/

namespace StagedQuery

/-- A call of a service. -/
def Event.IsService : Event → Prop
  | .service _ _ _ => True
  | .procedure _ _ => False

/-- A call of a procedure. -/
def Event.IsProcedure : Event → Prop
  | .service _ _ _ => False
  | .procedure _ _ => True

/-! ## The invocation -/

namespace Mutation

/-- An invocation starts at most the procedure, and it starts it if there is a result. -/
theorem log_invoke (mutation : Mutation) (context : Option Instance) (request : Request)
    (validator : Validator) (provider : Option Provider) (supplied : Option Variables) :
    let completion := (mutation.invoke context request validator provider supplied).await
    completion.log.length ≤ 1 ∧ (∀ event ∈ completion.log, event.IsProcedure) ∧
      ∀ value, completion.result = .ok (some value) → completion.log.length = 1 := by
  intro completion
  have called (found : Instance) (values : List CallArgument) :
      let completion := mutation.procedure.call found values validator
      completion.log.length ≤ 1 ∧ (∀ event ∈ completion.log, event.IsProcedure) ∧
        ∀ value, completion.result = .ok (some value) → completion.log.length = 1 := by
    unfold Procedure.call
    split <;> simp [Event.IsProcedure]
  have ended : (completion.log = [] ∧ ∀ value, completion.result ≠ .ok (some value)) ∨
      ∃ found values, completion = mutation.procedure.call found values validator := by
    simp only [completion, invoke]
    split
    · exact .inl ⟨rfl, by simp [Invocation.await]⟩
    · split
      · exact .inl ⟨rfl, by simp [Invocation.await]⟩
      · rename_i found values prepared
        right
        refine ⟨found, values, ?_⟩
        split <;> rfl
  rcases ended with ⟨silent, nothing⟩ | ⟨found, values, same⟩
  · refine ⟨by simp [silent], by simp [silent], ?_⟩
    intro value returned
    exact absurd returned (nothing value)
  · rw [same]
    exact called found values

end Mutation

/-! ## The selection -/

/-- Calls of services, and any fault. -/
def Effects.services : Effects where
  calls := Event.IsService
  faults _ := True
  typeMismatch _ _ _ := trivial
  conversion _ _ := trivial

/-- A stage calls services and nothing else. -/
theorem Executable.within_runWith (executable : Executable) (root supplied : Value)
    (provider : Provider) :
    (executable.runWith root supplied provider).Within Effects.services := by
  apply Expr.evaluate_within
  constructor
  · intro slot free unbound
    exact trivial
  · intro node inside capability calls
    exact ⟨fun _ _ => trivial, fun _ => trivial, fun _ _ => trivial⟩

namespace SelectionTree

variable {tree : SelectionTree} {practice : Practice} {supply : Nat}

/-- A query of a tree that is compiled with execution has a value or fails, and calls services
    and nothing else. -/
theorem exists_runWith_query (tree : SelectionTree) (first : Placeholder × Expr)
    (second? : Option (Placeholder × Expr)) (root supplied : Value) (provider : Provider) :
    ∃ outcome : Outcome Value,
      (tree.query false first second?).runWith root supplied provider = some <$> outcome ∧
      ∀ event ∈ outcome.log, event.IsService := by
  have stage (slot : Placeholder) (expr : Expr) (root : Value) :=
    ((Executable.ofExpr slot expr).withVariables tree.variablesSlot).within_runWith
      root supplied provider
  cases second? with
  | none => exact ⟨_, (map_eq_pure_bind _ _).symm, (stage first.1 first.2 root).log⟩
  | some second =>
    refine ⟨do
      let value ← ((Executable.ofExpr first.1 first.2).withVariables tree.variablesSlot).runWith
        root supplied provider
      ((Executable.ofExpr second.1 second.2).withVariables tree.variablesSlot).runWith
        value supplied provider, ?_, ?_⟩
    · rw [map_bind]
      rfl
    · exact ((stage first.1 first.2 root).bind fun value => stage second.1 second.2 value).log

/-- A query that is compiled without execution yields nothing. -/
theorem runWith_query_noExecution (tree : SelectionTree) (first : Placeholder × Expr)
    (second? : Option (Placeholder × Expr)) (root supplied : Value) (provider : Provider) :
    (tree.query true first second?).runWith root supplied provider = pure none := rfl

/-- The selection of a mutation is compiled to a query of the tree. -/
theorem exists_query_of_compileSelection (tree : SelectionTree) (outline : Outline)
    (name : String) (result : Placeholder) (noExecution : Bool) :
    Drawing.Yields (fun query => ∃ first second?, query = tree.query noExecution first second?)
      (tree.compileSelection outline name result noExecution) := by
  have single : Drawing.Yields
      (fun query => ∃ first second?, query = tree.query noExecution first second?) (do
        let expr ← ownContribution outline name .full
        pure (tree.query noExecution (result, expr.getD (.read result)) none)) :=
    (Drawing.yields_true _).bind fun expr _ => Drawing.yields_pure ⟨_, _, rfl⟩
  unfold compileSelection
  split
  · refine (Drawing.yields_true _).bind fun pure? _ => ?_
    cases pure? with
    | none => exact single
    | some pureExpr =>
      exact (Drawing.yields_true _).bind fun merged _ =>
        (Drawing.yields_true _).bind fun expr _ => Drawing.yields_pure ⟨_, _, rfl⟩
  · exact single

/-- The mutation at the address of a field is the one that the field selects. -/
theorem mutation?_of_stored {address : Address} {field : Field} {selection : MutationSelection}
    (stored : tree.field? address = some field) (kind : field.kind = .mutation selection) :
    tree.mutation? address = .ok selection := by
  simp only [mutation?, stored, kind]

/-- Other fields select no mutation. -/
theorem mutation?_of_isMutation_eq_false {address : Address} {field : Field}
    (stored : tree.field? address = some field) (plain : field.isMutation = false) :
    tree.mutation? address = .error (.notAMutation field.name) := by
  simp only [mutation?, stored]
  split
  · rename_i selection kind
    simp [Field.isMutation, kind] at plain
  · rfl

/-- A mutation that is found is compiled to a query of the tree. -/
theorem compileMutation_of_mutation? {address : Address} {selection : MutationSelection}
    (selected : tree.mutation? address = .ok selection) (noExecution : Bool) (supply : Nat) :
    ∃ first second?, (tree.compileMutation address noExecution supply).1 =
      .ok (tree.query noExecution first second?) := by
  cases stored : tree.field? address with
  | none => simp [mutation?, stored] at selected
  | some field =>
    obtain ⟨outline, outlined⟩ : ∃ outline, tree.outline? address = some outline :=
      exists_outlineWithin stored _ _
    obtain ⟨first, second?, same⟩ := tree.exists_query_of_compileSelection outline
      selection.mutation.name selection.result noExecution supply
    refine ⟨first, second?, ?_⟩
    simp only [compileMutation, selected, outlined, Drawing.run_map, same]

/-! ## The execution -/

/-- How the execution of a mutation ends, from what the invocation leaves behind and what its
    selection does with what the procedure returned. -/
inductive Answers (completion : Completion) (name : String) (select : Value → Outcome Value) :
    Execution → Prop where
  | refused {fault : MutationFault} (failed : completion.result = .error fault) :
      Answers completion name select
        ⟨.error (.mutation fault), completion.log, completion.validator⟩
  | invalid {returned? : Option Value} (returned : completion.result = .ok returned?)
      (recorded : completion.validator.messages ≠ []) :
      Answers completion name select
        ⟨.error (.mutation (.validation completion.validator.messages)), completion.log,
          completion.validator⟩
  | nothing (returned : completion.result = .ok none)
      (clean : completion.validator.messages = []) :
      Answers completion name select ⟨.ok none, completion.log, completion.validator⟩
  | failed {value : Value} {fault : ExecutionFault}
      (returned : completion.result = .ok (some value))
      (clean : completion.validator.messages = [])
      (fails : (select value).result = .error fault) :
      Answers completion name select
        ⟨.error (.execution fault), completion.log ++ (select value).log, completion.validator⟩
  | selected {value one : Value} (returned : completion.result = .ok (some value))
      (clean : completion.validator.messages = [])
      (succeeds : (select value).result = .ok one) :
      Answers completion name select
        ⟨.ok (some (.object [(name, one)])), completion.log ++ (select value).log,
          completion.validator⟩

/-- Running the selection answers, whatever the query is, as long as it has a value or fails. -/
theorem answers_selectResult {query : Query} {provider : Provider} {select : Value → Outcome Value}
    (runs : ∀ value, query.execute value provider = some <$> select value) (name : String)
    (completion : Completion) :
    Answers completion name select (selectResult query name completion provider) := by
  unfold selectResult
  cases returned : completion.result with
  | error fault => exact .refused returned
  | ok returned? =>
    by_cases clean : completion.validator.messages = []
    · have none : completion.validator.hasErrors = false := by simp [Validator.hasErrors, clean]
      simp only [none]
      cases returned? with
      | none => exact .nothing returned clean
      | some value =>
        simp only [runs value, Outcome.map_eq_mk]
        cases ended : (select value).result with
        | error fault => exact .failed returned clean ended
        | ok one => exact .selected returned clean ended
    · have some : completion.validator.hasErrors = true := by simp [Validator.hasErrors, clean]
      simp only [some, if_true]
      exact .invalid returned clean

/-- A query that yields nothing adds nothing to what the invocation leaves behind. -/
theorem selectResult_of_nothing {query : Query} {provider : Provider}
    (yields : ∀ value, query.execute value provider = pure none) (name : String)
    (completion : Completion) :
    (selectResult query name completion provider).log = completion.log ∧
      ∀ value, (selectResult query name completion provider).result = .ok value → value = none := by
  unfold selectResult
  split
  · exact ⟨rfl, by simp⟩
  · split
    · exact ⟨rfl, by simp⟩
    · split
      · exact ⟨rfl, by rintro _ ⟨⟩; rfl⟩
      · simp only [yields]
        exact ⟨List.append_nil _, by rintro _ ⟨⟩; rfl⟩

/-- Only the selection adds to what the invocation has started, and only after a result
    without errors. -/
theorem Answers.log {completion : Completion} {name : String} {select : Value → Outcome Value}
    {execution : Execution} (answers : Answers completion name select execution)
    (services : ∀ value, ∀ event ∈ (select value).log, event.IsService) :
    ∃ calls, execution.log = completion.log ++ calls ∧ (∀ event ∈ calls, event.IsService) ∧
      (calls ≠ [] → ∃ value, completion.result = .ok (some value) ∧
        completion.validator.messages = [] ∧ calls = (select value).log) := by
  cases answers with
  | refused | invalid | nothing => exact ⟨[], by simp, by simp, by simp⟩
  | failed returned clean | selected returned clean =>
    exact ⟨_, rfl, services _, fun _ => ⟨_, returned, clean, rfl⟩⟩

/-- Executing a mutation. A field that is no mutation fails at once. Otherwise the invocation
    starts at most one procedure; then the selection calls services, if it runs at all, which
    takes a result of the procedure and a validator without errors; and the answer is that of
    the first of these steps that decides it. -/
theorem Built.executeMutation_ordered (built : tree.Built practice supply) (acyclic : tree.Acyclic)
    {address : Address} {field : Field} (stored : tree.field? address = some field)
    (context : Option Instance) (validator : Validator) (provider : Provider)
    (compileSupply : Nat) :
    let execution :=
      (tree.executeMutation address false context validator provider compileSupply).1
    tree.compileMutation? address false = some (tree.compileMutation address false) ∧
    (field.isMutation = false →
      execution = ⟨.error (.compile (.notAMutation field.name)), [], validator⟩) ∧
    ∀ selection, field.kind = .mutation selection →
      let completion := (selection.mutation.invoke context selection.request validator
        (some provider) selection.supplied?).await
      ∃ query select calls,
        (tree.compileMutation address false compileSupply).1 = .ok query ∧
        (∀ value, query.execute value provider = some <$> select value) ∧
        Answers completion field.name select execution ∧
        execution.log = completion.log ++ calls ∧
        completion.log.length ≤ 1 ∧ (∀ event ∈ completion.log, event.IsProcedure) ∧
        (∀ event ∈ calls, event.IsService) ∧
        (calls ≠ [] → completion.log.length = 1 ∧ ∃ value,
          completion.result = .ok (some value) ∧ completion.validator.messages = [] ∧
          calls = (select value).log) := by
  intro execution
  refine ⟨acyclic.compileMutation? address false, ?_, ?_⟩
  · intro plain
    simp only [execution, executeMutation, mutation?_of_isMutation_eq_false stored plain]
    rfl
  · intro selection kind completion
    have selected := mutation?_of_stored stored kind
    obtain ⟨first, second?, compiled⟩ :=
      compileMutation_of_mutation? selected false compileSupply
    have ran (value : Value) :=
      tree.exists_runWith_query first second? value tree.bound.toValue provider
    choose select runs services using ran
    have same : execution = selectResult (tree.query false first second?) field.name
        completion provider := by
      simp only [execution, executeMutation, selected, Drawing.run_bind, compiled,
        (built.mutation_drawn stored kind).1]
      rfl
    have answers : Answers completion field.name select execution := by
      rw [same]
      exact answers_selectResult runs field.name completion
    obtain ⟨calls, logged, only, after⟩ := answers.log services
    obtain ⟨once, procedures, started⟩ := selection.mutation.log_invoke context selection.request
      validator (some provider) selection.supplied?
    refine ⟨_, select, calls, compiled, runs, answers, logged, once, procedures, only, ?_⟩
    intro some
    obtain ⟨value, returned, clean, same⟩ := after some
    exact ⟨started value returned, value, returned, clean, same⟩

/-- A provider of an instance that procedures of films are declared on, and of ratings. -/
def filmProvider : Provider := fun type =>
  if type = ⟨"MovieMutations"⟩ then
    some ⟨⟨"MovieMutations"⟩, .object [("id", .int 7), ("title", .string "Alien")]⟩
  else if type = ⟨"Ratings"⟩ then some ⟨⟨"Ratings"⟩, .int 5⟩
  else none

/-- Adding a film starts the procedure first and then rates the film that it returned. -/
theorem executeMutation_addedFilms :
    let execution := (addedFilms.executeMutation ⟨4⟩ false (some ⟨⟨"Context"⟩, .null⟩) .empty
      filmProvider 6).1
    execution.result = .ok (some (.object [("addFilm",
        .object [("title", .string "Alien"), ("rating", .int 5)])])) ∧
      ∃ calls, calls ≠ [] ∧ (∀ event ∈ calls, event.IsService) ∧
        execution.log = .procedure ⟨"MovieMutations"⟩
          (.object [("id", .int 7), ("title", .string "Alien")]) :: calls := by
  intro execution
  obtain ⟨-, -, ordered⟩ := @Built.executeMutation_ordered _ _ _ built_addedFilms
    acyclic_addedFilms ⟨4⟩ _ rfl (some ⟨⟨"Context"⟩, .null⟩) .empty filmProvider 6
  obtain ⟨query, select, calls, -, -, -, logged, -, -, services, -⟩ := ordered _ rfl
  refine ⟨by rfl, calls, ?_, services, logged⟩
  rintro rfl
  cases congrArg List.length logged

/-- Without execution no service is called and there is no value. The procedure of a mutation
    is started all the same, exactly as the invocation starts it. -/
theorem execution_without_stages (tree : SelectionTree) (address : Address)
    (context : Option Instance) (validator : Validator) (provider : Provider) (root : Value)
    (compileSupply : Nat) :
    let execution :=
      (tree.executeMutation address true context validator provider compileSupply).1
    (tree.execute true root provider compileSupply).1 = pure none ∧
    (∀ value, execution.result = .ok value → value = none) ∧
    (∀ event ∈ execution.log, event.IsProcedure) ∧
    (∀ fault, tree.mutation? address = .error fault →
      execution = ⟨.error (.compile fault), [], validator⟩) ∧
    ∀ selection, tree.mutation? address = .ok selection →
      execution.log = (selection.mutation.invoke context selection.request validator
        (some provider) selection.supplied?).await.log := by
  intro execution
  refine ⟨runWith_compile_noExecution _ _ _ _ _, ?_⟩
  cases selected : tree.mutation? address with
  | error fault =>
    have refused : execution = ⟨.error (.compile fault), [], validator⟩ := by
      simp only [execution, executeMutation, selected]
      rfl
    rw [refused]
    refine ⟨by simp, by simp, ?_, ?_⟩
    · rintro _ ⟨⟩
      rfl
    · rintro _ ⟨⟩
  | ok selection =>
    obtain ⟨first, second?, compiled⟩ := compileMutation_of_mutation? selected true compileSupply
    obtain ⟨-, procedures, -⟩ := selection.mutation.log_invoke context selection.request validator
      (some provider) selection.supplied?
    obtain ⟨logged, nothing⟩ := selectResult_of_nothing
      (fun value => tree.runWith_query_noExecution first second? value tree.bound.toValue provider)
      selection.mutation.name (selection.mutation.invoke context selection.request validator
        (some provider) selection.supplied?).await
    have same : execution = selectResult (tree.query true first second?) selection.mutation.name
        (selection.mutation.invoke context selection.request validator (some provider)
          selection.supplied?).await provider := by
      simp only [execution, executeMutation, selected, Drawing.run_bind, compiled]
      rfl
    rw [same]
    refine ⟨nothing, ?_, by simp, ?_⟩
    · rw [logged]
      exact procedures
    · rintro _ ⟨⟩
      exact logged

/-- Adding a film without execution: no value, but the procedure is started. -/
theorem procedure_started_addedFilms :
    let execution := (addedFilms.executeMutation ⟨4⟩ true (some ⟨⟨"Context"⟩, .null⟩) .empty
      filmProvider 6).1
    execution.result = .ok none ∧
      execution.log = [.procedure ⟨"MovieMutations"⟩
        (.object [("id", .int 7), ("title", .string "Alien")])] := by
  intro execution
  obtain ⟨-, -, -, -, started⟩ := execution_without_stages addedFilms ⟨4⟩
    (some ⟨⟨"Context"⟩, .null⟩) .empty filmProvider .null 6
  exact ⟨by rfl, started _ rfl⟩

end SelectionTree

end StagedQuery
