import Mathlib.Data.List.Forall2
import StagedQuery.Mutation.Invocation

/-!
# The protocol of an invocation

Whatever can keep a procedure from being called is an obstacle: arguments that do not bind,
a parameter for which nothing is found, errors of the argument validators, and the lack of
an instance to run on. Obstacles are looked for here one apart from the other, without an
order in which they are met.

An invocation with a context calls the procedure exactly where there is no obstacle, and
then once. Otherwise the first obstacle is the fault. That provided and default instances
are of the type that they are asked for is left to the provider; of a bound instance the
declaration makes sure.
-/

namespace StagedQuery

/-- A provider that answers with instances of what it is asked for. -/
def Provider.Honest (provider : Provider) : Prop :=
  ∀ type found, provider type = some found → type.matches found = true

/-! ## Argument validators -/

namespace ValidationContext

variable {context last : ValidationContext} {validator : ArgumentValidator}
  {validators : List ArgumentValidator}

/-- What validators leave behind that run one after the other. Each of them sees the arguments
    that the one before has left and all errors so far. -/
inductive Passes : ValidationContext → List ArgumentValidator → ValidationContext → Prop where
  | done (context : ValidationContext) : Passes context [] context
  | next {context last : ValidationContext} {validator : ArgumentValidator}
      {validators : List ArgumentValidator}
      (rest : Passes
        ⟨context.mutation, (validator context).arguments,
          context.errors ++ (validator context).added⟩
        validators last) :
      Passes context (validator :: validators) last

/-- All validators run, and they leave behind one context. -/
theorem passes_iff : Passes context validators last ↔ context.run validators = last := by
  constructor
  · intro passes
    induction passes with
    | done context => rfl
    | next rest ih => exact ih
  · rintro rfl
    induction validators generalizing context with
    | nil => exact .done context
    | cons validator rest ih => exact .next (@ih (context.step validator))

end ValidationContext

namespace Mutation

variable {mutation : Mutation} {context : Instance} {request : Request} {validator : Validator}
  {provider : Option Provider} {supplied : Option Variables} {bound left : ArgumentSet}
  {parameter : Parameter} {parameters : List Parameter} {values : List CallArgument}

/-! ## Values for parameters -/

/-- What a parameter receives, given the context, the arguments, the validator and the
    provider. -/
inductive Receives (context : Instance) (bound : ArgumentSet) (validator : Validator)
    (provider : Option Provider) : Parameter → CallArgument → Prop where
  | arguments : Receives context bound validator provider .arguments (.arguments bound)
  | validator : Receives context bound validator provider .validator (.validator validator)
  | context {type : Capability} (own : type.matches context = true) :
      Receives context bound validator provider (.context type) (.context context)
  | resolved {type : Capability} {found : Instance} (foreign : type.matches context = false)
      (answered : provider.bind (· type) = some found) :
      Receives context bound validator provider (.context type) (.context found)
  | capability {type : Capability} {found : Instance}
      (answered : provider.bind (· type) = some found) :
      Receives context bound validator provider (.capability type) (.capability found)

/-- The type of which no instance is found for a parameter. -/
def unresolved? (context : Instance) (provider : Option Provider) : Parameter → Option Capability
  | .arguments => none
  | .validator => none
  | .context type =>
    if type.matches context || (provider.bind (· type)).isSome then none else some type
  | .capability type => if (provider.bind (· type)).isSome then none else some type

/-- A parameter has a value, or a capability is missing for it. -/
theorem valueFor_cases (mutation : Mutation) (context : Instance) (bound : ArgumentSet)
    (validator : Validator) (provider : Option Provider) (parameter : Parameter) :
    (unresolved? context provider parameter = none ∧
      ∃ value, mutation.valueFor context bound validator provider parameter = .ok value ∧
        Receives context bound validator provider parameter value) ∨
    ∃ type, unresolved? context provider parameter = some type ∧
      mutation.valueFor context bound validator provider parameter =
        .error (.missingCapability mutation.name type) := by
  cases parameter with
  | arguments => exact .inl ⟨rfl, _, rfl, .arguments⟩
  | validator => exact .inl ⟨rfl, _, rfl, .validator⟩
  | context type =>
    by_cases own : type.matches context = true
    · left
      exact ⟨by simp [unresolved?, own], _, by simp [valueFor, own], .context own⟩
    · have foreign : type.matches context = false := by simpa using own
      cases answered : provider.bind (· type) with
      | some found =>
        left
        refine ⟨by simp [unresolved?, answered], .context found, ?_, .resolved foreign answered⟩
        simp [valueFor, foreign, resolve, answered, Except.map]
      | none =>
        right
        refine ⟨type, by simp [unresolved?, foreign, answered], ?_⟩
        simp [valueFor, foreign, resolve, answered, Except.map]
  | capability type =>
    cases answered : provider.bind (· type) with
    | some found =>
      left
      refine ⟨by simp [unresolved?, answered], .capability found, ?_, .capability answered⟩
      simp [valueFor, resolve, answered, Except.map]
    | none =>
      right
      refine ⟨type, by simp [unresolved?, answered], ?_⟩
      simp [valueFor, resolve, answered, Except.map]

/-- All parameters have values, in their order, or the first one without a value decides the
    fault. -/
theorem mapM_valueFor_cases (mutation : Mutation) (context : Instance) (bound : ArgumentSet)
    (validator : Validator) (provider : Option Provider) (parameters : List Parameter) :
    (parameters.filterMap (unresolved? context provider) = [] ∧
      ∃ values, parameters.mapM (mutation.valueFor context bound validator provider) = .ok values ∧
        List.Forall₂ (Receives context bound validator provider) parameters values) ∨
    ∃ type rest, parameters.filterMap (unresolved? context provider) = type :: rest ∧
      parameters.mapM (mutation.valueFor context bound validator provider) =
        .error (.missingCapability mutation.name type) := by
  induction parameters with
  | nil => exact .inl ⟨rfl, [], rfl, .nil⟩
  | cons first rest ih =>
    rw [List.mapM_cons]
    rcases mutation.valueFor_cases context bound validator provider first with
      ⟨resolved, value, found, receives⟩ | ⟨type, missing, fault⟩
    · rw [found, List.filterMap_cons_none resolved]
      rcases ih with ⟨all, values, others, each⟩ | ⟨type, later, missing, fault⟩
      · left
        refine ⟨all, value :: values, ?_, .cons receives each⟩
        rw [others]
        rfl
      · right
        refine ⟨type, later, missing, ?_⟩
        rw [fault]
        rfl
    · right
      rw [fault, List.filterMap_cons_some missing]
      exact ⟨type, _, rfl, rfl⟩

/-- Other arguments are received in the place of the bound ones, and nothing else changes. -/
theorem receives_replaceArguments
    (each : List.Forall₂ (Receives context bound validator provider) parameters values)
    (left : ArgumentSet) :
    List.Forall₂ (Receives context left validator provider) parameters
      (CallArgument.replaceArguments left values) := by
  induction each with
  | nil => exact .nil
  | cons receives rest ih =>
    refine .cons ?_ ih
    cases receives with
    | arguments => exact .arguments
    | validator => exact .validator
    | context own => exact .context own
    | resolved foreign answered => exact .resolved foreign answered
    | capability answered => exact .capability answered

/-- The procedure gets hold of the validator exactly if one of its parameters receives it. -/
theorem validator?_isSome_iff
    (each : List.Forall₂ (Receives context bound validator provider) parameters values) :
    (CallArgument.validator? values).isSome = true ↔ .validator ∈ parameters := by
  induction each with
  | nil => simp [CallArgument.validator?]
  | cons receives rest ih =>
    unfold CallArgument.validator? at ih ⊢
    cases receives <;> simp [ih]

/-! ## Obstacles -/

/-- The instance on which the procedure would run: the bound one, else a provided one, else the
    default. -/
def candidate? (mutation : Mutation) (provider : Option Provider) : Option Instance :=
  (mutation.instance?.or (provider.bind (· mutation.procedure.declaring))).or
    mutation.defaultInstance?

/-- What the argument validators leave behind if the arguments bind. -/
def validated? (mutation : Mutation) (request : Request) (supplied : Option Variables) :
    Option ValidationContext :=
  match mutation.bindArguments request supplied with
  | .ok bound => some ((ValidationContext.mk mutation.name bound []).run mutation.validators)
  | .error _ => none

/-- Whatever keeps the procedure from being called: first the fault of binding the arguments,
    then each parameter without a value, then the errors of the argument validators, then the
    lack of an instance. -/
def obstacles (mutation : Mutation) (context : Instance) (request : Request)
    (provider : Option Provider) (supplied : Option Variables) : List MutationFault :=
  (match mutation.bindArguments request supplied with
    | .ok _ => []
    | .error fault => [fault]) ++
  (mutation.parameters.filterMap (unresolved? context provider)).map
    (.missingCapability mutation.name) ++
  (match mutation.validated? request supplied with
    | some last => if last.errors.isEmpty then [] else [.validation last.errors]
    | none => []) ++
  (match mutation.candidate? provider with
    | some _ => []
    | none => [.missingInstance mutation.name mutation.procedure.declaring])

/-- Nothing keeps the procedure from being called: the arguments bind and the argument
    validators let them pass, all parameters have values, and there is an instance. -/
structure Clear (mutation : Mutation) (context : Instance) (request : Request)
    (provider : Option Provider) (supplied : Option Variables) : Prop where
  accepted : ∃ bound left, mutation.bindArguments request supplied = .ok bound ∧
    ValidationContext.Passes ⟨mutation.name, bound, []⟩ mutation.validators left ∧ left.errors = []
  contexts : ∀ type, Parameter.context type ∈ mutation.parameters →
    type.matches context = true ∨ ∃ found, provider.bind (· type) = some found
  capabilities : ∀ type, Parameter.capability type ∈ mutation.parameters →
    ∃ found, provider.bind (· type) = some found
  instances : ∃ found, mutation.candidate? provider = some found

/-- A call of the procedure, by what it leaves behind. -/
inductive Calls (mutation : Mutation) (context : Instance) (request : Request)
    (validator : Validator) (provider : Option Provider) (supplied : Option Variables) :
    Completion → Prop where
  | call {bound : ArgumentSet} {left : ValidationContext} {found : Instance}
      {values : List CallArgument}
      (binds : mutation.bindArguments request supplied = .ok bound)
      (passes : ValidationContext.Passes ⟨mutation.name, bound, []⟩ mutation.validators left)
      (accepted : left.errors = [])
      (receives : List.Forall₂ (Receives context left.arguments validator provider)
        mutation.parameters values)
      (chosen : mutation.candidate? provider = some found) :
      Calls mutation context request validator provider supplied
        { result :=
            ((mutation.procedure.body found.state values).result.map some).mapError .procedure
          log := [.procedure mutation.procedure.declaring found.state]
          validator :=
            if .validator ∈ mutation.parameters then
              ⟨validator.messages ++ (mutation.procedure.body found.state values).reported⟩
            else validator }

variable {completion : Completion}

/-- No type is missing exactly if each parameter that asks for an instance finds one. -/
theorem filterMap_unresolved?_eq_nil_iff :
    parameters.filterMap (unresolved? context provider) = [] ↔
      (∀ type, Parameter.context type ∈ parameters →
        type.matches context = true ∨ ∃ found, provider.bind (· type) = some found) ∧
      ∀ type, Parameter.capability type ∈ parameters →
        ∃ found, provider.bind (· type) = some found := by
  have context_iff : ∀ type, unresolved? context provider (.context type) = none ↔
      type.matches context = true ∨ ∃ found, provider.bind (· type) = some found := by
    intro type
    simp only [unresolved?, ← Option.isSome_iff_exists, Bool.or_eq_true, ite_eq_left_iff,
      reduceCtorEq, imp_false, not_not]
  have capability_iff : ∀ type, unresolved? context provider (.capability type) = none ↔
      ∃ found, provider.bind (· type) = some found := by
    intro type
    simp only [unresolved?, ← Option.isSome_iff_exists, ite_eq_left_iff, reduceCtorEq, imp_false,
      not_not]
  rw [List.filterMap_eq_nil_iff]
  constructor
  · intro resolved
    exact ⟨fun type listed => (context_iff type).mp (resolved _ listed),
      fun type listed => (capability_iff type).mp (resolved _ listed)⟩
  · rintro ⟨contexts, capabilities⟩ (_ | type | _ | type) listed
    · rfl
    · exact (context_iff type).mpr (contexts type listed)
    · rfl
    · exact (capability_iff type).mpr (capabilities type listed)

/-- Argument validation either fails with all errors of the validators, or the values go on
    with the arguments that the validators leave. -/
theorem validate_cases (mutation : Mutation)
    (each : List.Forall₂ (Receives context bound validator provider) mutation.parameters values) :
    ∃ left, ValidationContext.Passes ⟨mutation.name, bound, []⟩ mutation.validators left ∧
      ((left.errors ≠ [] ∧ mutation.validate bound values = .error (.validation left.errors)) ∨
        (left.errors = [] ∧ ∃ replaced, mutation.validate bound values = .ok replaced ∧
          List.Forall₂ (Receives context left.arguments validator provider)
            mutation.parameters replaced)) := by
  refine ⟨_, ValidationContext.passes_iff.mpr rfl, ?_⟩
  by_cases bare : mutation.validators = []
  · right
    refine ⟨by rw [bare]; rfl, values, by simp [validate, bare], ?_⟩
    rw [bare]
    exact each
  by_cases accepted :
      ((ValidationContext.mk mutation.name bound []).run mutation.validators).errors = []
  · right
    exact ⟨accepted, _, by simp [validate, bare, accepted], receives_replaceArguments each _⟩
  · left
    exact ⟨accepted, by simp [validate, bare, accepted]⟩

/-- Everything that happens before the call: either an obstacle is met, and it is the first
    one, or there is none, and all that a call needs is found. -/
theorem prepare_cases (mutation : Mutation) (context : Instance) (request : Request)
    (validator : Validator) (provider : Option Provider) (supplied : Option Variables) :
    (∃ fault rest, mutation.obstacles context request provider supplied = fault :: rest ∧
      mutation.prepare context request validator provider supplied = .error fault) ∨
    (mutation.obstacles context request provider supplied = [] ∧
      ∃ bound left found values, mutation.bindArguments request supplied = .ok bound ∧
        ValidationContext.Passes ⟨mutation.name, bound, []⟩ mutation.validators left ∧
        left.errors = [] ∧
        List.Forall₂ (Receives context left.arguments validator provider)
          mutation.parameters values ∧
        mutation.candidate? provider = some found ∧
        mutation.prepare context request validator provider supplied = .ok (found, values)) := by
  cases binds : mutation.bindArguments request supplied with
  | error fault =>
    left
    exact ⟨fault, _, by simp only [obstacles, binds]; rfl, by simp only [prepare, binds]; rfl⟩
  | ok bound =>
    rcases mutation.mapM_valueFor_cases context bound validator provider mutation.parameters with
      ⟨resolved, values, found, each⟩ | ⟨type, rest, missing, fault⟩
    swap
    · left
      refine ⟨_, _, by simp only [obstacles, binds, missing]; rfl, ?_⟩
      simp only [prepare, binds, bind, Except.bind, fault]
    obtain ⟨left, passes, outcome⟩ := mutation.validate_cases each
    have last := ValidationContext.passes_iff.mp passes
    rcases outcome with ⟨rejected, fault⟩ | ⟨accepted, replaced, goesOn, each⟩
    · left
      have met : ∃ rest, mutation.obstacles context request provider supplied =
          .validation left.errors :: rest := by
        simp [obstacles, validated?, binds, resolved, last, rejected]
      obtain ⟨rest, met⟩ := met
      refine ⟨_, rest, met, ?_⟩
      simp only [prepare, binds, bind, Except.bind, found, fault]
    · cases chosen : mutation.candidate? provider with
      | none =>
        left
        refine ⟨.missingInstance mutation.name mutation.procedure.declaring, [], ?_, ?_⟩
        · simp [obstacles, validated?, binds, resolved, last, accepted, chosen]
        · unfold candidate? at chosen
          simp only [prepare, binds, bind, Except.bind, found, goesOn, declaringInstance, chosen]
      | some owner =>
        right
        refine ⟨by simp [obstacles, validated?, binds, resolved, last, accepted, chosen],
          bound, left, owner, replaced, rfl, passes, accepted, each, rfl, ?_⟩
        unfold candidate? at chosen
        simp only [prepare, binds, bind, Except.bind, found, goesOn, declaringInstance, chosen,
          pure, Except.pure]

/-- The way is clear exactly if there is no obstacle. -/
theorem obstacles_eq_nil_iff :
    mutation.obstacles context request provider supplied = [] ↔
      mutation.Clear context request provider supplied := by
  have parameters_iff := @filterMap_unresolved?_eq_nil_iff context provider mutation.parameters
  constructor
  · intro none
    rcases mutation.prepare_cases context request .empty provider supplied with
      ⟨fault, rest, met, -⟩ | ⟨-, bound, left, found, values, binds, passes, accepted, -, chosen, -⟩
    · rw [met] at none
      cases none
    simp only [obstacles, List.append_eq_nil_iff, List.map_eq_nil_iff] at none
    obtain ⟨contexts, capabilities⟩ := parameters_iff.mp none.1.1.2
    exact ⟨⟨bound, left, binds, passes, accepted⟩, contexts, capabilities, ⟨found, chosen⟩⟩
  · rintro ⟨⟨bound, left, binds, passes, accepted⟩, contexts, capabilities, found, chosen⟩
    have resolved := parameters_iff.mpr ⟨contexts, capabilities⟩
    have last := ValidationContext.passes_iff.mp passes
    simp [obstacles, validated?, binds, resolved, last, accepted, chosen]

/-! ## The call -/

/-- On an instance of its type the procedure is called, with the values as they are. -/
theorem call_of_matches {found : Instance}
    (own : mutation.procedure.declaring.matches found = true)
    (each : List.Forall₂ (Receives context bound validator provider) mutation.parameters values) :
    mutation.procedure.call found values validator =
      { result := ((mutation.procedure.body found.state values).result.map some).mapError .procedure
        log := [.procedure mutation.procedure.declaring found.state]
        validator :=
          if .validator ∈ mutation.parameters then
            ⟨validator.messages ++ (mutation.procedure.body found.state values).reported⟩
          else validator } := by
  have sharing := validator?_isSome_iff each
  simp only [Procedure.call, own, if_true, sharing]

/-- A call starts the procedure once. -/
theorem Calls.log_length
    (calls : mutation.Calls context request validator provider supplied completion) :
    completion.log.length = 1 := by
  obtain ⟨binds, passes, accepted, receives, chosen⟩ := calls
  rfl

/-- With a context the procedure is called exactly if the way is clear, as long as every
    instance that could be chosen is of the declaring type. -/
theorem invoke_cases (mutation : Mutation) (context : Instance) (request : Request)
    (validator : Validator) (provider : Option Provider) (supplied : Option Variables)
    (fitting : ∀ found, mutation.candidate? provider = some found →
      mutation.procedure.declaring.matches found = true) :
    (mutation.Clear context request provider supplied ∧
      ∃ completion, mutation.Calls context request validator provider supplied completion ∧
        mutation.invoke (some context) request validator provider supplied =
          if mutation.procedure.isAsync then .pending completion else .ready completion) ∨
    (¬ mutation.Clear context request provider supplied ∧
      ∃ fault rest, mutation.obstacles context request provider supplied = fault :: rest ∧
        mutation.invoke (some context) request validator provider supplied =
          .ready ⟨.error fault, [], validator⟩) := by
  rw [← obstacles_eq_nil_iff]
  rcases mutation.prepare_cases context request validator provider supplied with
    ⟨fault, rest, met, refused⟩ |
      ⟨none, bound, left, found, values, binds, passes, accepted, each, chosen, prepared⟩
  · right
    refine ⟨by simp [met], fault, rest, met, ?_⟩
    simp only [invoke, refused]
  · left
    refine ⟨none, _, .call binds passes accepted each chosen, ?_⟩
    simp only [invoke, prepared, call_of_matches (fitting found chosen) each]

end Mutation

namespace MutationDeclaration

variable {declaration : MutationDeclaration} {registry registered : InputTypes}
  {schemaName : String → String} {registering : Bool} {mutation : Mutation}

/-- A mutation runs on an instance of its declaring type, provided that the provider and the
    declaration have instances of this type. -/
theorem candidate?_matches
    (built : declaration.build registry schemaName registering = .ok (mutation, registered))
    {provider : Option Provider} (honest : ∀ known, provider = some known → known.Honest)
    (fitting : ∀ found, declaration.defaultInstance? = some found →
      declaration.procedure.declaring.matches found = true)
    (found : Instance) (chosen : mutation.candidate? provider = some found) :
    mutation.procedure.declaring.matches found = true := by
  unfold build at built
  cases objected : declaration.objection? with
  | some reason =>
    rw [objected] at built
    cases built
  | none =>
    rw [objected] at built
    cases built
    simp only [Mutation.candidate?, Option.or_eq_some_iff, Option.or_eq_none_iff] at chosen
    rcases chosen with (own | ⟨-, provided⟩) | ⟨-, default⟩
    · have owned : (declaration.instance?.any fun found =>
          !declaration.procedure.declaring.matches found) = false := by
        unfold objection? at objected
        grind
      simpa [own] using owned
    · obtain ⟨known, there, answered⟩ := Option.bind_eq_some_iff.mp provided
      exact honest known there _ _ answered
    · exact fitting found default

/-- Invoking a mutation: without a context nothing happens; with one the procedure is called
    once if the way is clear, and otherwise the first obstacle is the fault. -/
theorem invoke_protocol
    (built : declaration.build registry schemaName registering = .ok (mutation, registered))
    {provider : Option Provider} (honest : ∀ known, provider = some known → known.Honest)
    (fitting : ∀ found, declaration.defaultInstance? = some found →
      declaration.procedure.declaring.matches found = true)
    (context? : Option Instance) (request : Request) (validator : Validator)
    (supplied : Option Variables) :
    let invocation := mutation.invoke context? request validator provider supplied
    (context? = none → invocation = .ready ⟨.ok none, [], validator⟩) ∧
    (∀ context, context? = some context → mutation.Clear context request provider supplied →
      ∃ completion, mutation.Calls context request validator provider supplied completion ∧
        invocation =
          if mutation.procedure.isAsync then .pending completion else .ready completion) ∧
    (∀ context, context? = some context → ¬ mutation.Clear context request provider supplied →
      ∃ fault rest, mutation.obstacles context request provider supplied = fault :: rest ∧
        invocation = .ready ⟨.error fault, [], validator⟩) ∧
    invocation.await.log.length ≤ 1 ∧
    (invocation.await.log ≠ [] ↔
      ∃ context, context? = some context ∧ mutation.Clear context request provider supplied) := by
  cases context? with
  | none => simp [Mutation.invoke, Invocation.await]
  | some context =>
    intro invocation
    rcases mutation.invoke_cases context request validator provider supplied
        (candidate?_matches built honest fitting) with
      ⟨clear, completion, calls, invoked⟩ | ⟨blocked, fault, rest, met, invoked⟩
    · have once : invocation.await.log.length = 1 := by
        rw [← calls.log_length, show invocation = _ from invoked]
        split <;> rfl
      refine ⟨nofun, ?_, ?_, Nat.le_of_eq once, ?_⟩
      · rintro _ ⟨⟩ -
        exact ⟨completion, calls, invoked⟩
      · rintro _ ⟨⟩ blocked
        exact absurd clear blocked
      · exact iff_of_true (List.ne_nil_of_length_pos (by omega)) ⟨context, rfl, clear⟩
    · have silent : invocation.await.log = [] := by
        rw [show invocation = _ from invoked]
        rfl
      refine ⟨nofun, ?_, ?_, by simp [silent], ?_⟩
      · rintro _ ⟨⟩ clear
        exact absurd clear blocked
      · rintro _ ⟨⟩ -
        exact ⟨fault, rest, met, invoked⟩
      · refine iff_of_false (· silent) ?_
        rintro ⟨_, ⟨⟩, clear⟩
        exact blocked clear

/-- A mutation that rates a film. One validator raises the rating by one, the next one refuses
    a rating above ten. -/
def rateFilm : MutationDeclaration where
  name := "rateFilm"
  procedure := ⟨⟨"Films"⟩, true, fun _ values =>
    ⟨.ok (((CallArgument.arguments? values).bind (·.value? "rating")).getD .null), ["seen"]⟩⟩
  parameters := [.context ⟨"Reader"⟩, .capability ⟨"Clock"⟩, .arguments, .validator]
  arguments? := some ⟨"RatingInput", [⟨"rating", "rating", .scalar .int ArgumentType.optional⟩]⟩
  validators :=
    [fun context => ⟨context.arguments.set "rating"
      (match context.arguments.value? "rating" with
        | some (.int rating) => .int (rating + 1)
        | _ => .null), []⟩,
    fun context => ⟨context.arguments,
      match context.arguments.value? "rating" with
      | some (.int rating) => if 10 < rating then ["too good"] else []
      | _ => []⟩]
  defaultInstance? := some ⟨⟨"Films"⟩, .null⟩

/-- A rating of eight is raised to nine and the film is rated once; a rating of ten is refused. -/
theorem invoke_rateFilm :
    ∃ mutation registered provider,
      rateFilm.build .empty id false = .ok (mutation, registered) ∧
      Provider.Honest provider ∧
      (∀ found, rateFilm.defaultInstance? = some found →
        rateFilm.procedure.declaring.matches found = true) ∧
      mutation.Clear ⟨⟨"Reader"⟩, .null⟩ ⟨[("rating", .literal (.int 8))]⟩ (some provider) none ∧
      mutation.invoke (some ⟨⟨"Reader"⟩, .null⟩) ⟨[("rating", .literal (.int 8))]⟩ .empty
          (some provider) none =
        .pending ⟨.ok (some (.int 9)), [.procedure ⟨"Films"⟩ .null], ⟨["seen"]⟩⟩ ∧
      ¬ mutation.Clear ⟨⟨"Reader"⟩, .null⟩ ⟨[("rating", .literal (.int 10))]⟩ (some provider) none ∧
      mutation.invoke (some ⟨⟨"Reader"⟩, .null⟩) ⟨[("rating", .literal (.int 10))]⟩ .empty
          (some provider) none =
        .ready ⟨.error (.validation ["too good"]), [], .empty⟩ := by
  let provider : Provider := fun type =>
    if type = ⟨"Clock"⟩ then some ⟨⟨"Clock"⟩, .int 5⟩ else none
  have honest : provider.Honest := by
    intro type found answered
    simp only [provider] at answered
    split at answered
    · rename_i same
      cases answered
      rw [same]
      decide
    · cases answered
  have fitting : ∀ found, rateFilm.defaultInstance? = some found →
      rateFilm.procedure.declaring.matches found = true := by
    rintro _ ⟨⟩
    rfl
  have protocol := fun rating : Int64 =>
    @invoke_protocol rateFilm .empty _ id false _ rfl (some provider)
      (by rintro _ ⟨⟩; exact honest) fitting (some ⟨⟨"Reader"⟩, .null⟩)
      ⟨[("rating", .literal (.int rating))]⟩ .empty none
  refine ⟨_, _, provider, rfl, honest, fitting, ?_, rfl, ?_, rfl⟩
  · obtain ⟨-, -, -, -, started⟩ := protocol 8
    obtain ⟨_, ⟨⟩, clear⟩ := started.mp (List.cons_ne_nil _ _)
    exact clear
  · obtain ⟨-, -, -, -, started⟩ := protocol 10
    exact fun clear => started.mpr ⟨_, rfl, clear⟩ rfl

end MutationDeclaration

end StagedQuery
