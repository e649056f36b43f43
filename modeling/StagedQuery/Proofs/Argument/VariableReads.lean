import StagedQuery.Evaluation
import StagedQuery.Proofs.Argument.Binding
import StagedQuery.Proofs.Argument.Coercion
import StagedQuery.Proofs.Outcome

/-!
# What the read of a variable means

Binding coerces the value of a variable. The expression of the member reads the variable
again when the query runs, but it converts scalars only. So the two agree on scalar
types, and on any other type exactly on the values that coercion leaves as they are. For
a member inside an input object the same is true of the member's own type, and a default
is never read.
-/

namespace StagedQuery

namespace ArgumentSet

variable {field : String} {request : Request} {supplied : Variables} {arguments : ArgumentSet}

/-! ## Members that come from variables -/

/-- Every member that came from a variable has the coerced value of that variable. -/
def BoundFrom (supplied : Variables) (arguments : ArgumentSet) : Prop :=
  ∀ member source, arguments.sources.value? member = some source →
    ∃ raw fitted, supplied.value? source.origin = some raw ∧
      source.type.coerce? raw = some fitted ∧ arguments.value? member = some fitted

/-- What binding records for a member: the last of its bindings that reads a variable, whose
    type and variable the record has. The member has the coerced value of the variable if that
    binding is also the last one of the member that takes anything. -/
theorem exists_reading {table : List Binding} {member : String} {source : VariableSource}
    (bound : bind field table request (some supplied) = .ok arguments)
    (known : arguments.sources.value? member = some source) :
    ∃ binding after raw fitted, LastOf (Binding.ReadsVariable request) table member binding after ∧
      source.type = binding.type ∧ supplied.value? source.origin = some raw ∧
      source.type.coerce? raw = some fitted ∧
      ∀ rest, LastOf (Binding.Takes request) table member binding rest →
        arguments.value? member = some fitted := by
  obtain ⟨-, run⟩ := bind_ok bound
  have origin : arguments.sourceOf? member = some source.origin := by rw [sourceOf?, known]; rfl
  obtain ⟨binding, after, reads, -⟩ := (sourceOf?_eq_some_iff bound _ _).mp origin
  obtain ⟨name, raw, chosen, fits, recorded⟩ := source?_of_lastOf reads run
  obtain rfl := Option.some.inj (known.symm.trans recorded)
  obtain ⟨fitted, coerced⟩ := Option.isSome_iff_exists.mp fits
  refine ⟨binding, after, raw, fitted, reads, rfl, ?_, coerced, ?_⟩
  · cases chosen with | fromVariable _ given =>
    obtain ⟨values, same, found⟩ := given
    cases same
    exact found
  · intro rest takes
    rw [(value?_of_lastOf takes chosen run).2, coerced]

/-- Binding against a table with distinct members records variables and coerced values.

    Proof: the binding that recorded the variable is the last one of its member that takes
    anything, since it is the only one. -/
theorem boundFrom_bind {table : List Binding} (distinct : (table.map Binding.member).Nodup)
    (bound : bind field table request (some supplied) = .ok arguments) :
    arguments.BoundFrom supplied := by
  intro member source known
  obtain ⟨binding, after, raw, fitted, reads, -, old, coerced, held⟩ := exists_reading bound known
  obtain ⟨before, rfl⟩ := reads.listed
  obtain ⟨name, written⟩ := reads.meets
  obtain ⟨later, takes⟩ := lastOf_of_nodup distinct (by simp)
    (show binding.Takes request from .inl written.mentions)
  rw [reads.names] at takes
  exact ⟨raw, fitted, old, coerced, held later takes⟩

/-! ## Reading them again -/

section Reading

variable {provider : Provider} {env : Environment} {slot : Placeholder} {member : String}
  {source : VariableSource}

/-- The value that reading a variable again gives for a type: scalars are converted, and
    coercion to them succeeded. -/
theorem evaluate_convertRead {type : ArgumentType} {read : Expr} {raw fitted : Value}
    (coerced : type.coerce? raw = some fitted)
    (reads : read.evaluate provider env = pure raw) :
    (convertRead type read).evaluate provider env =
      pure (if type.scalarKind?.isSome then fitted else raw) := by
  unfold convertRead
  cases scalar : type.scalarKind? with
  | none => simpa using reads
  | some kind =>
    have converted := ArgumentType.convert?_of_coerce? scalar coerced
    simp [Expr.evaluate, reads, converted]

/-- Null stays null where a read is converted. -/
theorem evaluate_convertRead_null {type : ArgumentType} {read : Expr}
    (reads : read.evaluate provider env = pure .null) :
    (convertRead type read).evaluate provider env = pure .null := by
  unfold convertRead
  cases scalar : type.scalarKind? with
  | none => exact reads
  | some kind => cases kind <;> simp [Expr.evaluate, reads] <;> rfl

/-- Reading a variable gives its value, null if it is not supplied. -/
theorem evaluate_readVariable (given : env.value? slot = some supplied.toValue) (name : String) :
    ((Expr.read slot).get name).evaluate provider env =
      pure ((supplied.value? name).getD .null) := by
  simp only [Expr.get, Expr.evaluate, given, pure_bind]
  rfl

/-- Reading inside a variable gives the member of its value. -/
theorem evaluate_readInside (given : env.value? slot = some supplied.toValue) {name : String}
    {raw : Value} (old : supplied.value? name = some raw) (inner : String) :
    (((Expr.read slot).get name).get inner).evaluate provider env = pure (raw.member inner) := by
  have outer : ((Expr.read slot).get name).evaluate provider env = pure raw := by
    rw [evaluate_readVariable given, old, Option.getD_some]
  generalize (Expr.read slot).get name = target at outer
  simp [Expr.get, Expr.evaluate, outer]

/-- The variable read of a member that came from a variable. -/
theorem variableRead?_of_source (known : arguments.sources.value? member = some source) :
    (arguments.readVariablesFrom slot).variableRead? member =
      some ((Expr.read slot).get source.origin, source.type) := by
  simp [variableRead?, readVariablesFrom, known]

/-- The members of an input object that mean the same when they are read again: a scalar, a
    value that coercion leaves as it is, and an absent one without a default. A name that
    no field makes a member of is read as it is, and must be absent too. -/
def ReadsAlike (fields : List (InputField ArgumentType)) (raw : Members Value) (name : String) :
    Prop :=
  match fields.find? (·.member = name) with
  | some field =>
    match raw.value? field.name with
    | some value => field.type.scalarKind?.isSome = true ∨ field.type.coerce? value = some value
    | none => field.type.presence.default?.getD .null = .null
  | none => (Value.object raw).member name = .null

/-- The value of a member of an input object that is read again is the bound one exactly
    where it reads alike. -/
theorem evaluate_memberExpr_iff (given : env.value? slot = some supplied.toValue)
    (known : arguments.sources.value? member = some source) {raw fitted : Value}
    (old : supplied.value? source.origin = some raw)
    (coerced : source.type.coerce? raw = some fitted) {title : String}
    {fields : List (InputField ArgumentType)} {presence : Presence}
    (input : source.type = .input title fields presence) (apart : ArgumentType.Apart fields)
    (name : String) :
    ((arguments.readVariablesFrom slot).memberExpr member name).evaluate provider env =
        pure (fitted.member name) ↔
      ∀ members, raw = .object members → ReadsAlike fields members name := by
  have reads (inner : String) := @evaluate_readInside supplied provider env slot given
    source.origin raw old inner
  simp only [memberExpr, variableRead?_of_source known, input, ArgumentType.inputFields?,
    Option.getD_some]
  rw [input] at coerced
  cases raw with
  | null =>
    obtain ⟨-, rfl⟩ := ArgumentType.coerce?_null_iff.mp coerced
    have vacuous : ∀ members, Value.null = .object members →
        ReadsAlike fields members name := by
      intro members same
      cases same
    refine iff_of_true ?_ vacuous
    split
    · exact evaluate_convertRead_null (reads _)
    · exact reads name
  | object members =>
    simp only [Value.object.injEq, forall_eq', ReadsAlike]
    rw [ArgumentType.member_of_coerce?_object apart coerced]
    cases found : fields.find? (·.member = name) with
    | none =>
      simp only [reads, Outcome.pure_inj]
      rfl
    | some field =>
      have listed := List.mem_of_find?_eq_some found
      simp only [Option.bind_some, ArgumentType.fittedMember?]
      cases supplies : Members.value? members field.name with
      | none =>
        have null : (Value.object members).member field.name = .null := by
          simp [Value.member, supplies]
        rw [evaluate_convertRead_null (null ▸ reads field.name), Outcome.pure_inj]
        exact eq_comm
      | some value =>
        have inside : (Value.object members).member field.name = value := by
          simp [Value.member, supplies]
        obtain ⟨one, fits⟩ := Option.isSome_iff_exists.mp
          (ArgumentType.coerce?_isSome_of_object apart coerced listed supplies)
        rw [evaluate_convertRead fits (inside ▸ reads field.name), Outcome.pure_inj]
        simp only [fits, Option.getD_some, Option.some.injEq]
        cases field.type.scalarKind?.isSome <;> simp [eq_comm]
  | _ => simp [ArgumentType.coerce?, Value.isNull] at coerced

end Reading

/-- When reading the variables again gives what was bound, for every request that binds.

    A member that came from a variable has the coerced value of it. Reading the variable
    gives that value exactly if the type is a scalar or coercion left the value as it was;
    reading a member of an input object gives the member of that value exactly if it reads
    alike. A member that came from no variable is a constant and always agrees. -/
theorem reads_agree_iff {table : List Binding} (distinct : (table.map Binding.member).Nodup)
    (bound : bind field table request (some supplied) = .ok arguments) {slot : Placeholder}
    {env : Environment} (given : env.value? slot = some supplied.toValue) (provider : Provider) :
    (∀ member source, arguments.sources.value? member = some source →
      ∃ raw fitted, supplied.value? source.origin = some raw ∧
        source.type.coerce? raw = some fitted ∧ arguments.value? member = some fitted ∧
        (((arguments.readVariablesFrom slot).expr member).evaluate provider env = pure fitted ↔
          source.type.scalarKind?.isSome = true ∨ source.type.coerce? raw = some raw) ∧
        ∀ title fields presence, source.type = .input title fields presence →
          ArgumentType.Apart fields → ∀ name,
          (((arguments.readVariablesFrom slot).memberExpr member name).evaluate provider env =
              pure (fitted.member name) ↔
            ∀ members, raw = .object members → ReadsAlike fields members name)) ∧
    ∀ member, arguments.sources.value? member = none →
      ((arguments.readVariablesFrom slot).expr member).evaluate provider env =
          pure ((arguments.value? member).getD .null) ∧
        ∀ name, ((arguments.readVariablesFrom slot).memberExpr member name).evaluate provider env =
          pure (((arguments.value? member).getD .null).member name) := by
  constructor
  · intro member source known
    obtain ⟨raw, fitted, old, coerced, held⟩ := boundFrom_bind distinct bound member source known
    refine ⟨raw, fitted, old, coerced, held, ?_, ?_⟩
    · have reads : ((Expr.read slot).get source.origin).evaluate provider env = pure raw := by
        rw [evaluate_readVariable given, old, Option.getD_some]
      simp only [expr, variableRead?_of_source known]
      rw [evaluate_convertRead coerced reads, Outcome.pure_inj, coerced, Option.some.injEq]
      cases source.type.scalarKind?.isSome <;> simp [eq_comm]
    · intro title fields presence input apart name
      exact evaluate_memberExpr_iff given known old coerced input apart name
  · intro member unknown
    have noRead : (arguments.readVariablesFrom slot).variableRead? member = none := by
      simp [variableRead?, readVariablesFrom, unknown]
    have same : (arguments.readVariablesFrom slot).value? member = arguments.value? member := rfl
    simp only [expr, memberExpr, noRead, same, Expr.evaluate]
    constructor
    · trivial
    · intro name
      cases arguments.value? member <;> rfl

/-- A field with one argument, a direction to sort by. -/
def directionTable : List Binding :=
  [⟨"dir", "dir", .enumeration "Dir" ["ASC", "DESC"] ArgumentType.optional⟩]

/-- A direction that is supplied as a string is bound as an enumeration value and read
    again as the string. -/
theorem direction_read_differs :
    ∃ arguments, bind "movies" directionTable ⟨[("dir", .fromVariable "d")]⟩
        (some ⟨[("d", .string "ASC")]⟩) = .ok arguments ∧
      arguments.value? "dir" = some (.enumeration "ASC") ∧
      ((arguments.readVariablesFrom ⟨0, "vars", .any⟩).expr "dir").evaluate Provider.none
        [(0, .object [("d", .string "ASC")])] ≠ pure (.enumeration "ASC") := by
  have distinct : (directionTable.map Binding.member).Nodup := by decide
  have bound : bind "movies" directionTable ⟨[("dir", .fromVariable "d")]⟩
      (some ⟨[("d", .string "ASC")]⟩) =
        .ok ⟨[("dir", .enumeration "ASC")], [("dir", ⟨"d", _⟩)], none⟩ := rfl
  have given : Environment.value? [(0, .object [("d", .string "ASC")])] ⟨0, "vars", .any⟩ =
      some (Variables.mk [("d", .string "ASC")]).toValue := rfl
  refine ⟨_, bound, rfl, ?_⟩
  intro same
  obtain ⟨raw, fitted, old, coerced, held, agrees, -⟩ :=
    (reads_agree_iff distinct bound given Provider.none).1 "dir" _ rfl
  obtain rfl := Option.some.inj held
  rcases agrees.mp same with scalar | kept
  · cases scalar
  · obtain rfl := Option.some.inj old
    cases kept

end ArgumentSet

end StagedQuery
