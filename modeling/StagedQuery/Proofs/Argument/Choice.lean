import StagedQuery.Argument.Binding
import StagedQuery.Proofs.Members

/-!
# What a request chooses for a binding

A binding takes the first argument that is written under its name, a variable by its value,
and the default of its type if none is written. It is passed over if nothing is chosen and
nothing required, and it fails if a variable is not supplied, if a required argument is
missing or if the chosen value does not fit. These three are told apart here without
following the binding itself, and adding one binding to a set of arguments is shown to do
what they say.

Nothing is assumed of the request: a name may be written several times, and names that no
binding has are not looked at here.
-/

namespace StagedQuery

/-! ## What is written in a request -/

namespace Request

/-- The first argument of a name in a request. -/
def Writes (request : Request) (name : String) (written : ArgumentValue) : Prop :=
  ∃ before after, request.entries = before ++ (name, written) :: after ∧
    ∀ entry ∈ before, entry.1 ≠ name

/-- Some argument of a name stands in a request. -/
def Mentions (request : Request) (name : String) : Prop :=
  ∃ entry ∈ request.entries, entry.1 = name

variable {request : Request} {name : String} {written other : ArgumentValue}

/-- A request yields under a name what is written there first, and nothing else. -/
theorem value?_eq_some_iff : request.value? name = some written ↔ request.Writes name written := by
  rw [value?, Members.value?_eq_find?, Option.map_eq_some_iff]
  simp only [List.find?_eq_some_iff_append, decide_eq_true_eq, Bool.not_eq_eq_eq_not, Bool.not_true,
    decide_eq_false_iff_not]
  constructor
  · rintro ⟨⟨first, value⟩, ⟨rfl, before, after, listed, others⟩, rfl⟩
    exact ⟨before, after, listed, others⟩
  · rintro ⟨before, after, listed, others⟩
    exact ⟨(name, written), ⟨rfl, before, after, listed, others⟩, rfl⟩

/-- A request yields nothing under a name exactly if it does not mention the name. -/
theorem value?_eq_none_iff : request.value? name = none ↔ ¬request.Mentions name := by
  rw [value?, Members.value?_eq_find?, Option.map_eq_none_iff, List.find?_eq_none]
  simp only [Mentions, decide_eq_true_eq, not_exists, not_and]

/-- What is written under a name mentions it. -/
theorem Writes.mentions (writes : request.Writes name written) : request.Mentions name := by
  obtain ⟨before, after, listed, -⟩ := writes
  exact ⟨(name, written), by simp [listed], rfl⟩

/-- Under one name one argument counts: the first that is written. -/
theorem Writes.unique (writes : request.Writes name written) (again : request.Writes name other) :
    other = written :=
  Option.some.inj ((value?_eq_some_iff.mpr again).symm.trans (value?_eq_some_iff.mpr writes))

/-- Under a name that is mentioned some argument is the first. -/
theorem Mentions.exists_writes (mentions : request.Mentions name) :
    ∃ written, request.Writes name written := by
  cases found : request.value? name with
  | none => exact absurd mentions (value?_eq_none_iff.mp found)
  | some written => exact ⟨written, value?_eq_some_iff.mp found⟩

end Request

/-- Variables that are supplied, if any are, give a value to a name. -/
def Supplies (supplied : Option Variables) (name : String) (value : Value) : Prop :=
  ∃ values, supplied = some values ∧ values.value? name = some value

/-- Variables that may be missing altogether supply a value exactly if they are there and hold
    it. -/
theorem supplies_iff {supplied : Option Variables} {name : String} {value : Value} :
    supplied.bind (·.value? name) = some value ↔ Supplies supplied name value := by
  simp [Supplies, Option.bind_eq_some_iff]

/-! ## One binding -/

namespace Binding

/-- What a request chooses for a binding, with the variable that it comes from: the first
    argument of its name, a variable by its value, and else the default of its type. -/
inductive Chooses (request : Request) (supplied : Option Variables) (binding : Binding) :
    Value → Option String → Prop where
  | literal {value : Value} (written : request.Writes binding.schemaName (.literal value)) :
      Chooses request supplied binding value none
  | fromVariable {name : String} {value : Value}
      (written : request.Writes binding.schemaName (.fromVariable name))
      (given : Supplies supplied name value) :
      Chooses request supplied binding value (some name)
  | default {value : Value} (unwritten : ¬request.Mentions binding.schemaName)
      (known : binding.type.presence.default? = some value) :
      Chooses request supplied binding value none

/-- Nothing is chosen for a binding, and nothing is required. -/
structure Passes (request : Request) (binding : Binding) : Prop where
  unwritten : ¬request.Mentions binding.schemaName
  unknown : binding.type.presence.default? = none
  optional : binding.type.presence.required = false

/-- Something is written for a binding or stands in for what is not. -/
def Takes (request : Request) (binding : Binding) : Prop :=
  request.Mentions binding.schemaName ∨ binding.type.presence.default? ≠ none

/-- A request binds a binding to a variable. -/
def ReadsVariable (request : Request) (binding : Binding) : Prop :=
  ∃ name, request.Writes binding.schemaName (.fromVariable name)

/-- The faults of a binding: a variable that is not supplied, a required argument that is
    neither written nor has a default, and a chosen value that does not fit the type. -/
inductive Fails (field : String) (request : Request) (supplied : Option Variables)
    (binding : Binding) : CompileFault → Prop where
  | undefined {name : String} (written : request.Writes binding.schemaName (.fromVariable name))
      (missing : ∀ value, ¬Supplies supplied name value) :
      Fails field request supplied binding (.undefinedVariable name)
  | missing (unwritten : ¬request.Mentions binding.schemaName)
      (unknown : binding.type.presence.default? = none)
      (required : binding.type.presence.required = true) :
      Fails field request supplied binding (.missingArgument field binding.schemaName)
  | unfit {value : Value} {origin : Option String}
      (chosen : binding.Chooses request supplied value origin)
      (refused : binding.type.coerce? value = none) :
      Fails field request supplied binding
        (.invalidArgument field binding.schemaName binding.type.text value.kindName)

variable {field : String} {request : Request} {supplied : Option Variables} {binding : Binding}
  {value : Value} {origin : Option String} {fault : CompileFault}

/-- The value that is looked up for a binding, with the variable that it comes from, is the one
    that the binding chooses. -/
theorem chosen?_eq_some_iff :
    ArgumentSet.chosen? field binding request supplied = .ok (some (value, origin)) ↔
      binding.Chooses request supplied value origin := by
  unfold ArgumentSet.chosen?
  constructor
  · intro found
    split at found
    · rename_i literal written
      cases found
      exact .literal (Request.value?_eq_some_iff.mp written)
    · rename_i name written
      split at found
      · rename_i given
        cases found
        exact .fromVariable (Request.value?_eq_some_iff.mp written)
          (supplies_iff.mp given)
      · cases found
    · rename_i unwritten
      split at found
      · rename_i known
        cases found
        exact .default (Request.value?_eq_none_iff.mp unwritten) known
      · split at found <;> cases found
  · intro chosen
    cases chosen with
    | literal written => rw [Request.value?_eq_some_iff.mpr written]
    | fromVariable written given =>
      rw [Request.value?_eq_some_iff.mpr written]
      simp only [supplies_iff.mpr given]
    | default unwritten known =>
      rw [Request.value?_eq_none_iff.mpr unwritten]
      simp only [known]

/-- Nothing is looked up for a binding exactly if the binding is passed over. -/
theorem chosen?_eq_none_iff :
    ArgumentSet.chosen? field binding request supplied = .ok none ↔ binding.Passes request := by
  unfold ArgumentSet.chosen?
  constructor
  · intro found
    split at found
    · cases found
    · split at found <;> cases found
    · rename_i unwritten
      split at found
      · cases found
      · rename_i unknown
        split at found
        · cases found
        · rename_i optional
          exact ⟨Request.value?_eq_none_iff.mp unwritten, unknown, by simpa using optional⟩
  · rintro ⟨unwritten, unknown, optional⟩
    rw [Request.value?_eq_none_iff.mpr unwritten]
    simp [unknown, optional]

/-- A choice leads back to one value with one origin. -/
theorem Chooses.unique {other : Value} {origin' : Option String}
    (chosen : binding.Chooses request supplied value origin)
    (again : binding.Chooses request supplied other origin') :
    other = value ∧ origin' = origin := by
  have found := (@chosen?_eq_some_iff "" _ _ _ _ _).mpr chosen
  rw [chosen?_eq_some_iff.mpr again] at found
  simpa using found

/-- What is chosen comes from the variable that is written first for the binding, and from no
    variable if there is none. -/
theorem Chooses.origin_eq_some_iff (chosen : binding.Chooses request supplied value origin)
    (name : String) :
    origin = some name ↔ request.Writes binding.schemaName (.fromVariable name) := by
  cases chosen with
  | literal written =>
    refine iff_of_false (by simp) fun again => ?_
    cases written.unique again
  | fromVariable written =>
    constructor
    · intro same
      exact Option.some.inj same ▸ written
    · intro again
      cases written.unique again
      rfl
  | default unwritten => exact iff_of_false (by simp) fun writes => unwritten writes.mentions

/-- What is chosen depends on the variables only if it comes from one. -/
theorem Chooses.alike {supplied' : Option Variables} {other : Value} {origin' : Option String}
    (chosen : binding.Chooses request supplied value origin)
    (again : binding.Chooses request supplied' other origin') :
    origin' = origin ∧ (origin = none → other = value) := by
  have same : origin' = origin := by
    refine Option.ext fun name => ?_
    rw [again.origin_eq_some_iff, chosen.origin_eq_some_iff]
  refine ⟨same, ?_⟩
  rintro rfl
  subst same
  cases chosen with
  | literal written =>
    cases again with
    | literal writtenToo => cases written.unique writtenToo; rfl
    | default unwritten => exact absurd written.mentions unwritten
  | default unwritten known =>
    cases again with
    | literal written => exact absurd written.mentions unwritten
    | default _ knownToo => exact Option.some.inj (knownToo.symm.trans known)

/-- A binding that chooses a value takes one. -/
theorem Chooses.takes (chosen : binding.Chooses request supplied value origin) :
    binding.Takes request := by
  cases chosen with
  | literal written => exact .inl written.mentions
  | fromVariable written => exact .inl written.mentions
  | default _ known => exact .inr (by simp [known])

/-- A binding that is passed over takes no value. -/
theorem Passes.not_takes (passes : binding.Passes request) : ¬binding.Takes request := by
  rintro (mentions | known)
  · exact passes.unwritten mentions
  · exact known passes.unknown

/-- A binding takes a value, is passed over or fails. -/
theorem takes_or_passes_or_fails (field : String) (request : Request)
    (supplied : Option Variables) (binding : Binding) :
    (∃ value origin fitted, binding.Chooses request supplied value origin ∧
        binding.type.coerce? value = some fitted) ∨
      binding.Passes request ∨ ∃ fault, binding.Fails field request supplied fault := by
  have coerces {value : Value} {origin : Option String}
      (chosen : binding.Chooses request supplied value origin) :
      (∃ value origin fitted, binding.Chooses request supplied value origin ∧
          binding.type.coerce? value = some fitted) ∨
        binding.Passes request ∨ ∃ fault, binding.Fails field request supplied fault := by
    cases coerced : binding.type.coerce? value with
    | none => exact .inr (.inr ⟨_, .unfit chosen coerced⟩)
    | some fitted => exact .inl ⟨value, origin, fitted, chosen, coerced⟩
  by_cases mentions : request.Mentions binding.schemaName
  · obtain ⟨written, writes⟩ := mentions.exists_writes
    cases written with
    | literal value => exact coerces (.literal writes)
    | fromVariable name =>
      by_cases given : ∃ value, Supplies supplied name value
      · obtain ⟨value, supplies⟩ := given
        exact coerces (.fromVariable writes supplies)
      · exact .inr (.inr ⟨_, .undefined writes (not_exists.mp given)⟩)
  · cases known : binding.type.presence.default? with
    | some default => exact coerces (.default mentions known)
    | none =>
      cases required : binding.type.presence.required with
      | false => exact .inr (.inl ⟨mentions, known, required⟩)
      | true => exact .inr (.inr ⟨_, .missing mentions known required⟩)

/-- A binding does not fail exactly if its variable is supplied, what is required of it is
    written or has a default, and what it chooses fits its type. -/
theorem forall_not_fails_iff :
    (∀ fault, ¬binding.Fails field request supplied fault) ↔
      (∀ name, request.Writes binding.schemaName (.fromVariable name) →
        ∃ value, Supplies supplied name value) ∧
      (binding.type.presence.required = true → binding.type.presence.default? = none →
        request.Mentions binding.schemaName) ∧
      ∀ value origin, binding.Chooses request supplied value origin →
        (binding.type.coerce? value).isSome = true := by
  constructor
  · intro fine
    refine ⟨?_, ?_, ?_⟩
    · intro name written
      refine Classical.byContradiction fun missing => ?_
      exact fine _ (.undefined written (not_exists.mp missing))
    · intro required unknown
      refine Classical.byContradiction fun unwritten => ?_
      exact fine _ (.missing unwritten unknown required)
    · intro value origin chosen
      refine Option.isSome_iff_ne_none.mpr fun refused => ?_
      exact fine _ (.unfit chosen refused)
  · rintro ⟨supplies, present, fits⟩ fault fails
    cases fails with
    | undefined written missing =>
      obtain ⟨value, given⟩ := supplies _ written
      exact missing value given
    | missing unwritten unknown required => exact unwritten (present required unknown)
    | unfit chosen refused =>
      have fit := fits _ _ chosen
      rw [refused] at fit
      cases fit

end Binding

/-! ## Adding one binding to a set of arguments -/

namespace ArgumentSet

variable {field : String} {request : Request} {supplied : Option Variables} {binding : Binding}
  {arguments : ArgumentSet}

/-- The arguments with a fitted value for a binding, and its variable if it comes from one. -/
def take (arguments : ArgumentSet) (binding : Binding) (fitted : Value) (origin : Option String) :
    ArgumentSet :=
  { arguments with
    values := arguments.values.put binding.member fitted
    sources := match origin with
      | some name => arguments.sources.put binding.member ⟨name, binding.type⟩
      | none => arguments.sources }

/-- Adding a binding whose value is fitted sets its member. -/
theorem bindOne_of_takes {value fitted : Value} {origin : Option String}
    (chosen : binding.Chooses request supplied value origin)
    (coerced : binding.type.coerce? value = some fitted) :
    bindOne field request supplied arguments binding =
      .ok (arguments.take binding fitted origin) := by
  simp only [bindOne, Binding.chosen?_eq_some_iff.mpr chosen, coerced, Bind.bind, Except.bind]
  cases origin <;> rfl

/-- Adding a binding that is passed over changes nothing. -/
theorem bindOne_of_passes (passes : binding.Passes request) :
    bindOne field request supplied arguments binding = .ok arguments := by
  simp only [bindOne, Binding.chosen?_eq_none_iff.mpr passes, Bind.bind, Except.bind]
  rfl

/-- Adding a binding that fails yields its fault. -/
theorem bindOne_of_fails {fault : CompileFault}
    (fails : binding.Fails field request supplied fault) :
    bindOne field request supplied arguments binding = .error fault := by
  cases fails with
  | undefined written missing =>
    have unsupplied : supplied.bind (·.value? _) = none :=
      Option.eq_none_iff_forall_ne_some.mpr fun value given =>
        missing value (supplies_iff.mp given)
    simp [bindOne, chosen?, Request.value?_eq_some_iff.mpr written, unsupplied, Bind.bind,
      Except.bind]
  | missing unwritten unknown required =>
    simp [bindOne, chosen?, Request.value?_eq_none_iff.mpr unwritten, unknown, required, Bind.bind,
      Except.bind]
  | unfit chosen refused =>
    simp only [bindOne, Binding.chosen?_eq_some_iff.mpr chosen, refused, Bind.bind, Except.bind]
    rfl

/-- Adding a binding fails exactly as the binding does. -/
theorem bindOne_eq_error_iff {fault : CompileFault} :
    bindOne field request supplied arguments binding = .error fault ↔
      binding.Fails field request supplied fault := by
  refine ⟨fun failed => ?_, bindOne_of_fails⟩
  rcases binding.takes_or_passes_or_fails field request supplied with
    ⟨value, origin, fitted, chosen, coerced⟩ | passes | ⟨other, fails⟩
  · rw [bindOne_of_takes chosen coerced] at failed
    cases failed
  · rw [bindOne_of_passes passes] at failed
    cases failed
  · rw [bindOne_of_fails fails] at failed
    cases failed
    exact fails

/-- Adding a binding takes what the binding chooses or changes nothing. -/
theorem bindOne_eq_ok {next : ArgumentSet}
    (bound : bindOne field request supplied arguments binding = .ok next) :
    (∃ value origin fitted, binding.Chooses request supplied value origin ∧
        binding.type.coerce? value = some fitted ∧ next = arguments.take binding fitted origin) ∨
      binding.Passes request ∧ next = arguments := by
  rcases binding.takes_or_passes_or_fails field request supplied with
    ⟨value, origin, fitted, chosen, coerced⟩ | passes | ⟨fault, fails⟩
  · rw [bindOne_of_takes chosen coerced] at bound
    exact .inl ⟨value, origin, fitted, chosen, coerced, (Except.ok.inj bound).symm⟩
  · rw [bindOne_of_passes passes] at bound
    exact .inr ⟨passes, (Except.ok.inj bound).symm⟩
  · rw [bindOne_of_fails fails] at bound
    cases bound

/-! ## What a set of arguments takes -/

variable {fitted : Value} {origin : Option String}

/-- The member that is set has the fitted value. -/
theorem value?_take_self : (arguments.take binding fitted origin).value? binding.member =
    some fitted :=
  Members.value?_put_self _ _ _

/-- Setting a member changes the value of no other one. -/
theorem value?_take_of_ne {member : String} (different : member ≠ binding.member) :
    (arguments.take binding fitted origin).value? member = arguments.value? member :=
  Members.value?_put_of_ne _ _ different

/-- The member that is set from a variable is recorded with it and with the type of the
    binding. -/
theorem source?_take_self {name : String} :
    (arguments.take binding fitted (some name)).sources.value? binding.member =
      some ⟨name, binding.type⟩ :=
  Members.value?_put_self _ _ _

/-- The variable of a member is kept unless its binding takes another one. -/
theorem source?_take_of_ne {member : String} (kept : member ≠ binding.member ∨ origin = none) :
    (arguments.take binding fitted origin).sources.value? member =
      arguments.sources.value? member := by
  cases origin with
  | none => rfl
  | some name =>
    rcases kept with different | none
    · exact Members.value?_put_of_ne _ _ different
    · cases none

end ArgumentSet

end StagedQuery
