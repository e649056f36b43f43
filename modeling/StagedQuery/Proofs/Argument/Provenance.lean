import StagedQuery.Evaluation
import StagedQuery.Proofs.Argument.Binding

/-!
# Where a bound member comes from

A set of arguments records for each member the variable that it was bound from. The record is
made by the last binding of the member that reads a variable, and it stays when a later binding
of the member takes a literal or a default: the value is replaced then, the record is not.
Setting a member forgets its variable, so a member that was set has no record.

So a record tells where the value comes from exactly if no later binding of its member takes
anything, which is always so where each member has one binding.
-/

namespace StagedQuery

namespace ArgumentSet

variable {field : String} {request : Request} {supplied : Option Variables} {table : List Binding}
  {arguments : ArgumentSet} {member other : String}

/-! ## Setting members -/

/-- Sets some members one after the other. -/
def setAll (arguments : ArgumentSet) (changes : List (String × Value)) : ArgumentSet :=
  changes.foldl (fun current change => current.set change.1 change.2) arguments

/-- A member that is set to a literal comes from no variable any more. -/
theorem sourceOf?_set_self (distinct : arguments.sources.Distinct) (value : Value) :
    (arguments.set member value).sourceOf? member = none := by
  simp [sourceOf?, set, Members.value?_remove_self distinct]

/-- The variables of other members stay recorded. -/
theorem sourceOf?_set_of_ne (different : other ≠ member) (value : Value) :
    (arguments.set member value).sourceOf? other = arguments.sourceOf? other := by
  simp [sourceOf?, set, Members.value?_remove_of_ne _ different]

/-- The values of other members stay as they are. -/
theorem value?_set_of_ne (different : other ≠ member) (value : Value) :
    (arguments.set member value).value? other = arguments.value? other :=
  Members.value?_put_of_ne _ _ different

/-- Members that are not set keep their value and their record. -/
theorem setAll_of_not_mem {changes : List (String × Value)}
    (unset : member ∉ changes.map Prod.fst) :
    (arguments.setAll changes).value? member = arguments.value? member ∧
      (arguments.setAll changes).sourceOf? member = arguments.sourceOf? member := by
  induction changes generalizing arguments with
  | nil => exact ⟨rfl, rfl⟩
  | cons change rest ih =>
    simp only [List.map_cons, List.mem_cons, not_or] at unset
    obtain ⟨value, source⟩ := @ih (arguments.set change.1 change.2) unset.2
    exact ⟨value.trans (value?_set_of_ne unset.1 _), source.trans (sourceOf?_set_of_ne unset.1 _)⟩

/-- Members that are set have no record. -/
theorem sourceOf?_setAll_of_mem {changes : List (String × Value)}
    (distinct : arguments.sources.Distinct) (changed : member ∈ changes.map Prod.fst) :
    (arguments.setAll changes).sourceOf? member = none := by
  induction changes generalizing arguments with
  | nil => cases changed
  | cons change rest ih =>
    have kept : (arguments.set change.1 change.2).sources.Distinct :=
      Members.distinct_remove distinct _
    by_cases later : member ∈ rest.map Prod.fst
    · exact ih kept later
    · obtain rfl : member = change.1 := by simpa [later] using changed
      have last := (@setAll_of_not_mem (arguments.set change.1 change.2) _ _ later).2
      exact last.trans (sourceOf?_set_self distinct _)

/-! ## Records -/

/-- Binding records one variable for a member at most. -/
theorem distinct_sources_of_bind (bound : bind field table request supplied = .ok arguments) :
    arguments.sources.Distinct := by
  refine foldlM_bindOne_induction (fun current => current.sources.Distinct)
    (by simp [empty, Members.Distinct, Members.names]) ?_ (bind_ok bound).2
  intro binding _ current next before step
  rcases bindOne_eq_ok step with ⟨value, origin, fitted, -, -, rfl⟩ | ⟨-, rfl⟩
  · cases origin with
    | none => exact before
    | some name => exact Members.distinct_put before _ _
  · exact before

/-- What takes a value and does not read a variable has chosen a literal or a default. -/
theorem exists_chooses_none {binding : Binding} (takes : binding.Takes request)
    (unread : ¬binding.ReadsVariable request)
    (fine : ∀ fault, ¬binding.Fails field request supplied fault) :
    ∃ value, binding.Chooses request supplied value none := by
  rcases binding.takes_or_passes_or_fails field request supplied with
    ⟨value, origin, fitted, chosen, -⟩ | passes | ⟨fault, fails⟩
  · cases origin with
    | none => exact ⟨value, chosen⟩
    | some name => exact absurd ⟨name, (chosen.origin_eq_some_iff name).mp rfl⟩ unread
  · exact absurd takes passes.not_takes
  · exact absurd fails (fine fault)

/-- What the record of a member tells, for every table, request and variables that bind and
    whatever is set afterwards.

    A recorded variable is the one that the last reading binding of the member is bound to. It
    is supplied, its value fits the type of that binding, and the member was not set since. The
    member has the fitted value if no later binding of it takes anything; otherwise it has the
    fitted literal or default of the last one that does. -/
theorem provenance_exact (bound : bind field table request supplied = .ok arguments)
    (changes : List (String × Value)) {name : String}
    (recorded : (arguments.setAll changes).sourceOf? member = some name) :
    member ∉ changes.map Prod.fst ∧ ∃ binding after raw fitted,
      LastOf (Binding.ReadsVariable request) table member binding after ∧
      request.Writes binding.schemaName (.fromVariable name) ∧ Supplies supplied name raw ∧
      binding.type.coerce? raw = some fitted ∧
      ((∀ later ∈ after, later.member = member → ¬later.Takes request) →
        (arguments.setAll changes).value? member = some fitted) ∧
      ∀ last rest, LastOf (Binding.Takes request) after member last rest →
        ∃ value, last.Chooses request supplied value none ∧
          (last.type.coerce? value).isSome = true ∧
          (arguments.setAll changes).value? member = last.type.coerce? value := by
  obtain ⟨-, run⟩ := bind_ok bound
  have unchanged : member ∉ changes.map Prod.fst := by
    intro changed
    rw [sourceOf?_setAll_of_mem (distinct_sources_of_bind bound) changed] at recorded
    cases recorded
  obtain ⟨value, source⟩ := @setAll_of_not_mem arguments _ _ unchanged
  rw [source, sourceOf?_eq_some_iff bound] at recorded
  obtain ⟨binding, after, reads, written⟩ := recorded
  obtain ⟨own, raw, chosen, fits, -⟩ := source?_of_lastOf reads run
  obtain ⟨fitted, coerced⟩ := Option.isSome_iff_exists.mp fits
  cases written.unique ((chosen.origin_eq_some_iff own).mp rfl)
  have supplies : Supplies supplied name raw := by
    cases chosen with | fromVariable _ given => exact given
  refine ⟨unchanged, binding, after, raw, fitted, reads, written, supplies, coerced, ?_, ?_⟩
  · intro untaken
    have takes : LastOf (Binding.Takes request) table member binding after :=
      ⟨reads.listed, reads.names, chosen.takes, untaken⟩
    rw [value, (value?_of_lastOf takes chosen run).2, coerced]
  · intro last rest later
    -- The last binding after the reading one is the last of the table.
    obtain ⟨before, rfl⟩ := reads.listed
    obtain ⟨between, rfl⟩ := later.listed
    have takes : LastOf (Binding.Takes request) (before ++ binding :: (between ++ last :: rest))
        member last rest :=
      ⟨⟨before ++ binding :: between, by simp⟩, later.names, later.meets, later.later⟩
    have unread : ¬last.ReadsVariable request := reads.later last (by simp) later.names
    have fine := foldlM_bindOne_succeeds_iff.mp ⟨arguments, run⟩ last (by simp)
    obtain ⟨choice, literal⟩ := exists_chooses_none later.meets unread fine
    obtain ⟨fit, held⟩ := value?_of_lastOf takes literal run
    exact ⟨choice, literal, fit, value.trans held⟩

/-- Two arguments of films that set the same member. -/
def yearTable : List Binding :=
  [⟨"since", "year", .scalar .int ArgumentType.optional⟩,
    ⟨"year", "year", .scalar .int ArgumentType.optional⟩]

/-- The first argument is bound to a variable and the second to a literal. -/
def yearRequest : Request :=
  ⟨[("since", .fromVariable "from"), ("year", .literal (.int 1995))]⟩

/-- The earliest year is supplied. -/
def yearVariables : Variables :=
  ⟨[("from", .int 1980)]⟩

/-- The member has the literal and is still recorded as the variable, so that its expression
    reads the variable, which has another value. -/
theorem stale_record_yearTable :
    ∃ arguments, bind "films" yearTable yearRequest (some yearVariables) = .ok arguments ∧
      arguments.sourceOf? "year" = some "from" ∧
      Supplies (some yearVariables) "from" (.int 1980) ∧
      arguments.value? "year" = some (.int 1995) ∧
      ((arguments.readVariablesFrom ⟨0, "vars", .any⟩).expr "year").evaluate Provider.none
        [(0, yearVariables.toValue)] = pure (.int 1980) := by
  have bound : bind "films" yearTable yearRequest (some yearVariables) =
      .ok ⟨[("year", .int 1995)], [("year", ⟨"from", .scalar .int ArgumentType.optional⟩)],
        none⟩ := rfl
  have year : yearRequest.Writes "year" (.literal (.int 1995)) := ⟨[_], [], rfl, by simp⟩
  obtain ⟨-, binding, after, raw, fitted, reads, written, supplies, -, -, taken⟩ :=
    @provenance_exact _ _ _ _ _ "year" bound [] "from" rfl
  refine ⟨_, bound, rfl, ?_, ?_, rfl⟩
  · obtain ⟨values, same, given⟩ := supplies
    obtain rfl : yearVariables = values := Option.some.inj same
    obtain rfl : Value.int 1980 = raw := Option.some.inj given
    exact ⟨_, rfl, rfl⟩
  · -- The reading binding is the first one, since the second one has a literal.
    obtain ⟨_ | ⟨first, _ | ⟨second, before⟩⟩, listed⟩ := reads.listed
    · obtain ⟨rfl, rfl⟩ := List.cons.inj listed
      obtain ⟨value, chosen, -, held⟩ := taken _ [] ⟨⟨[], rfl⟩, rfl, .inl year.mentions, by simp⟩
      obtain ⟨rfl, -⟩ := chosen.unique (.literal year)
      exact held
    · obtain ⟨-, rest⟩ := List.cons.inj listed
      obtain ⟨rfl, -⟩ := List.cons.inj rest
      cases year.unique written
    · simp [yearTable] at listed

end ArgumentSet

end StagedQuery
