import StagedQuery.Proofs.Argument.Choice

/-!
# What binding a request makes of it

A table is bound entry by entry. The run fails at the first binding that fails; otherwise
each member has the fitted value of the last of its bindings that takes one, and comes from
the variable of the last of its bindings that reads one. Where each member has one binding
these are the same, and binding is described binding by binding.
-/

namespace StagedQuery

namespace ArgumentSet

variable {field : String} {request : Request} {supplied : Option Variables}
  {table before after : List Binding} {binding : Binding} {start arguments : ArgumentSet}
  {member : String}

/-! ## Runs over a table -/

/-- A run over two parts with a binding in between is a run over the first, a step and a run
    over the second. -/
theorem foldlM_bindOne_split
    (bound : (before ++ binding :: after).foldlM (bindOne field request supplied) start =
      .ok arguments) :
    ∃ middle next, before.foldlM (bindOne field request supplied) start = .ok middle ∧
      bindOne field request supplied middle binding = .ok next ∧
      after.foldlM (bindOne field request supplied) next = .ok arguments := by
  rw [List.foldlM_append] at bound
  cases first : before.foldlM (bindOne field request supplied) start with
  | error fault => simp [first, Bind.bind, Except.bind] at bound
  | ok middle =>
    simp only [first, List.foldlM_cons, Bind.bind, Except.bind] at bound
    split at bound
    · cases bound
    · rename_i next step
      exact ⟨middle, next, rfl, step, bound⟩

/-- What every binding of a table preserves is preserved by a run over it. -/
theorem foldlM_bindOne_induction (property : ArgumentSet → Prop) (holds : property start)
    (step : ∀ binding ∈ table, ∀ {current next}, property current →
      bindOne field request supplied current binding = .ok next → property next)
    (bound : table.foldlM (bindOne field request supplied) start = .ok arguments) :
    property arguments := by
  induction table generalizing start with
  | nil =>
    simp only [List.foldlM_nil, Pure.pure, Except.pure, Except.ok.injEq] at bound
    exact bound ▸ holds
  | cons binding rest ih =>
    obtain ⟨current, next, begun, taken, later⟩ := @foldlM_bindOne_split _ _ _ [] _ _ _ _ bound
    cases begun
    exact ih (step binding (by simp) holds taken)
      (fun other inside => step other (by simp [inside])) later

/-- A run fails exactly as the first of its bindings that fails. -/
theorem foldlM_bindOne_eq_error_iff {fault : CompileFault} :
    table.foldlM (bindOne field request supplied) start = .error fault ↔
      ∃ before binding after, table = before ++ binding :: after ∧
        (∀ earlier ∈ before, ∀ other, ¬earlier.Fails field request supplied other) ∧
        binding.Fails field request supplied fault := by
  induction table generalizing start with
  | nil => simp [Pure.pure, Except.pure]
  | cons binding rest ih =>
    rw [List.foldlM_cons]
    cases step : bindOne field request supplied start binding with
    | error own =>
      have fails := bindOne_eq_error_iff.mp step
      simp only [Bind.bind, Except.bind, Except.error.injEq]
      constructor
      · rintro rfl
        exact ⟨[], binding, rest, rfl, by simp, fails⟩
      · rintro ⟨_ | ⟨first, before⟩, other, after, listed, fine, last⟩
        · obtain ⟨rfl, -⟩ := List.cons.inj listed
          rw [bindOne_of_fails last] at step
          exact (Except.error.inj step).symm
        · obtain ⟨rfl, -⟩ := List.cons.inj listed
          exact absurd fails (fine _ (by simp) own)
    | ok next =>
      have fine (other : CompileFault) : ¬binding.Fails field request supplied other := by
        intro fails
        rw [bindOne_of_fails fails] at step
        cases step
      simp only [Bind.bind, Except.bind, ih]
      constructor
      · rintro ⟨before, other, after, rfl, others, fails⟩
        refine ⟨binding :: before, other, after, rfl, ?_, fails⟩
        simpa [fine] using others
      · rintro ⟨_ | ⟨first, before⟩, other, after, listed, others, fails⟩
        · obtain ⟨rfl, -⟩ := List.cons.inj listed
          exact absurd fails (fine _)
        · obtain ⟨rfl, rfl⟩ := List.cons.inj listed
          exact ⟨before, other, after, rfl, fun earlier inside => others earlier (by simp [inside]),
            fails⟩

/-- A run succeeds exactly if none of its bindings fails. -/
theorem foldlM_bindOne_succeeds_iff :
    (∃ arguments, table.foldlM (bindOne field request supplied) start = .ok arguments) ↔
      ∀ binding ∈ table, ∀ fault, ¬binding.Fails field request supplied fault := by
  induction table generalizing start with
  | nil => simp [Pure.pure, Except.pure]
  | cons binding rest ih =>
    rw [List.foldlM_cons, List.forall_mem_cons]
    cases step : bindOne field request supplied start binding with
    | error fault =>
      refine iff_of_false (by simp [Bind.bind, Except.bind]) fun fine => ?_
      exact fine.1 fault (bindOne_eq_error_iff.mp step)
    | ok next =>
      simp only [Bind.bind, Except.bind, ih]
      refine ⟨fun others => ⟨fun fault fails => ?_, others⟩, And.right⟩
      rw [bindOne_of_fails fails] at step
      cases step

/-! ## The last binding of a member -/

/-- The last binding of a member in a table that meets a condition, with the bindings after
    it. -/
structure LastOf (condition : Binding → Prop) (table : List Binding) (member : String)
    (binding : Binding) (after : List Binding) : Prop where
  listed : ∃ before, table = before ++ binding :: after
  names : binding.member = member
  meets : condition binding
  later : ∀ later ∈ after, later.member = member → ¬condition later

/-- Some binding of a member meets a condition exactly if there is a last one that does. -/
theorem exists_lastOf_iff {condition : Binding → Prop} :
    (∃ binding after, LastOf condition table member binding after) ↔
      ∃ binding ∈ table, binding.member = member ∧ condition binding := by
  constructor
  · rintro ⟨binding, after, ⟨before, rfl⟩, names, meets, -⟩
    exact ⟨binding, by simp, names, meets⟩
  · intro found
    induction table with
    | nil => simp at found
    | cons first rest ih =>
      by_cases deeper : ∃ binding ∈ rest, binding.member = member ∧ condition binding
      · obtain ⟨binding, after, ⟨before, rfl⟩, names, meets, later⟩ := ih deeper
        exact ⟨binding, after, ⟨first :: before, rfl⟩, names, meets, later⟩
      · obtain ⟨binding, inside, names, meets⟩ := found
        rcases List.mem_cons.mp inside with rfl | below
        · refine ⟨binding, rest, ⟨[], rfl⟩, names, meets, ?_⟩
          exact fun later inside same holds => deeper ⟨later, inside, same, holds⟩
        · exact absurd ⟨binding, below, names, meets⟩ deeper

/-- Where members are distinct, every binding is the last of its member. -/
theorem lastOf_of_nodup {condition : Binding → Prop}
    (distinct : (table.map Binding.member).Nodup) (inside : binding ∈ table)
    (meets : condition binding) :
    ∃ after, LastOf condition table binding.member binding after := by
  obtain ⟨before, after, rfl⟩ := List.append_of_mem inside
  refine ⟨after, ⟨before, rfl⟩, rfl, meets, ?_⟩
  intro later among same
  rw [List.map_append, List.map_cons] at distinct
  obtain ⟨fresh, -⟩ := List.nodup_cons.mp (List.nodup_append.mp distinct).2.1
  exact absurd (List.mem_map.mpr ⟨later, among, same⟩) fresh

/-- A run leaves the value of a member alone of which no binding takes anything. -/
theorem value?_of_untaken
    (untaken : ∀ binding ∈ table, binding.member = member → ¬binding.Takes request)
    (bound : table.foldlM (bindOne field request supplied) start = .ok arguments) :
    arguments.value? member = start.value? member := by
  refine foldlM_bindOne_induction (fun current => current.value? member = start.value? member) rfl
    ?_ bound
  intro binding inside current next before step
  rcases bindOne_eq_ok step with ⟨value, origin, fitted, chosen, -, rfl⟩ | ⟨-, rfl⟩
  · have different : member ≠ binding.member :=
      fun same => untaken binding inside same.symm chosen.takes
    rw [value?_take_of_ne different, before]
  · exact before

/-- A run leaves the variable of a member alone of which no binding reads one. -/
theorem source?_of_unread
    (unread : ∀ binding ∈ table, binding.member = member → ¬binding.ReadsVariable request)
    (bound : table.foldlM (bindOne field request supplied) start = .ok arguments) :
    arguments.sources.value? member = start.sources.value? member := by
  refine foldlM_bindOne_induction
    (fun current => current.sources.value? member = start.sources.value? member) rfl ?_ bound
  intro binding inside current next before step
  rcases bindOne_eq_ok step with ⟨value, origin, fitted, chosen, -, rfl⟩ | ⟨-, rfl⟩
  · rw [source?_take_of_ne, before]
    by_cases same : member = binding.member
    · refine .inr (Option.eq_none_iff_forall_ne_some.mpr fun name reads => ?_)
      exact unread binding inside same.symm ⟨name, (chosen.origin_eq_some_iff name).mp reads⟩
    · exact .inl same
  · exact before

/-- The value of a member is the fitted choice of the last of its bindings that takes one. -/
theorem value?_of_lastOf {value : Value} {origin : Option String}
    (last : LastOf (Binding.Takes request) table member binding after)
    (chosen : binding.Chooses request supplied value origin)
    (bound : table.foldlM (bindOne field request supplied) start = .ok arguments) :
    (binding.type.coerce? value).isSome = true ∧
      arguments.value? member = binding.type.coerce? value := by
  obtain ⟨⟨before, rfl⟩, rfl, -, untaken⟩ := last
  obtain ⟨middle, next, -, step, rest⟩ := foldlM_bindOne_split bound
  rcases bindOne_eq_ok step with ⟨own, origin', fitted, chosen', coerced, rfl⟩ | ⟨passes, -⟩
  · obtain ⟨rfl, -⟩ := chosen.unique chosen'
    rw [value?_of_untaken untaken rest, value?_take_self, coerced]
    exact ⟨rfl, rfl⟩
  · exact absurd chosen.takes passes.not_takes

/-- A member comes from the variable of the last of its bindings that reads one, whose value
    fits. -/
theorem source?_of_lastOf (last : LastOf (Binding.ReadsVariable request) table member binding after)
    (bound : table.foldlM (bindOne field request supplied) start = .ok arguments) :
    ∃ name value, binding.Chooses request supplied value (some name) ∧
      (binding.type.coerce? value).isSome = true ∧
      arguments.sources.value? member = some ⟨name, binding.type⟩ := by
  obtain ⟨⟨before, rfl⟩, rfl, ⟨name, written⟩, unread⟩ := last
  obtain ⟨middle, next, -, step, rest⟩ := foldlM_bindOne_split bound
  rcases bindOne_eq_ok step with ⟨value, origin, fitted, chosen, coerced, rfl⟩ | ⟨passes, -⟩
  · obtain rfl := (chosen.origin_eq_some_iff name).mpr written
    refine ⟨name, value, chosen, by simp [coerced], ?_⟩
    rw [source?_of_unread unread rest, source?_take_self]
  · exact absurd written.mentions passes.unwritten

/-! ## Binding a request -/

/-- Some binding of a table has the name of an argument. -/
def Declares (table : List Binding) (name : String) : Prop :=
  ∃ binding ∈ table, binding.schemaName = name

/-- The name of the first argument of a request that a table does not declare. -/
def FirstUndeclared (table : List Binding) (request : Request) (name : String) : Prop :=
  ∃ before written after, request.entries = before ++ (name, written) :: after ∧
    (∀ entry ∈ before, Declares table entry.1) ∧ ¬Declares table name

/-- No binding of a table has a name exactly if the table does not declare it. -/
theorem all_ne_iff {name : String} :
    (table.all fun binding => binding.schemaName ≠ name) = true ↔ ¬Declares table name := by
  simp [Declares]

/-- A request with an undeclared name is refused for the first one. -/
theorem bind_of_undeclared {name : String} (first : FirstUndeclared table request name) :
    bind field table request supplied = .error (.unknownArgument field name) := by
  obtain ⟨before, written, after, listed, declared, undeclared⟩ := first
  have found : request.entries.find? (fun entry => table.all (·.schemaName ≠ entry.1)) =
      some (name, written) := by
    refine List.find?_eq_some_iff_append.mpr ⟨all_ne_iff.mpr undeclared, before, after, listed, ?_⟩
    intro entry inside
    have known : ¬(table.all fun binding => binding.schemaName ≠ entry.1) = true :=
      fun absent => all_ne_iff.mp absent (declared entry inside)
    simpa using known
  rw [bind, found]

/-- A request of declared names is bound binding by binding. -/
theorem bind_of_declared (declared : ∀ entry ∈ request.entries, Declares table entry.1) :
    bind field table request supplied = table.foldlM (bindOne field request supplied) empty := by
  have none : request.entries.find? (fun entry => table.all (·.schemaName ≠ entry.1)) = none :=
    List.find?_eq_none.mpr fun entry inside absent =>
      all_ne_iff.mp absent (declared entry inside)
  rw [bind, none]

/-- Either a table declares every name that is written, or one of the names is the first that it
    does not declare. -/
theorem declared_or_firstUndeclared (table : List Binding) (request : Request) :
    (∀ entry ∈ request.entries, Declares table entry.1) ∨
      ∃ name, FirstUndeclared table request name := by
  cases found : request.entries.find? fun entry => table.all (·.schemaName ≠ entry.1) with
  | none =>
    refine .inl fun entry inside => Classical.byContradiction fun absent => ?_
    exact List.find?_eq_none.mp found entry inside (all_ne_iff.mpr absent)
  | some entry =>
    obtain ⟨name, written⟩ := entry
    obtain ⟨absent, before, after, listed, others⟩ := List.find?_eq_some_iff_append.mp found
    refine .inr ⟨name, before, written, after, listed, ?_, all_ne_iff.mp absent⟩
    refine fun entry inside => Classical.byContradiction fun absent => ?_
    have first := others entry inside
    rw [all_ne_iff.mpr absent] at first
    cases first

/-- Where a request binds, the table declares every name that is written, and all of its bindings
    are added in order. -/
theorem bind_ok (bound : bind field table request supplied = .ok arguments) :
    (∀ entry ∈ request.entries, Declares table entry.1) ∧
      table.foldlM (bindOne field request supplied) empty = .ok arguments := by
  rcases declared_or_firstUndeclared table request with declared | ⟨name, first⟩
  · exact ⟨declared, bind_of_declared declared ▸ bound⟩
  · rw [bind_of_undeclared first] at bound
    cases bound

/-- A member is bound exactly if one of its bindings takes something. -/
theorem has_iff (bound : bind field table request supplied = .ok arguments) (member : String) :
    arguments.has member = true ↔
      ∃ binding ∈ table, binding.member = member ∧ binding.Takes request := by
  obtain ⟨-, run⟩ := bind_ok bound
  have present : arguments.has member = (arguments.value? member).isSome := rfl
  rw [present]
  constructor
  · refine fun held => Classical.byContradiction fun none => ?_
    have untaken : ∀ binding ∈ table, binding.member = member → ¬binding.Takes request :=
      fun binding inside names takes => none ⟨binding, inside, names, takes⟩
    rw [value?_of_untaken untaken run] at held
    cases held
  · intro found
    obtain ⟨binding, after, last⟩ := exists_lastOf_iff.mpr found
    have listed : binding ∈ table := by
      obtain ⟨before, rfl⟩ := last.listed
      simp
    have fine := foldlM_bindOne_succeeds_iff.mp ⟨arguments, run⟩ binding listed
    rcases binding.takes_or_passes_or_fails field request supplied with
      ⟨value, origin, fitted, chosen, -⟩ | passes | ⟨fault, fails⟩
    · obtain ⟨fits, held⟩ := value?_of_lastOf last chosen run
      rw [held, fits]
    · exact absurd last.meets passes.not_takes
    · exact absurd fails (fine fault)

/-- The variable that a member comes from is that of the last of its bindings that reads
    one. -/
theorem sourceOf?_eq_some_iff (bound : bind field table request supplied = .ok arguments)
    (member name : String) :
    arguments.sourceOf? member = some name ↔
      ∃ binding after, LastOf (Binding.ReadsVariable request) table member binding after ∧
        request.Writes binding.schemaName (.fromVariable name) := by
  obtain ⟨-, run⟩ := bind_ok bound
  have recorded {binding : Binding} {after : List Binding}
      (last : LastOf (Binding.ReadsVariable request) table member binding after) :
      ∃ own, request.Writes binding.schemaName (.fromVariable own) ∧
        arguments.sourceOf? member = some own := by
    obtain ⟨own, value, chosen, -, held⟩ := source?_of_lastOf last run
    exact ⟨own, (chosen.origin_eq_some_iff own).mp rfl, by simp [sourceOf?, held]⟩
  constructor
  · intro held
    have read : ∃ binding ∈ table, binding.member = member ∧ binding.ReadsVariable request := by
      refine Classical.byContradiction fun none => ?_
      have unread : ∀ binding ∈ table, binding.member = member → ¬binding.ReadsVariable request :=
        fun binding inside names reads => none ⟨binding, inside, names, reads⟩
      simp [sourceOf?, source?_of_unread unread run, empty] at held
    obtain ⟨binding, after, last⟩ := exists_lastOf_iff.mpr read
    obtain ⟨own, written, known⟩ := recorded last
    obtain rfl : own = name := Option.some.inj (known.symm.trans held)
    exact ⟨binding, after, last, written⟩
  · rintro ⟨binding, after, last, written⟩
    obtain ⟨own, reads, known⟩ := recorded last
    cases written.unique reads
    exact known

/-! ## Success and failure -/

/-- A request is bound exactly if its names are declared and no binding fails. -/
theorem bind_succeeds_iff :
    (∃ arguments, bind field table request supplied = .ok arguments) ↔
      (∀ entry ∈ request.entries, Declares table entry.1) ∧
        ∀ binding ∈ table, ∀ fault, ¬binding.Fails field request supplied fault := by
  constructor
  · rintro ⟨arguments, bound⟩
    obtain ⟨declared, run⟩ := bind_ok bound
    exact ⟨declared, foldlM_bindOne_succeeds_iff.mp ⟨arguments, run⟩⟩
  · rintro ⟨declared, fine⟩
    rw [bind_of_declared declared]
    exact foldlM_bindOne_succeeds_iff.mpr fine

/-- The fault of a request that is not bound is that of its first undeclared name, and else that
    of the first binding that fails. -/
theorem bind_eq_error_iff {fault : CompileFault} :
    bind field table request supplied = .error fault ↔
      (∃ name, FirstUndeclared table request name ∧ fault = .unknownArgument field name) ∨
      (∀ entry ∈ request.entries, Declares table entry.1) ∧
        ∃ before binding after, table = before ++ binding :: after ∧
          (∀ earlier ∈ before, ∀ other, ¬earlier.Fails field request supplied other) ∧
          binding.Fails field request supplied fault := by
  constructor
  · intro failed
    rcases declared_or_firstUndeclared table request with declared | ⟨name, first⟩
    · rw [bind_of_declared declared] at failed
      exact .inr ⟨declared, foldlM_bindOne_eq_error_iff.mp failed⟩
    · rw [bind_of_undeclared first] at failed
      exact .inl ⟨name, first, (Except.error.inj failed).symm⟩
  · rintro (⟨name, first, rfl⟩ | ⟨declared, fails⟩)
    · exact bind_of_undeclared first
    · rw [bind_of_declared declared]
      exact foldlM_bindOne_eq_error_iff.mpr fails

/-- What binding makes of a request, for every table whose bindings have distinct members.

    It succeeds exactly if every name in the request is declared, every variable that is bound
    is supplied, whatever is required without a default is written, and what is chosen for a
    binding fits its type. Then exactly the members are bound for which something is written or
    stands in, each with its fitted choice, and exactly those come from a variable for which a
    variable is written first. Otherwise the fault is that of the first undeclared name if
    there is one, and else that of the first binding in the table that fails. -/
theorem bind_exact (distinct : (table.map Binding.member).Nodup) (field : String)
    (request : Request) (supplied : Option Variables) :
    ((∃ arguments, bind field table request supplied = .ok arguments) ↔
      (∀ entry ∈ request.entries, Declares table entry.1) ∧ ∀ binding ∈ table,
        (∀ name, request.Writes binding.schemaName (.fromVariable name) →
          ∃ value, Supplies supplied name value) ∧
        (binding.type.presence.required = true → binding.type.presence.default? = none →
          request.Mentions binding.schemaName) ∧
        ∀ value origin, binding.Chooses request supplied value origin →
          (binding.type.coerce? value).isSome = true) ∧
    (∀ arguments, bind field table request supplied = .ok arguments →
      (∀ member, arguments.has member = true ↔ ∃ binding ∈ table, binding.member = member ∧
        (request.Mentions binding.schemaName ∨ binding.type.presence.default? ≠ none)) ∧
      (∀ binding ∈ table, ∀ value origin, binding.Chooses request supplied value origin →
        arguments.value? binding.member = binding.type.coerce? value) ∧
      ∀ member name, arguments.sourceOf? member = some name ↔ ∃ binding ∈ table,
        binding.member = member ∧ request.Writes binding.schemaName (.fromVariable name)) ∧
    ∀ fault, bind field table request supplied = .error fault ↔
      (∃ name, FirstUndeclared table request name ∧ fault = .unknownArgument field name) ∨
      (∀ entry ∈ request.entries, Declares table entry.1) ∧
        ∃ before binding after, table = before ++ binding :: after ∧
          (∀ earlier ∈ before, ∀ other, ¬earlier.Fails field request supplied other) ∧
          binding.Fails field request supplied fault := by
  refine ⟨?_, fun arguments bound => ⟨has_iff bound, ?_, ?_⟩, fun fault => bind_eq_error_iff⟩
  · simp only [bind_succeeds_iff, Binding.forall_not_fails_iff]
  · intro binding inside value origin chosen
    obtain ⟨after, last⟩ := lastOf_of_nodup distinct inside chosen.takes
    exact (value?_of_lastOf last chosen (bind_ok bound).2).2
  · intro member name
    rw [sourceOf?_eq_some_iff bound]
    constructor
    · rintro ⟨binding, after, last, written⟩
      obtain ⟨before, rfl⟩ := last.listed
      exact ⟨binding, by simp, last.names, written⟩
    · rintro ⟨binding, inside, rfl, written⟩
      obtain ⟨after, last⟩ := lastOf_of_nodup distinct inside
        (show binding.ReadsVariable request from ⟨name, written⟩)
      exact ⟨binding, after, last, written⟩

/-- The arguments of a field of films: an identifier, the size of a page and a search text. -/
def filmTable : List Binding :=
  [⟨"id", "id", .scalar .id ⟨true, none⟩⟩,
    ⟨"first", "take", .scalar .int ⟨false, some (.int 10)⟩⟩,
    ⟨"search", "search", .scalar .string ArgumentType.optional⟩]

/-- A request that writes the identifier twice and nothing else. -/
def filmRequest : Request :=
  ⟨[("id", .fromVariable "film"), ("id", .literal .null)]⟩

/-- The film is the one with the number 7. -/
def filmVariables : Variables :=
  ⟨[("film", .int 7)]⟩

/-- The first identifier counts, a number that becomes a text, the size of the page is the
    default, and no search text is bound. Without the variable the binding of the identifier
    fails. -/
theorem bind_exact_filmTable :
    (filmTable.map Binding.member).Nodup ∧
      (∃ arguments, bind "films" filmTable filmRequest (some filmVariables) = .ok arguments ∧
        arguments.value? "id" = some (.string "7") ∧ arguments.sourceOf? "id" = some "film" ∧
        arguments.value? "take" = some (.int 10) ∧ arguments.has "search" = false) ∧
      bind "films" filmTable filmRequest none = .error (.undefinedVariable "film") := by
  have distinct : (filmTable.map Binding.member).Nodup := by decide
  have written : filmRequest.Writes "id" (.fromVariable "film") := ⟨[], _, rfl, by simp⟩
  have only : ∀ name, filmRequest.Mentions name ↔ name = "id" := by
    simp [Request.Mentions, filmRequest, eq_comm]
  obtain ⟨-, success, -⟩ :=
    bind_exact distinct "films" filmRequest (some filmVariables)
  obtain ⟨arguments, bound⟩ : ∃ arguments,
      bind "films" filmTable filmRequest (some filmVariables) = .ok arguments := ⟨_, rfl⟩
  obtain ⟨has, values, sources⟩ := success arguments bound
  refine ⟨distinct, ⟨arguments, bound, ?_, ?_, ?_, ?_⟩, ?_⟩
  · exact values _ (.head _) (.int 7) _ (.fromVariable written ⟨_, rfl, rfl⟩)
  · exact (sources "id" "film").mpr ⟨_, .head _, rfl, written⟩
  · exact values _ (.tail _ (.head _)) (.int 10) none (.default (by simp [only]) rfl)
  · rw [Bool.eq_false_iff, ne_eq, has]
    simp [only, filmTable, ArgumentType.presence, ArgumentType.optional]
  · exact ((bind_exact distinct "films" filmRequest none).2.2 _).mpr
      (.inr ⟨by simp [filmRequest, filmTable, Declares], [], _, _, rfl, by simp,
        .undefined written (by simp [Supplies])⟩)

end ArgumentSet

end StagedQuery
