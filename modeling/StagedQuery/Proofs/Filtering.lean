import StagedQuery.Proofs.Argument.ScalarInput
import StagedQuery.Proofs.Argument.VariableReads
import StagedQuery.Proofs.FloatOrder
import StagedQuery.Proofs.ListHooks
import StagedQuery.Proofs.Widening

/-!
# Filtering by the value of an item

The value that a filter compares with is fitted to the kind of its member first, while items have
their members as they are stored. Loose equality makes up for an integer that was widened, but an
integer that was fitted as an identifier is a text, which no integer equals. So an item that is
asked for by its own value is kept exactly if that value is neither an integer where an
identifier is declared nor the floating point value that is not a number, which differs from
itself.
-/

namespace StagedQuery

open Outcome

/-- A value loosely equals what coercion makes of it, unless it is an integer as an identifier or
    the floating point value that is not a number. -/
theorem ArgumentType.looseSame_coerced_iff {kind : ScalarKind} {value fitted : Value}
    (coerced : coerceScalar? kind value = some fitted) :
    value.looseSame fitted = true ↔
      ¬(kind = .id ∧ ∃ number, value = .int number) ∧
        ∀ number, value = .float number → number.isNaN = false := by
  unfold coerceScalar? at coerced
  split at coerced <;> cases coerced
  · simp [Value.looseSame, Value.same]
  · exact iff_of_true (Value.float_beq_self_iff.mpr (Value.isNaN_widen _)) (by simp)
  · exact Value.float_beq_self_iff.trans (by simp)
  · simp [Value.looseSame, Value.same]
  · simp [Value.looseSame, Value.same]
  · simp [Value.looseSame, Value.same]
  · simp [Value.looseSame, Value.same]

/-- What coercion makes of a scalar is not null. -/
theorem ArgumentType.isNull_of_coerceScalar? {kind : ScalarKind} {value fitted : Value}
    (coerced : coerceScalar? kind value = some fitted) : fitted.isNull = false := by
  unfold coerceScalar? at coerced
  split at coerced <;> cases coerced <;> rfl

/-- An environment has the variables that are supplied at their placeholder, and perhaps others
    of the same operation. -/
def Environment.HoldsVariables (env : Environment) (slot : Placeholder)
    (supplied : Option Variables) : Prop :=
  ∀ name value, Supplies supplied name value →
    ∃ held : Variables, env.value? slot = some held.toValue ∧ held.value? name = some value

/-- The variables are still there when an item is bound to another number than theirs. -/
theorem Environment.HoldsVariables.bind {env : Environment} {slot item : Placeholder}
    {supplied : Option Variables} (holds : env.HoldsVariables slot supplied)
    (apart : item.number ≠ slot.number) (value : Value) :
    (env.bind item value).HoldsVariables slot supplied := by
  intro name given supplies
  obtain ⟨held, bound, known⟩ := holds name given supplies
  exact ⟨held, by rw [Environment.value?_bind, if_neg apart, bound], known⟩

/-- An environment need hold nothing if no variables are supplied. -/
theorem Environment.holdsVariables_none (env : Environment) (slot : Placeholder) :
    env.HoldsVariables slot none := by
  rintro name value ⟨values, none, -⟩
  cases none

namespace Extension

variable {title : String} {shapes : Members Shape} {name : String} {kind : ScalarKind}
  {field : String} {table : List Binding} {binding : Binding} {request : Request}
  {supplied : Option Variables} {origin : Option String} {arguments : ArgumentSet}
  {value one : Value} {slot : Placeholder} {provider : Provider} {env : Environment}

/-- A filter offers one argument whose members are the scalar members of the shape, each of them
    optional and of its own kind. -/
theorem bindings_filter (shape : Shape) : filter.bindings shape =
    scalarBindings shape "filter" "Filter" fun kind => .scalar kind ArgumentType.optional :=
  rfl

/-- A filter by one member that is not null binds what the value is fitted as. -/
theorem boundMembers_filter_one (distinct : shapes.Distinct)
    (scalar : (name, kind) ∈ (Shape.object title shapes).scalarMembers)
    (own : binding ∈ filter.bindings (.object title shapes)) (alone : binding.AloneIn table)
    (chosen : binding.Chooses request supplied (.object [(name, value)]) origin)
    (present : value ≠ .null)
    (bound : ArgumentSet.bind field table request supplied = .ok arguments) :
    ∃ one, ArgumentType.coerceScalar? kind value = some one ∧
      boundMembers arguments "filter" = [(name, one)] := by
  rw [bindings_filter] at own
  obtain ⟨-, -, fits, held⟩ := bound_scalarInput distinct (fun _ => rfl) own alone chosen bound
  obtain ⟨one, coerced⟩ := fits name kind scalar value (by simp [Members.value?])
  have once := @distinct_scalarMembers title shapes distinct
  have others : ∀ pair ∈ (Shape.object title shapes).scalarMembers, pair ∉ [(name, kind)] →
      ((Members.value? [(name, value)] pair.1).bind
        (ArgumentType.scalar pair.2 ArgumentType.optional).coerce?).map (pair.1, ·) = none := by
    intro pair listed other
    have different : name ≠ pair.1 := fun same =>
      other (List.mem_singleton.mpr (List.inj_on_of_nodup_map once listed scalar same.symm))
    simp [Members.value?, different]
  refine ⟨one, ?_, ?_⟩
  · cases ArgumentType.coerce?_iff.mp coerced with
    | null => exact absurd rfl present
    | scalar fits => exact fits
  · rw [held]
    refine (filterMap_of_sublist (List.singleton_sublist.mpr scalar) once.of_map others).trans ?_
    simp [Members.value?, coerced]

/-- The member that a filter is asked for has the fitted value, whether it is written out or read
    from a variable. -/
theorem evaluate_memberExpr_filter (distinct : shapes.Distinct)
    (scalar : (name, kind) ∈ (Shape.object title shapes).scalarMembers)
    (own : binding ∈ filter.bindings (.object title shapes)) (alone : binding.AloneIn table)
    (chosen : binding.Chooses request supplied (.object [(name, value)]) origin)
    (bound : ArgumentSet.bind field table request supplied = .ok arguments)
    (held : boundMembers arguments "filter" = [(name, one)])
    (holds : env.HoldsVariables slot supplied) :
    ((arguments.readVariablesFrom slot).memberExpr "filter" name).evaluate provider env =
      pure one := by
  obtain ⟨fitted, coerced, stored⟩ := ArgumentSet.value?_of_alone alone chosen bound
  have known := ArgumentSet.source?_of_alone alone chosen bound
  rw [bindings_filter] at own
  obtain ⟨named, typed⟩ := binding_of_mem_scalarBindings own
  rw [named] at stored known
  rw [typed] at coerced known
  have member : fitted.member name = one := by
    cases ArgumentType.coerce?_iff.mp coerced with | object fits
    rw [boundMembers, stored] at held
    obtain rfl : _ = [(name, one)] := held
    simp [Value.member, Members.value?]
  cases chosen with
  | literal | default =>
    have unread : (arguments.readVariablesFrom slot).sources.value? "filter" = none := known
    have same : (arguments.readVariablesFrom slot).value? "filter" = some fitted := stored
    rw [ArgumentSet.memberExpr_of_source?_eq_none unread, same, Option.map_some, member]
    rfl
  | fromVariable _ supplies =>
    obtain ⟨assigned, given, raw⟩ := holds _ _ supplies
    have apart := @apart_scalarFields title shapes
      (fun kind => .scalar kind ArgumentType.optional) distinct
    rw [← member]
    refine (ArgumentSet.evaluate_memberExpr_iff given known raw coerced rfl apart name).mpr ?_
    rintro members ⟨⟩
    simp only [ArgumentSet.ReadsAlike, find?_scalarFields distinct scalar, Members.value?,
      ↓reduceIte]
    exact .inl rfl

/-- A filter that compares one member keeps the items for which it loosely equals the wanted value,
    whatever the placeholder of the item is bound to. -/
theorem result_filterSource_one (field : String) {items : List Value} {source : Expr} {supply : Nat}
    (compared : comparedMembers arguments = [name])
    (wanted : ∀ other, (arguments.memberExpr "filter" name).evaluate provider
      (env.bind (source.drawElement "item" supply).1 other) = pure one)
    (listed : (source.evaluate provider env).result = .ok (.list items)) :
    ((filterSource field arguments source supply).1.evaluate provider env).result =
      .ok (.list (items.filter fun other => (other.member name).looseSame one)) := by
  have passes (other : Value) :
      (conjunction [filterTest arguments (source.drawElement "item" supply).1 name]).evaluate
          provider (env.bind (source.drawElement "item" supply).1 other) =
        pure (.bool ((other.member name).looseSame one)) := by
    simp only [conjunction, List.foldl_nil, filterTest, Expr.evaluate, evaluate_itemMember,
      pure_bind, wanted]
    rfl
  rw [filterSource_eq, compared]
  simp only [List.isEmpty_cons, Bool.false_eq_true, ↓reduceIte, Drawing.run_bind,
    Drawing.run_pure, List.map_cons, List.map_nil, Expr.evaluate]
  refine withItems_result listed ?_
  simp only [passes, keepItems_pure, pure_bind]
  rfl

/-- Filtering by the value that an item has for a scalar member, written out or as a variable, for
    every list that the source results in: what is kept are the items whose member loosely equals
    what the value is fitted as, and the item is among them exactly if its value is neither an
    integer where the shape declares an identifier nor the floating point value that is not a
    number. -/
theorem filter_keeps_own_iff (distinct : shapes.Distinct)
    (scalar : (name, kind) ∈ (Shape.object title shapes).scalarMembers)
    (own : binding ∈ filter.bindings (.object title shapes)) (alone : binding.AloneIn table)
    {items : List Value} {item : Value} (inside : item ∈ items) (present : item.member name ≠ .null)
    (chosen : binding.Chooses request supplied (.object [(name, item.member name)]) origin)
    (bound : ArgumentSet.bind field table request supplied = .ok arguments)
    (holds : env.HoldsVariables slot supplied)
    {source : Expr} {supply : Nat} (fresh : slot.number ≠ supply)
    (listed : (source.evaluate provider env).result = .ok (.list items)) :
    ∃ one, ArgumentType.coerceScalar? kind (item.member name) = some one ∧
      ((filter.beforeSelection field (arguments.readVariablesFrom slot) source supply).1.evaluate
        provider env).result =
          .ok (.list (items.filter fun other => (other.member name).looseSame one)) ∧
      (item ∈ items.filter (fun other => (other.member name).looseSame one) ↔
        ¬(kind = .id ∧ ∃ number, item.member name = .int number) ∧
          ∀ number, item.member name = .float number → number.isNaN = false) := by
  obtain ⟨one, coerced, held⟩ :=
    boundMembers_filter_one distinct scalar own alone chosen present bound
  have compared : comparedMembers (arguments.readVariablesFrom slot) = [name] := by
    have kept : boundMembers (arguments.readVariablesFrom slot) "filter" = [(name, one)] := held
    have some : one.isNull = false := ArgumentType.isNull_of_coerceScalar? coerced
    simp [comparedMembers, kept, some]
  -- The variables are read below the binder of the item, which is not their placeholder.
  have apart : (source.drawElement "item" supply).1.number ≠ slot.number := Ne.symm fresh
  have wanted (other : Value) :
      ((arguments.readVariablesFrom slot).memberExpr "filter" name).evaluate provider
        (env.bind (source.drawElement "item" supply).1 other) = pure one :=
    evaluate_memberExpr_filter distinct scalar own alone chosen bound held (holds.bind apart other)
  refine ⟨one, coerced, result_filterSource_one field compared wanted listed, ?_⟩
  rw [List.mem_filter, ← ArgumentType.looseSame_coerced_iff coerced]
  exact and_iff_right inside

/-- The members of a film: its identifier. -/
def identifiedFilm : Members Shape :=
  [("id", .scalar .id)]

/-- A film as it is stored, with a number. -/
def numberedFilm : Value :=
  .object [("id", .int 7)]

/-- The argument that a filter brings to a field of films. -/
def filmFilter : Binding :=
  ⟨"filter", "filter", .input "FilmFilter" [⟨"id", "id", .scalar .id ArgumentType.optional⟩]
    ArgumentType.optional⟩

/-- A film whose number stands where an identifier is declared is not found by it. -/
theorem filter_loses_numberedFilm :
    ∃ arguments kept, ArgumentSet.bind "films" [filmFilter]
        ⟨[("filter", .literal (.object [("id", numberedFilm.member "id")]))]⟩ none =
          .ok arguments ∧
      ((filter.beforeSelection "films" (arguments.readVariablesFrom ⟨0, "vars", .any⟩)
        (.constant (.list [numberedFilm])) 1).1.evaluate Provider.none []).result =
          .ok (.list kept) ∧
      numberedFilm ∉ kept := by
  have distinct : identifiedFilm.Distinct := by
    simp [identifiedFilm, Members.Distinct, Members.names]
  have scalar : ("id", .id) ∈ (Shape.object "Film" identifiedFilm).scalarMembers :=
    List.mem_cons_self
  have own : filmFilter ∈ filter.bindings (.object "Film" identifiedFilm) := List.mem_cons_self
  have alone : filmFilter.AloneIn [filmFilter] :=
    ⟨List.mem_cons_self, fun other listed _ => List.mem_singleton.mp listed⟩
  have present : numberedFilm.member "id" ≠ .null := by
    simp [numberedFilm, Value.member, Members.value?]
  have chosen : filmFilter.Chooses
      ⟨[("filter", .literal (.object [("id", numberedFilm.member "id")]))]⟩ none
        (.object [("id", numberedFilm.member "id")]) none := .literal ⟨[], [], rfl, by simp⟩
  have listed : ((Expr.constant (.list [numberedFilm])).evaluate Provider.none []).result =
      .ok (.list [numberedFilm]) := rfl
  have apart : (⟨0, "vars", .any⟩ : Placeholder).number ≠ 1 := by decide
  obtain ⟨arguments, bound⟩ : ∃ arguments, ArgumentSet.bind "films" [filmFilter]
      ⟨[("filter", .literal (.object [("id", numberedFilm.member "id")]))]⟩ none =
        .ok arguments := ⟨_, rfl⟩
  obtain ⟨one, -, kept, found⟩ := filter_keeps_own_iff distinct scalar own alone List.mem_cons_self
    present chosen bound (Environment.holdsVariables_none _ _) apart listed
  refine ⟨arguments, _, bound, kept, ?_⟩
  rw [found]
  simp [numberedFilm, Value.member, Members.value?]

end Extension

end StagedQuery
