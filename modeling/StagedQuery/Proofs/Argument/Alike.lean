import StagedQuery.Proofs.Argument.VariableReads

/-!
# One request bound from two sets of variables

A request is bound to the same members whatever the variables are. Only the values of
members that come from variables differ, and no expression of a member shows them: it
reads the variable instead. Where two such values differ, one type has fitted both.
-/

namespace StagedQuery.ArgumentSet

variable {field : String} {request : Request} {supplied supplied' : Option Variables}
  {first second next next' : ArgumentSet}

/-- A value that a type has made of another one. -/
def Fitted (type : ArgumentType) (value? : Option Value) : Prop :=
  ∃ raw fitted, type.coerce? raw = some fitted ∧ value? = some fitted

/-- Arguments that come from the same variables. A member has the same value in both, or it
    comes from a variable and the type that it was bound with has fitted the value in both. -/
structure Alike (first second : ArgumentSet) : Prop where
  sources : second.sources = first.sources
  values : ∀ member, second.value? member = first.value? member ∨
    ∃ source, first.sources.value? member = some source ∧
      Fitted source.type (first.value? member) ∧ Fitted source.type (second.value? member)

/-- Any arguments are alike to themselves. -/
theorem Alike.refl (arguments : ArgumentSet) : arguments.Alike arguments :=
  ⟨rfl, fun _ => .inl rfl⟩

/-- Values that come from no variable are the same. -/
theorem Alike.value?_eq (alike : first.Alike second) {member : String}
    (own : first.sources.value? member = none) : second.value? member = first.value? member := by
  rcases alike.values member with same | ⟨source, known, -⟩
  · exact same
  · rw [own] at known
    cases known

/-! ## Binding -/

/-- One binding keeps argument sets alike. A value that is taken from a variable is fitted by
    the type of the binding, and any other value is found without the variables. -/
theorem Alike.bindOne {binding : Binding} (alike : first.Alike second)
    (bound : bindOne field request supplied first binding = .ok next)
    (bound' : bindOne field request supplied' second binding = .ok next') : next.Alike next' := by
  rcases bindOne_eq_ok bound with ⟨value, origin, fitted, chosen, coerced, rfl⟩ | ⟨passes, rfl⟩ <;>
    rcases bindOne_eq_ok bound' with
      ⟨value', origin', fitted', chosen', coerced', rfl⟩ | ⟨passes', rfl⟩
  · obtain ⟨rfl, literal⟩ := chosen.alike chosen'
    refine ⟨by simp only [take, alike.sources], fun member => ?_⟩
    by_cases same : member = binding.member
    · subst same
      cases origin' with
      | some name =>
        exact .inr ⟨_, source?_take_self, ⟨value, fitted, coerced, value?_take_self⟩,
          ⟨value', fitted', coerced', value?_take_self⟩⟩
      | none =>
        left
        rw [value?_take_self, value?_take_self, ← coerced, ← coerced', literal rfl]
    · rw [value?_take_of_ne same, value?_take_of_ne same, source?_take_of_ne (.inl same)]
      exact alike.values member
  · exact absurd chosen.takes passes'.not_takes
  · exact absurd chosen'.takes passes.not_takes
  · exact alike

/-- A request that binds with either of two sets of variables binds alike.

    Proof: induction on the table, binding by binding in both runs. -/
theorem bind_alike {table : List Binding}
    (bound : bind field table request supplied = .ok first)
    (bound' : bind field table request supplied' = .ok second) : first.Alike second := by
  have every (rest : List Binding) (one one' : ArgumentSet) (before : one.Alike one')
      (folded : rest.foldlM (ArgumentSet.bindOne field request supplied) one = .ok first)
      (folded' : rest.foldlM (ArgumentSet.bindOne field request supplied') one' = .ok second) :
      first.Alike second := by
    induction rest generalizing one one' with
    | nil =>
      simp only [List.foldlM_nil, Pure.pure, Except.pure, Except.ok.injEq] at folded folded'
      exact folded ▸ folded' ▸ before
    | cons binding rest ih =>
      rw [List.foldlM_cons] at folded folded'
      cases taken : ArgumentSet.bindOne field request supplied one binding with
      | error fault => simp [taken, Bind.bind, Except.bind] at folded
      | ok next =>
        cases taken' : ArgumentSet.bindOne field request supplied' one' binding with
        | error fault => simp [taken', Bind.bind, Except.bind] at folded'
        | ok next' =>
          simp only [taken, taken', Bind.bind, Except.bind] at folded folded'
          exact ih next next' (before.bindOne taken taken') folded folded'
  unfold bind at bound bound'
  split at bound
  · cases bound
  · rename_i declared
    rw [declared] at bound'
    exact every table empty empty (.refl empty) bound bound'

/-! ## Expressions -/

/-- Arguments that cannot be told apart by their expressions. -/
structure SameExprs (first second : ArgumentSet) : Prop where
  expr : ∀ member, second.expr member = first.expr member
  memberExpr : ∀ member name, second.memberExpr member name = first.memberExpr member name

/-- No arguments can be told apart from themselves. -/
theorem SameExprs.refl (arguments : ArgumentSet) : arguments.SameExprs arguments :=
  ⟨fun _ => rfl, fun _ _ => rfl⟩

/-- Alike arguments cannot be told apart once they read variables: what does not come from a
    variable has the same value, and no value shows of what does. -/
theorem Alike.sameExprs (alike : first.Alike second) (slot : Placeholder) :
    (first.readVariablesFrom slot).SameExprs (second.readVariablesFrom slot) := by
  have reads (member : String) : (second.readVariablesFrom slot).variableRead? member =
      (first.readVariablesFrom slot).variableRead? member := by
    simp only [variableRead?, readVariablesFrom, alike.sources]
  have values (member : String)
      (unread : (first.readVariablesFrom slot).variableRead? member = none) :
      (second.readVariablesFrom slot).value? member =
        (first.readVariablesFrom slot).value? member := by
    apply alike.value?_eq
    cases known : first.sources.value? member with
    | none => rfl
    | some source => simp [variableRead?, readVariablesFrom, known] at unread
  constructor
  · intro member
    simp only [expr, reads]
    cases unread : (first.readVariablesFrom slot).variableRead? member with
    | some read => rfl
    | none => simp only [values member unread]
  · intro member name
    simp only [memberExpr, reads]
    cases unread : (first.readVariablesFrom slot).variableRead? member with
    | some read => rfl
    | none => simp only [values member unread]

end StagedQuery.ArgumentSet
