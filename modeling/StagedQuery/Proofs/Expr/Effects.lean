import StagedQuery.Proofs.Expr.Congruence

/-!
# What an evaluation may show

An evaluation starts calls and may end with a fault. Mismatched types and failed
conversions can come from any operation. Everything else comes from a leaf: a fault of
an unbound placeholder from a read, and calls, missing capabilities and failures of
services from a service call. So what a whole evaluation shows is known from the reads
and the service calls of the expression.
-/

namespace StagedQuery

/-- The calls and the faults that may be shown. Mismatched types and failed conversions
    always are among them. -/
structure Effects where
  calls : Event → Prop
  faults : ExecutionFault → Prop
  typeMismatch : ∀ operation expected found, faults (.typeMismatch operation expected found)
  conversion : ∀ value kind, faults (.conversion value kind)

/-- All that calls of one capability can show under a provider may be shown. -/
structure Effects.AdmitCalls (effects : Effects) (provider : Provider) (capability : Capability) :
    Prop where
  calls : ∀ method arguments, effects.calls (.service capability method arguments)
  missing : provider capability = none → effects.faults (.missingCapability capability)
  failed : ∀ method reason, effects.faults (.service capability method reason)

/-- Of the listed placeholders none is unbound, unless the fault may be shown. -/
def Effects.AdmitReads (effects : Effects) (env : Environment) (numbers : List Nat) : Prop :=
  ∀ slot : Placeholder, slot.number ∈ numbers → env.value? slot = none →
    effects.faults (.unboundPlaceholder slot.name)

variable {effects : Effects}

namespace Outcome

variable {α β : Type}

/-- An outcome that shows only calls and faults that may be shown. -/
structure Within (effects : Effects) (outcome : Outcome α) : Prop where
  log : ∀ event ∈ outcome.log, effects.calls event
  fault : ∀ fault, outcome.result = .error fault → effects.faults fault

/-- A plain value calls nothing and has no fault. -/
theorem within_pure (value : α) : Within effects (pure value : Outcome α) := by
  constructor
  · intro event inside
    cases inside
  · intro fault raised
    cases raised

/-- A result without any call stays within the effects that have its fault. -/
theorem within_ofExcept {result : Except ExecutionFault α}
    (own : ∀ fault, result = .error fault → effects.faults fault) :
    Within effects (ofExcept result) := by
  refine ⟨?_, own⟩
  intro event inside
  cases inside

/-- A failure stays within the effects that have its fault. -/
theorem within_fail {fault : ExecutionFault} (own : effects.faults fault) :
    Within effects (fail fault : Outcome α) := by
  apply within_ofExcept
  rintro raised ⟨⟩
  exact own

/-- A sequence shows what its parts show. -/
theorem Within.bind {first : Outcome α} {next : α → Outcome β} (within : first.Within effects)
    (rest : ∀ value, (next value).Within effects) : (first >>= next).Within effects := by
  obtain ⟨log, result⟩ := first
  obtain ⟨logged, own⟩ := within
  cases result with
  | error fault =>
    refine ⟨logged, ?_⟩
    rintro raised ⟨⟩
    exact own fault rfl
  | ok value =>
    obtain ⟨loggedToo, fine⟩ := rest value
    refine ⟨?_, fine⟩
    intro event inside
    rcases List.mem_append.mp inside with before | after
    · exact logged event before
    · exact loggedToo event after

end Outcome

open Outcome

/-! ## Operations of the evaluator -/

/-- That a value is no list is a fault that all effects have. -/
theorem within_listItems (operation : String) (value : Value) :
    (ofExcept (listItems operation value)).Within effects := by
  apply within_ofExcept
  intro fault raised
  cases value <;> cases raised <;> exact effects.typeMismatch _ _ _

/-- A list operation stays within the effects of its source and of what it does with the items. -/
theorem within_withItems (operation : String) {source : Outcome Value}
    {body : List Value → Outcome Value} (within : source.Within effects)
    (inner : ∀ items, (body items).Within effects) :
    (withItems operation source body).Within effects := by
  have listed := within.bind fun value => within_listItems operation value
  apply listed.bind
  intro found
  cases found with
  | none => exact within_pure _
  | some items => exact inner items

/-- A map stays within the effects of its body, whatever the items are. -/
theorem within_mapItems {α : Type} {body : Value → Outcome α}
    (within : ∀ item, (body item).Within effects) (items : List Value) :
    (mapItems body items).Within effects := by
  induction items with
  | nil => exact within_pure _
  | cons item rest ih =>
    exact (within item).bind fun first => ih.bind fun others => within_pure _

/-- A filter stays within the effects of its test, whatever the items are. -/
theorem within_keepItems {test : Value → Outcome Value}
    (within : ∀ item, (test item).Within effects) (items : List Value) :
    (keepItems test items).Within effects := by
  induction items with
  | nil => exact within_pure _
  | cons item rest ih =>
    exact (within item).bind fun held => ih.bind fun kept => within_pure _

/-- A search stays within the effects of its test, also if it stops at an item. -/
theorem within_findItem {test : Value → Outcome Value}
    (within : ∀ item, (test item).Within effects) (items : List Value) :
    (findItem test items).Within effects := by
  induction items with
  | nil => exact within_pure _
  | cons item rest ih =>
    apply (within item).bind
    intro held
    split
    · exact within_pure _
    · exact ih

/-- The faults of an operator on two values are faults that all effects have. -/
theorem within_apply (op : BinaryOp) (left right : Value) :
    (ofExcept (op.apply left right)).Within effects := by
  have comparing (sign : BinaryOp) (fault : ExecutionFault)
      (raised : compareValues sign left right = .error fault) : effects.faults fault := by
    unfold compareValues at raised
    split at raised
    · cases raised
    · split at raised <;> cases raised
      exact effects.typeMismatch _ _ _
  have calculating (sign : BinaryOp) (fault : ExecutionFault)
      (raised : calculate sign left right = .error fault) : effects.faults fault := by
    unfold calculate at raised
    split at raised <;> try split at raised
    all_goals cases raised
    all_goals exact effects.typeMismatch _ _ _
  apply within_ofExcept
  intro fault raised
  cases op with
  | equal | notEqual | and | or => cases raised
  | less | lessEqual | greater | greaterEqual => exact comparing _ fault raised
  | add | subtract | multiply => exact calculating _ fault raised

/-- A call of a service stays within effects that admit what the service may do. -/
theorem within_callService {provider : Provider} {capability : Capability}
    (admits : effects.AdmitCalls provider capability) (method : String) (answer : ServiceAnswer)
    (found : Instance) (arguments : List Value) :
    (callService capability method answer found arguments).Within effects := by
  unfold callService
  split
  · refine ⟨by simpa [record] using admits.calls _ _, ?_⟩
    intro fault raised
    simp only [record] at raised
    cases answered : answer found.state arguments with
    | error reason =>
      rw [answered] at raised
      cases raised
      exact admits.failed _ _
    | ok value =>
      rw [answered] at raised
      cases raised
  · exact within_fail (admits.failed _ _)

namespace Expr

variable {provider : Provider} {env : Environment}

/-! ## Lists of parts -/

/-- Arguments stay within effects together if they do one by one. -/
theorem within_evaluateAll {arguments : List Expr}
    (each : ∀ argument ∈ arguments, (argument.evaluate provider env).Within effects) :
    (evaluateAll provider arguments env).Within effects := by
  induction arguments with
  | nil => exact within_pure _
  | cons first rest ih =>
    exact (each first (by simp)).bind fun value =>
      (ih fun argument inside => each argument (by simp [inside])).bind fun others =>
        within_pure _

/-- The members of an object stay within effects together if they do one by one. -/
theorem within_evaluateFields {fields : List (String × Expr)}
    (each : ∀ field ∈ fields, (field.2.evaluate provider env).Within effects) :
    (evaluateFields provider fields env).Within effects := by
  induction fields with
  | nil => exact within_pure _
  | cons first rest ih =>
    exact (each first (by simp)).bind fun value =>
      (ih fun field inside => each field (by simp [inside])).bind fun others => within_pure _

/-- The keys of a sort stay within effects together if they do one by one. -/
theorem within_evaluateKeys {keys : List (Expr × Direction)}
    (each : ∀ key ∈ keys, (key.1.evaluate provider env).Within effects) :
    (evaluateKeys provider keys env).Within effects := by
  induction keys with
  | nil => exact within_pure _
  | cons first rest ih =>
    exact (each first (by simp)).bind fun value =>
      (ih fun key inside => each key (by simp [inside])).bind fun others => within_pure _

/-! ## Expressions -/

/-- What an expression needs so that its evaluation shows nothing else: its reads are admitted,
    and the calls of each capability that it calls. -/
structure Admitted (effects : Effects) (provider : Provider) (env : Environment) (expr : Expr) :
    Prop where
  reads : effects.AdmitReads env expr.free
  services : expr.CallsOnly (effects.AdmitCalls provider)

/-- A part outside the binder is admitted where the expression is. -/
theorem Admitted.outer {expr part : Expr} (admitted : Admitted effects provider env expr)
    (inside : part ∈ expr.outerParts) : Admitted effects provider env part where
  reads slot free := admitted.reads slot (mem_free_of_outer inside free)
  services :=
    ((callsOnly_iff expr).mp admitted.services).2 part (by simp [children_eq_append, inside])

/-- So is a part below the binder, whatever is bound. -/
theorem Admitted.inner {expr part : Expr} {slot : Placeholder}
    (admitted : Admitted effects provider env expr) (binds : expr.ownBinder? = some slot)
    (inside : part ∈ expr.innerParts) (value : Value) :
    Admitted effects provider (env.bind slot value) part where
  reads other free unbound := by
    rw [Environment.value?_bind] at unbound
    split at unbound
    · cases unbound
    · rename_i different
      exact admitted.reads other (mem_free_of_inner binds inside free (Ne.symm different)) unbound
  services :=
    ((callsOnly_iff expr).mp admitted.services).2 part (by simp [children_eq_append, inside])

/-- An evaluation shows nothing but what its reads and its services may show.

    Proof: induction over the forms. Each operation of the evaluator shows what it is applied
    to shows, or a fault that is always admitted. -/
theorem evaluate_within (expr : Expr) (admitted : Admitted effects provider env expr) :
    (expr.evaluate provider env).Within effects := by
  induction expr using Expr.induction generalizing env with
  | read slot =>
    simp only [evaluate]
    split
    · exact within_pure _
    · rename_i unbound
      exact within_fail (admitted.reads slot (by simp [free]) unbound)
  | constant value => exact within_pure _
  | member target name shape ih =>
    exact (ih (admitted.outer (by simp [outerParts, children]))).bind fun value => within_pure _
  | service capability method arguments shape answer each =>
    have admits : effects.AdmitCalls provider capability :=
      ((callsOnly_iff _).mp admitted.services).1 capability rfl
    simp only [evaluate]
    split
    · rename_i absent
      exact within_fail (admits.missing absent)
    · have values : (evaluateAll provider arguments env).Within effects := by
        apply within_evaluateAll
        intro argument inside
        exact each argument inside (admitted.outer inside)
      exact values.bind fun values => within_callService admits _ _ _ _
  | binary op left right leftIH rightIH =>
    have first := @leftIH env (admitted.outer (by simp [outerParts, children]))
    have second := @rightIH env (admitted.outer (by simp [outerParts, children]))
    simp only [evaluate]
    apply first.bind
    intro left
    split
    · exact within_pure _
    · apply second.bind
      intro right
      split
      · exact within_pure _
      · exact within_apply op left right
  | conditional test whenTrue whenFalse testIH trueIH falseIH =>
    have tested := @testIH env (admitted.outer (by simp [outerParts, children]))
    simp only [evaluate]
    apply tested.bind
    intro decided
    split
    · exact trueIH (admitted.outer (by simp [outerParts, children]))
    · exact falseIH (admitted.outer (by simp [outerParts, children]))
  | convert operand kind ih =>
    have converted := @ih env (admitted.outer (by simp [outerParts, children]))
    simp only [evaluate]
    apply converted.bind
    intro value
    split
    · exact within_pure _
    · exact within_fail (effects.conversion _ _)
  | object name fields each =>
    have members : ∀ field ∈ fields, (field.2.evaluate provider env).Within effects := by
      intro field inside
      exact each field inside (admitted.outer (List.mem_map_of_mem inside))
    simp only [evaluate]
    exact (within_evaluateFields members).bind fun members => within_pure _
  | scope slot value body valueIH bodyIH =>
    have outer := @valueIH env (admitted.outer (by simp [outerParts]))
    simp only [evaluate]
    apply outer.bind
    intro bound
    split
    · exact within_pure _
    · exact bodyIH (admitted.inner rfl (by simp [innerParts]) bound)
  | map source slot body sourceIH bodyIH =>
    have outer := @sourceIH env (admitted.outer (by simp [outerParts]))
    have inner (item : Value) : (body.evaluate provider (env.bind slot item)).Within effects :=
      bodyIH (admitted.inner rfl (by simp [innerParts]) item)
    simp only [evaluate]
    apply within_withItems _ outer
    intro items
    exact (within_mapItems inner items).bind fun results => within_pure _
  | filter source slot test sourceIH testIH =>
    have outer := @sourceIH env (admitted.outer (by simp [outerParts]))
    have inner (item : Value) : (test.evaluate provider (env.bind slot item)).Within effects :=
      testIH (admitted.inner rfl (by simp [innerParts]) item)
    simp only [evaluate]
    apply within_withItems _ outer
    intro items
    exact (within_keepItems inner items).bind fun kept => within_pure _
  | find source slot test sourceIH testIH =>
    have outer := @sourceIH env (admitted.outer (by simp [outerParts]))
    have inner (item : Value) : (test.evaluate provider (env.bind slot item)).Within effects :=
      testIH (admitted.inner rfl (by simp [innerParts]) item)
    simp only [evaluate]
    apply within_withItems _ outer
    intro items
    exact within_findItem inner items
  | sort source slot keys sourceIH each =>
    have outer := @sourceIH env (admitted.outer (by simp [outerParts]))
    have inner (item : Value) :
        (evaluateKeys provider keys (env.bind slot item)).Within effects := by
      apply within_evaluateKeys
      intro key inside
      exact each key inside (admitted.inner rfl (List.mem_map_of_mem inside) item)
    simp only [evaluate]
    apply within_withItems _ outer
    intro items
    refine (within_mapItems (fun item => ?_) items).bind fun keyed => within_pure _
    exact (inner item).bind fun values => within_pure _
  | slice source skip take ih =>
    have outer := @ih env (admitted.outer (by simp [outerParts, children]))
    simp only [evaluate]
    exact within_withItems _ outer fun items => within_pure _

end Expr

end StagedQuery
