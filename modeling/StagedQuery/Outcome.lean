import StagedQuery.Fault

/-!
# Outcomes and their log

Evaluation calls services and may fail. An outcome holds the result together with
the log of all calls that were started, in order; a failure keeps the log of the
calls before it. Nothing else leaves a trace, so two outcomes are equal exactly
when their results and their logs are.
-/

namespace StagedQuery

/-- A call that was started: a service method with its arguments, or the procedure of a
    mutation on an instance in some state. -/
inductive Event where
  | service (capability : Capability) (method : String) (arguments : List Value)
  | procedure (declaring : Capability) (state : Value)

/-- A result and the calls that were started on the way. -/
structure Outcome (α : Type) where
  log : List Event
  result : Except ExecutionFault α

namespace Outcome

variable {α β γ : Type}

/-- A result without any call. -/
def ofExcept (result : Except ExecutionFault α) : Outcome α :=
  ⟨[], result⟩

/-- A failure without any call. -/
def fail (fault : ExecutionFault) : Outcome α :=
  ⟨[], .error fault⟩

/-- Continues with a result; a failure ends the evaluation. -/
def andThen (first : Outcome α) (next : α → Outcome β) : Outcome β :=
  match first.result with
  | .ok value =>
    let rest := next value
    ⟨first.log ++ rest.log, rest.result⟩
  | .error fault => ⟨first.log, .error fault⟩

/-- Outcomes in sequence: the log goes on, and a failure ends the sequence. -/
instance : Monad Outcome where
  pure value := ⟨[], .ok value⟩
  bind := andThen

/-- Records a call before its result. -/
def record (event : Event) (result : Except ExecutionFault α) : Outcome α :=
  ⟨[event], result⟩

/-- Continuing with the result itself changes nothing. -/
theorem andThen_pure (first : Outcome α) : first.andThen pure = first := by
  obtain ⟨log, _ | value⟩ := first <;> simp [andThen, pure]

/-- It does not matter how a sequence is bracketed: the logs are joined in order, and the first
    failure ends it. -/
theorem andThen_assoc (first : Outcome α) (second : α → Outcome β) (third : β → Outcome γ) :
    (first.andThen second).andThen third =
      first.andThen fun value => (second value).andThen third := by
  obtain ⟨log, _ | value⟩ := first
  · rfl
  · simp only [andThen]
    split <;> simp_all

/-- Sequences of outcomes obey the laws of a monad. -/
instance : LawfulMonad Outcome :=
  LawfulMonad.mk' Outcome
    (fun first => andThen_pure first)
    (fun _ _ => rfl)
    (fun first second third => andThen_assoc first second third)

end Outcome

end StagedQuery
