import StagedQuery.Proofs.Expr.Effects
import StagedQuery.Proofs.Outcome

/-!
# Expressions without services

An expression that calls no service has the same outcome under every provider. The
outcome has an empty log, and if it is a failure then the provider has no part in
it: no capability was missing and no service failed.
-/

namespace StagedQuery

/-- The faults in which a provider has a part. -/
def ExecutionFault.OfProvider : ExecutionFault → Prop
  | .missingCapability _ => True
  | .service _ _ _ => True
  | _ => False

/-- No call, and no fault in which a provider has a part. -/
def Effects.quiet : Effects where
  calls _ := False
  faults fault := ¬fault.OfProvider
  typeMismatch _ _ _ := id
  conversion _ _ := id

namespace Outcome

variable {α : Type}

/-- No call was started, and no provider has a part in the failure, if it is one. -/
structure Quiet (outcome : Outcome α) : Prop where
  log_nil : outcome.log = []
  fault : ∀ fault, outcome.result = .error fault → ¬fault.OfProvider

/-- A quiet success is a plain value. -/
theorem Quiet.eq_pure {outcome : Outcome α} (quiet : outcome.Quiet) {value : α}
    (succeeded : outcome.result = .ok value) : outcome = pure value := by
  obtain ⟨log, result⟩ := outcome
  obtain ⟨rfl, -⟩ := quiet
  cases succeeded
  rfl

/-- A quiet failure is a plain fault. -/
theorem Quiet.eq_fail {outcome : Outcome α} (quiet : outcome.Quiet) {fault : ExecutionFault}
    (failed : outcome.result = .error fault) : outcome = fail fault := by
  obtain ⟨log, result⟩ := outcome
  obtain ⟨rfl, -⟩ := quiet
  cases failed
  rfl

/-- What a quiet outcome does is known from its effect: it yields a plain value or fails with a
    plain fault. -/
theorem Quiet.effect_cases {outcome : Outcome α} (quiet : outcome.Quiet) :
    (∃ value, outcome = pure value ∧ outcome.effect = pure ()) ∨
      ∃ fault, outcome = fail fault ∧ outcome.effect = fail fault := by
  cases found : outcome.result with
  | ok value =>
    have plain := quiet.eq_pure found
    exact .inl ⟨value, plain, by rw [plain, effect_pure]⟩
  | error fault =>
    have plain := quiet.eq_fail found
    exact .inr ⟨fault, plain, by rw [plain]; rfl⟩

end Outcome

namespace Expr

variable {provider : Provider} {env : Environment}

/-- The evaluation of an expression that calls no service is quiet. -/
theorem evaluate_quiet (expr : Expr) (silent : expr.hasServices = false) :
    (expr.evaluate provider env).Quiet := by
  have admitted : Admitted Effects.quiet provider env expr := by
    constructor
    · intro slot _ _
      exact id
    · exact callsOnly_of_silent silent
  obtain ⟨log, fault⟩ := evaluate_within expr admitted
  exact ⟨List.eq_nil_iff_forall_not_mem.mpr log, fault⟩

/-- An expression that calls no service has one outcome under all providers. -/
theorem evaluate_provider_irrelevant {expr : Expr} (silent : expr.hasServices = false)
    (P Q : Provider) (env : Environment) : expr.evaluate P env = expr.evaluate Q env := by
  have quiet : ∀ node ∈ expr.nodes, node.ownCapability? = none := by
    simpa [hasServices] using silent
  have providers : ProvidersAgree P Q expr := by
    intro node inside
    apply AnsweredAlike.of_eq
    intro capability own
    rw [quiet node inside] at own
    cases own
  exact evaluate_congr expr (fun _ _ => rfl) providers

end Expr

end StagedQuery
