import StagedQuery.Proofs.Expr.Purity

/-!
# What an evaluation sees

The capabilities and the placeholders of an expression are listed by a walk over its nodes,
which follows neither bindings nor values. An evaluation goes its own way: it ends at the first
fault, skips operands, runs a body once for each item, and binds placeholders that may be bound
already. It sees no more than the walk lists. Of a provider it sees the answers to the calls of
the listed capabilities, so that two providers with different instances cannot be told apart by
an expression whose calls they answer alike. Of an environment it sees the values of the
placeholders that are read somewhere in the expression.
-/

namespace StagedQuery

/-- Any call, and any fault but that of a missing capability. -/
def Effects.resolved : Effects where
  calls _ := True
  faults fault := ∀ capability, fault ≠ .missingCapability capability
  typeMismatch _ _ _ _ := by simp
  conversion _ _ _ := by simp

namespace Expr

variable {P Q : Provider} {env env' : Environment}

/-! ## Providers -/

/-- A capability is listed exactly if a node calls it. -/
theorem mem_capabilities {expr : Expr} {capability : Capability} :
    capability ∈ expr.capabilities ↔
      ∃ node ∈ expr.nodes, node.ownCapability? = some capability := by
  rw [capabilities, List.mem_eraseDups, List.mem_filterMap]

/-- Two providers answer a capability alike in every call that an expression makes of it. -/
def AnsweredAlikeFor (P Q : Provider) (expr : Expr) (capability : Capability) : Prop :=
  ∀ node ∈ expr.nodes, node.ownCapability? = some capability → AnsweredAlike P Q node

/-- Providers that answer the listed capabilities alike answer all calls alike. -/
theorem ProvidersAgree.of_capabilities {expr : Expr}
    (alike : ∀ capability ∈ expr.capabilities, AnsweredAlikeFor P Q expr capability) :
    ProvidersAgree P Q expr := by
  intro node inside
  cases own : node.ownCapability? with
  | none =>
    apply AnsweredAlike.of_eq
    intro capability calls
    rw [own] at calls
    cases calls
  | some capability =>
    exact alike capability (mem_capabilities.mpr ⟨node, inside, own⟩) node inside own

/-- No capability is missing where a provider has an instance of each that is listed. -/
theorem evaluate_resolved (expr : Expr)
    (resolves : ∀ capability ∈ expr.capabilities, P capability ≠ none) :
    (expr.evaluate P env).Within Effects.resolved := by
  apply evaluate_within
  constructor
  · intro slot _ _ capability
    exact nofun
  · rw [callsOnly_iff_capabilities]
    intro capability listed
    refine ⟨fun _ _ => trivial, ?_, fun _ _ _ => nofun⟩
    intro absent
    exact absurd absent (resolves capability listed)

/-- An evaluation sees a provider through the capabilities that the expression lists. Providers
    that answer these alike lead to one outcome: the same value or fault, and the same calls in
    the same order. If a provider has an instance of each of them, then none is missing. An
    expression without services has one outcome under all providers. -/
theorem evaluation_sees_capabilities (expr : Expr) (env : Environment) (P Q : Provider) :
    ((∀ capability ∈ expr.capabilities, AnsweredAlikeFor P Q expr capability) →
      expr.evaluate P env = expr.evaluate Q env) ∧
    ((∀ capability ∈ expr.capabilities, P capability ≠ none) →
      ∀ capability, (expr.evaluate P env).result ≠ .error (.missingCapability capability)) ∧
    (expr.hasServices = false → expr.evaluate P env = expr.evaluate Q env) := by
  refine ⟨?_, ?_, ?_⟩
  · intro alike
    exact evaluate_congr expr (fun _ _ => rfl) (.of_capabilities alike)
  · intro resolves capability missing
    exact (evaluate_resolved expr resolves).fault _ missing capability rfl
  · intro silent
    exact evaluate_provider_irrelevant silent P Q env

/-- The score of a film, with which the service answers from a member of its state. -/
def filmScore (film : Placeholder) : Expr :=
  .service ⟨"Ratings"⟩ "score" [read film] (.scalar .int) fun state _ =>
    .ok (state.member "score")

/-- The scores of some films, asked for one by one. -/
def filmScores (films film : Placeholder) : Expr :=
  .map (read films) film (filmScore film)

/-- Two providers whose instances differ in what the service does not answer, and of which one
    has a second capability, lead to the same scores. No provider is seen by the films alone. -/
theorem evaluation_sees_capabilities_filmScores :
    let films : Placeholder := ⟨0, "films", .any⟩
    let film : Placeholder := ⟨1, "film", .any⟩
    let env : Environment := [(0, .list [.string "Alien", .string "Heat"])]
    let rated (owner : String) : Instance :=
      ⟨⟨"Ratings"⟩, .object [("owner", .string owner), ("score", .int 5)]⟩
    let P : Provider := fun capability =>
      if capability = ⟨"Ratings"⟩ then some (rated "Ann") else none
    let Q : Provider := fun capability =>
      if capability = ⟨"Ratings"⟩ then some (rated "Bob") else some ⟨capability, .null⟩
    (∀ capability ∈ (filmScores films film).capabilities,
      AnsweredAlikeFor P Q (filmScores films film) capability ∧ P capability ≠ none) ∧
    (filmScores films film).evaluate P env = (filmScores films film).evaluate Q env ∧
    ((filmScores films film).evaluate P env).result = .ok (.list [.int 5, .int 5]) ∧
    (∀ capability, ((filmScores films film).evaluate P env).result ≠
      .error (.missingCapability capability)) ∧
    (read films).evaluate P env = (read films).evaluate .none env := by
  intro films film env rated P Q
  have listed : (filmScores films film).capabilities = [⟨"Ratings"⟩] := rfl
  have alike : ∀ capability ∈ (filmScores films film).capabilities,
      AnsweredAlikeFor P Q (filmScores films film) capability := by
    intro capability inside node visited own
    have known : node = filmScores films film ∨ node = read films ∨
        node = filmScore film ∨ node = read film := by
      simpa [filmScores, filmScore, nodes, walk, walkAll] using visited
    rcases known with rfl | rfl | rfl | rfl
    · cases own
    · cases own
    · exact .some fun values => rfl
    · cases own
  have resolves : ∀ capability ∈ (filmScores films film).capabilities, P capability ≠ none := by
    rw [listed]
    simp [P]
  obtain ⟨same, found, -⟩ := evaluation_sees_capabilities (filmScores films film) env P Q
  obtain ⟨-, -, unseen⟩ := evaluation_sees_capabilities (read films) env P .none
  exact ⟨fun capability inside => ⟨alike capability inside, resolves capability inside⟩,
    same alike, rfl, found resolves, unseen rfl⟩

/-! ## Environments -/

/-- Whether a placeholder is read goes by its number. -/
theorem references_congr (expr : Expr) {slot other : Placeholder}
    (same : slot.number = other.number) : expr.references slot = expr.references other := by
  simp only [references, Placeholder.is, same]

/-- What is free in an expression is read somewhere in it. -/
theorem references_of_free {expr : Expr} {slot : Placeholder} (free : slot.number ∈ expr.free) :
    expr.references slot = true := by
  cases read : expr.references slot with
  | true => rfl
  | false => exact absurd free (not_mem_free_of_references read)

/-- An evaluation sees an environment through the placeholders that the expression reads. Two
    environments that resolve these alike lead to one outcome, with the same calls. So it makes
    no difference whether a placeholder that is not read is bound, and to which value. -/
theorem evaluation_sees_references (expr : Expr) (provider : Provider) :
    (∀ (env : Environment) (slot : Placeholder), expr.references slot = false →
      ∀ value value' : Value,
        expr.evaluate provider (env.bind slot value) = expr.evaluate provider env ∧
          expr.evaluate provider (env.bind slot value) =
            expr.evaluate provider (env.bind slot value')) ∧
    ∀ env env' : Environment,
      (∀ slot, expr.references slot = true → env.value? slot = env'.value? slot) →
        expr.evaluate provider env = expr.evaluate provider env' := by
  have general (env env' : Environment)
      (agree : ∀ slot, expr.references slot = true → env.value? slot = env'.value? slot) :
      expr.evaluate provider env = expr.evaluate provider env' :=
    evaluate_congr expr (fun slot free => agree slot (references_of_free free))
      (.refl provider expr)
  refine ⟨?_, general⟩
  intro env slot unread value value'
  have unbound (value : Value) :
      expr.evaluate provider (env.bind slot value) = expr.evaluate provider env := by
    apply general
    intro other read
    have apart : slot.number ≠ other.number := by
      intro same
      rw [references_congr expr same, read] at unread
      cases unread
    rw [Environment.value?_bind, if_neg apart]
  exact ⟨unbound value, (unbound value).trans (unbound value').symm⟩

/-- The titles of some films, each under a binder that hides an earlier film. -/
def filmTitles (films film : Placeholder) : Expr :=
  .map (read films) film ((read film).get "title")

/-- The titles are the same with and without a viewer, and where an environment binds the films
    behind a viewer and the film anew. -/
theorem evaluation_sees_references_filmTitles :
    let films : Placeholder := ⟨0, "films", .any⟩
    let film : Placeholder := ⟨1, "film", .any⟩
    let viewer : Placeholder := ⟨2, "viewer", .any⟩
    let listed := Value.list [.object [("title", .string "Alien")], .null]
    let env : Environment := [(1, .null), (0, listed)]
    let env' : Environment := [(0, listed), (2, .string "Ann"), (0, .null), (1, .null)]
    (filmTitles films film).references viewer = false ∧
    (filmTitles films film).evaluate .none (env.bind viewer (.string "Ann")) =
      (filmTitles films film).evaluate .none env ∧
    (filmTitles films film).evaluate .none (env.bind viewer (.string "Ann")) =
      (filmTitles films film).evaluate .none (env.bind viewer .null) ∧
    (∀ slot, (filmTitles films film).references slot = true → env.value? slot = env'.value? slot) ∧
    (filmTitles films film).evaluate .none env = (filmTitles films film).evaluate .none env' ∧
    ((filmTitles films film).evaluate .none env).result = .ok (.list [.string "Alien", .null]) := by
  intro films film viewer listed env env'
  have agree : ∀ slot, (filmTitles films film).references slot = true →
      env.value? slot = env'.value? slot := by
    intro slot read
    have known : films.number = slot.number ∨ film.number = slot.number := by
      simpa [filmTitles, references, Placeholder.is, nodes, walk, Expr.get] using read
    rcases known with same | same
    · rw [← Environment.value?_congr same, ← Environment.value?_congr same]
      rfl
    · rw [← Environment.value?_congr same, ← Environment.value?_congr same]
      rfl
  obtain ⟨unread, alike⟩ := evaluation_sees_references (filmTitles films film) .none
  obtain ⟨unbound, rebound⟩ := unread env viewer rfl (.string "Ann") .null
  exact ⟨rfl, unbound, rebound, agree, alike env env' agree, rfl⟩

end Expr

end StagedQuery
