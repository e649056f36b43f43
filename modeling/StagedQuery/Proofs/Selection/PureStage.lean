import StagedQuery.Query
import StagedQuery.Proofs.Expr.Chain
import StagedQuery.Proofs.Extension
import StagedQuery.Proofs.Selection.Capabilities
import StagedQuery.Proofs.Selection.Expansion

/-!
# The first of two stages calls no service

A pass without services contributes, for a field that calls one, only chains over its
context. Every other expression of the pass is made of expressions without services by
relocation and by the hooks of extensions. So where hooks add no service of their own,
none occurs in the first stage, at whatever depth and behind whatever spread.
-/

namespace StagedQuery

/-- None of the contributed expressions calls a service. -/
abbrev Contributions.Silent : Contributions → Prop :=
  Contributions.Each fun _ expr => expr.hasServices = false

/-- So they call services of no capability. -/
theorem Contributions.silent_iff {contributions : Contributions} :
    contributions.Silent ↔ contributions.CallsOnly fun _ => False := by
  simp only [Silent, CallsOnly, Each, Expr.callsOnly_false_iff]

/-- A selection from a source without services, of members without services, calls none. -/
theorem SelectionSource.silent_select {found : SelectionSource} {name : String} {isList : Bool}
    {members : Contributions} (source : found.source.hasServices = false)
    (each : members.Silent) : (found.select name isList members).hasServices = false :=
  (Expr.callsOnly_false_iff _).mp
    (callsOnly_select (Expr.callsOnly_of_silent source) (Contributions.silent_iff.mp each))

/-- A field calls a service exactly when its expression has one. -/
theorem Field.callsService_eq (field : Field) : field.callsService = field.expr.hasServices := by
  have isEmpty_eraseDups (listed : List Capability) :
      listed.eraseDups.isEmpty = listed.isEmpty := by
    cases listed <;> simp [List.eraseDups_cons]
  unfold callsService services Expr.capabilities Expr.hasServices
  rw [isEmpty_eraseDups, Bool.eq_iff_iff]
  simp [Option.isSome_iff_ne_none]

/-- Of a field whose hooks add no service, a pass without services evaluates none. -/
theorem Field.callsOnly_of_addsNoService {field : Field}
    (hooks : ∀ extension ∈ field.extensions, extension.AddsNoService) :
    field.CallsOnly (fun _ => False) true := by
  refine ⟨?_, fun extension inside =>
    Extension.addsNoService_iff.mp (hooks extension inside) field.name field.arguments⟩
  intro stays
  rw [Expr.callsOnly_false_iff, ← field.callsService_eq]
  simpa using stays

/-- What an outline contributes to a pass without services calls none. -/
theorem Outline.silent_contribute (outline : Outline)
    (hooks : ∀ field ∈ outline.fields, ∀ extension ∈ field.extensions, extension.AddsNoService)
    (base? : Option Placeholder) {options : PassOptions} (leaving : options.leavingOut = true)
    (fromData : options.replacement? = none) :
    Drawing.Yields Contributions.Silent (outline.contribute options base?) := by
  have calls : ∀ field ∈ outline.requested,
      field.CallsOnly (fun _ => False) options.leavingOut := by
    intro field asked
    rw [leaving]
    exact Field.callsOnly_of_addsNoService (hooks field (outline.requested_subset asked))
  have noReplacement : options.Silent := by
    intro replacement replaced
    rw [fromData] at replaced
    cases replaced
  intro supply
  exact Contributions.silent_iff.mpr (outline.callsOnly_contribute calls noReplacement base? supply)

/-! ## The first stage -/

/-- A stage that calls no service: none occurs in its expression, so every run of it has
    one outcome under all providers, starts no call, and never fails for a capability that
    is missing or a service that fails. -/
structure Stage.Silent (stage : Stage) : Prop where
  noService : ∀ node ∈ stage.expr.nodes, node.ownCapability? = none
  oneOutcome : ∀ executable ∈ stage.executable?, ∀ root supplied P Q,
    executable.runWith root supplied P = executable.runWith root supplied Q
  noCall : ∀ executable ∈ stage.executable?, ∀ root supplied P,
    (executable.runWith root supplied P).log = []
  noFault : ∀ executable ∈ stage.executable?, ∀ root supplied P fault,
    (executable.runWith root supplied P).result = .error fault →
      (∀ capability, fault ≠ .missingCapability capability) ∧
        ∀ capability method reason, fault ≠ .service capability method reason

/-- A stage compiled from an expression without services is silent. -/
theorem Stage.silent_compile {slot variablesSlot : Placeholder} {expr : Expr} {noExecution : Bool}
    (silent : expr.hasServices = false) :
    (Stage.compile slot expr variablesSlot noExecution).Silent := by
  have compiled {executable : Executable}
      (made : executable ∈ (Stage.compile slot expr variablesSlot noExecution).executable?) :
      executable.expr = expr := by
    simp only [Stage.compile] at made
    split at made
    · cases made
    · cases made
      rfl
  have quiet {executable : Executable}
      (made : executable ∈ (Stage.compile slot expr variablesSlot noExecution).executable?)
      (root supplied : Value) (P : Provider) : (executable.runWith root supplied P).Quiet :=
    Expr.evaluate_quiet _ (by rw [compiled made, silent])
  refine ⟨by simpa [Stage.compile, Expr.hasServices] using silent, ?_, ?_, ?_⟩
  · intro executable made root supplied P Q
    exact Expr.evaluate_provider_irrelevant (by rw [compiled made, silent]) P Q _
  · intro executable made root supplied P
    exact (quiet made root supplied P).log_nil
  · intro executable made root supplied P fault raised
    have own := (quiet made root supplied P).fault fault raised
    constructor
    · rintro capability rfl
      exact own trivial
    · rintro capability method reason rfl
      exact own trivial

namespace SelectionTree

variable {tree : SelectionTree}

/-- None of the extensions of the fields of a tree adds a service. -/
def HooksAddNoService (tree : SelectionTree) : Prop :=
  ∀ address field, tree.field? address = some field →
    ∀ extension ∈ field.extensions, extension.AddsNoService

/-- A pass over an operation that leaves services out calls none. -/
theorem silent_operationPass (hooks : tree.HooksAddNoService) :
    Drawing.Yields (fun expr => expr.hasServices = false)
      (tree.operationPass .withoutServices) := by
  have calls : ∀ field ∈ Outline.requestedAll tree.queryOutlines,
      field.CallsOnly (fun _ => False) PassOptions.withoutServices.leavingOut := by
    intro field asked
    obtain ⟨address, stored⟩ := field_of_mem_queryOutlines (Outline.requestedAll_subset
      (fun outline _ => outline.requested_subset) asked)
    exact Field.callsOnly_of_addsNoService (hooks address field stored)
  have noReplacement : PassOptions.withoutServices.Silent := by
    rintro replacement ⟨⟩
  intro supply
  exact (Expr.callsOnly_false_iff _).mp (callsOnly_operationPass calls noReplacement supply)

/-- What a mutation contributes under its own name without services calls none. -/
theorem silent_ownContribution (hooks : tree.HooksAddNoService) {address : Address}
    {outline : Outline} (outlined : tree.outline? address = some outline) (name : String) :
    Drawing.Yields (fun expr? => ∀ expr ∈ expr?, expr.hasServices = false)
      (ownContribution outline name .withoutServices) := by
  have contributions : Drawing.Yields Contributions.Silent
      (outline.contribute .withoutServices none) := by
    refine Outline.silent_contribute outline ?_ none rfl rfl
    intro field found
    obtain ⟨place, stored⟩ := field_of_mem_outlineWithin outlined field found
    exact hooks place field stored
  refine contributions.bind fun gathered silent => Drawing.yields_pure ?_
  intro expr found
  exact silent.firsts name expr (Members.mem_of_value? found)

/-- The first of two stages of an operation is silent. -/
theorem silent_compile (hooks : tree.HooksAddNoService) (noExecution : Bool) :
    Drawing.Yields (fun query => query.second?.isSome = true → query.first.Silent)
      (tree.compile noExecution) := by
  unfold compile
  split
  · refine (silent_operationPass hooks).bind fun pureExpr silent => ?_
    refine (Drawing.yields_true _).bind fun merged _ => (Drawing.yields_true _).bind
      fun fullExpr _ => Drawing.yields_pure ?_
    intro staged
    exact Stage.silent_compile silent
  · refine (Drawing.yields_true _).bind fun expr _ => Drawing.yields_pure ?_
    intro staged
    cases staged

/-- The first of two stages of a mutation's selection is silent. -/
theorem silent_compileSelection (hooks : tree.HooksAddNoService) {address : Address}
    {outline : Outline} (outlined : tree.outline? address = some outline) (name : String)
    (result : Placeholder) (noExecution : Bool) :
    Drawing.Yields (fun query => query.second?.isSome = true → query.first.Silent)
      (tree.compileSelection outline name result noExecution) := by
  have single : Drawing.Yields (fun query => query.second?.isSome = true → query.first.Silent)
      (do
        let expr ← ownContribution outline name .full
        pure (tree.query noExecution (result, expr.getD (.read result)) none)) := by
    refine (Drawing.yields_true _).bind fun expr _ => Drawing.yields_pure ?_
    intro staged
    cases staged
  unfold compileSelection
  split
  · refine (silent_ownContribution hooks outlined name).bind fun expr? silent => ?_
    cases expr? with
    | none => exact single
    | some pureExpr =>
      refine (Drawing.yields_true _).bind fun merged _ => (Drawing.yields_true _).bind
        fun expr _ => Drawing.yields_pure ?_
      intro staged
      exact Stage.silent_compile (silent pureExpr rfl)
  · exact single

/-- Where hooks add no service, the first of two stages is silent: for the operation and
    for each mutation of every acyclic tree, whose compilations are all defined. -/
theorem Acyclic.first_stage_silent (acyclic : tree.Acyclic) (hooks : tree.HooksAddNoService)
    (noExecution : Bool) :
    (∃ drawing, tree.compile? noExecution = some drawing ∧
      Drawing.Yields (fun query => query.second?.isSome = true → query.first.Silent) drawing) ∧
    ∀ address, ∃ drawing, tree.compileMutation? address noExecution = some drawing ∧
      Drawing.Yields (fun compiled => ∀ query, compiled = .ok query →
        query.second?.isSome = true → query.first.Silent) drawing := by
  constructor
  · exact ⟨_, acyclic.compile? noExecution, silent_compile hooks noExecution⟩
  · intro address
    refine ⟨_, acyclic.compileMutation? address noExecution, ?_⟩
    unfold compileMutation
    split
    · exact Drawing.yields_pure (by simp)
    · rename_i selection outline selected outlined
      refine (silent_compileSelection hooks outlined _ _ noExecution).map fun query silent => ?_
      rintro _ ⟨⟩
      exact silent
    · exact Drawing.yields_pure (by simp)

/-! ## An operation of two stages -/

/-- The shape of a film. -/
def ratedFilm : Shape :=
  .object "Film" [("id", .scalar .id), ("title", .scalar .string)]

/-- The films of a root value. -/
def filmsDefinition : FieldDefinition :=
  .ofMember "films" (.list ratedFilm)

/-- The title of a film. -/
def titleDefinition : FieldDefinition :=
  .ofMember "title" (.scalar .string)

/-- The rating of a film, which a service knows. -/
def ratingDefinition : FieldDefinition :=
  .ofResolver "rating" (.scalar .int) fun parent _ =>
    pure (.service ⟨"Ratings"⟩ "rating" [parent.get "id"] (.scalar .int) fun state _ => .ok state)

/-- The titles and ratings of films: one list with a member that a service answers. -/
def ratedFilms : SelectionTree where
  root := ⟨0, "ctx", .any⟩
  variablesSlot := ⟨1, "vars", .any⟩
  bound := .empty
  fields := ⟨#[
    { name := "films"
      kind := .list ⟨2, "films", ratedFilm⟩
      expr := .member (.read ⟨0, "ctx", .any⟩) "films" (.list ratedFilm)
      context := ⟨0, "ctx", .any⟩
      arguments := ArgumentSet.empty.readVariablesFrom ⟨1, "vars", .any⟩
      children := [⟨1⟩, ⟨2⟩] },
    { name := "title"
      kind := .scalar
      expr := .member (.read ⟨2, "films", ratedFilm⟩) "title" (.scalar .string)
      context := ⟨2, "films", ratedFilm⟩
      arguments := ArgumentSet.empty.readVariablesFrom ⟨1, "vars", .any⟩
      parent? := some ⟨0⟩ },
    { name := "rating"
      kind := .scalar
      expr := .service ⟨"Ratings"⟩ "rating"
        [(Expr.read ⟨2, "films", ratedFilm⟩).get "id"] (.scalar .int) fun state _ => .ok state
      context := ⟨2, "films", ratedFilm⟩
      arguments := ArgumentSet.empty.readVariablesFrom ⟨1, "vars", .any⟩
      parent? := some ⟨0⟩ }]⟩
  roots := [⟨0⟩]
  fragments := .empty

/-- Callers who select films with their titles and ratings and spread nothing. -/
def filmPractice : Practice where
  offers definition := definition ∈ [filmsDefinition, titleDefinition, ratingDefinition]
  admits _ _ _ := False

/-- The films are selected, then the title and then the rating of each. -/
theorem built_ratedFilms : ratedFilms.Built filmPractice 3 := by
  have start : Built filmPractice (drawSelectionTree .any 0).1 2 := .start .any 0
  have films := @Built.select _ _ _ _ .operation filmsDefinition .empty none ⟨0⟩ start
    (by simp [filmPractice]) rfl
  have title := @Built.select _ _ _ _ (.field ⟨0⟩) titleDefinition .empty none ⟨1⟩ films
    (by simp [filmPractice]) rfl
  exact @Built.select _ _ ratedFilms _ (.field ⟨0⟩) ratingDefinition .empty none ⟨2⟩ title
    (by simp [filmPractice]) rfl

/-- Its first stage is silent, and a second one follows. -/
theorem first_stage_silent_ratedFilms :
    ratedFilms.Acyclic ∧ ratedFilms.HooksAddNoService ∧
      (ratedFilms.compile false 3).1.second?.isSome = true ∧
      (ratedFilms.compile false 3).1.first.Silent := by
  have acyclic : ratedFilms.Acyclic := built_ratedFilms.acyclic (by simp [filmPractice])
  have hooks : ratedFilms.HooksAddNoService := by
    intro address field stored extension inside
    obtain ⟨_ | _ | _ | index⟩ := address <;> cases stored <;> cases inside
  have second : (ratedFilms.compile false 3).1.second?.isSome = true := by decide
  obtain ⟨drawing, compiled, silent⟩ := (acyclic.first_stage_silent hooks false).1
  rw [acyclic.compile? false] at compiled
  obtain rfl := Option.some.inj compiled
  exact ⟨acyclic, hooks, second, silent 3 second⟩

end SelectionTree

end StagedQuery
