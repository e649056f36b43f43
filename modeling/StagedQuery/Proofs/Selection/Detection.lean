import StagedQuery.Query
import StagedQuery.Proofs.Extension
import StagedQuery.Proofs.Selection.Acyclic
import StagedQuery.Proofs.Selection.Capabilities
import StagedQuery.Proofs.Selection.Expansion

/-!
# What the detection of services finds

Before any pass, a compilation asks whether the query fields of an operation or the fields
below them call a service. The answer looks at the expressions of the fields alone, while
what is compiled is what the hooks of extensions make of them. So a capability that a
compiled expression calls comes from one of two places: the expression of a field that is
asked for, where the detection finds it, or a hook of such a field, where nothing looks for
it. The built-in hooks introduce none, so over these the detection misses nothing.
-/

namespace StagedQuery

/-! ## Hooks that introduce a capability -/

/-- An adjustment of a field makes of some expression that calls no service of a capability
    one that does. -/
def Adjustment.Introduces (adjust : Adjustment) (field : String) (arguments : ArgumentSet)
    (capability : Capability) : Prop :=
  ∃ expr supply, capability ∉ expr.capabilities ∧
    capability ∈ (adjust field arguments expr supply).1.capabilities

/-- One of the hooks of an extension of a field introduces a capability. -/
def Extension.Introduces (extension : Extension) (field : String) (arguments : ArgumentSet)
    (capability : Capability) : Prop :=
  extension.beforeSelection.Introduces field arguments capability ∨
    extension.afterSelection.Introduces field arguments capability ∨
      extension.onScalar.Introduces field arguments capability

/-- One of the hooks of a field introduces a capability. -/
def Field.Introduces (field : Field) (capability : Capability) : Prop :=
  ∃ extension ∈ field.extensions,
    extension.Introduces field.name field.arguments capability

section Hooks

variable {known : Capability → Prop} {field : String} {arguments : ArgumentSet}

/-- What an adjustment calls was called before or is introduced by it. -/
theorem Adjustment.callsOnly_of_introduces {adjust : Adjustment}
    (introduced : ∀ capability, adjust.Introduces field arguments capability → known capability) :
    adjust.CallsOnly known field arguments := by
  intro expr calls supply
  rw [Expr.callsOnly_iff_capabilities] at calls ⊢
  intro capability called
  by_cases before : capability ∈ expr.capabilities
  · exact calls capability before
  · exact introduced capability ⟨expr, supply, before, called⟩

/-- The hooks of an extension call what was called before or is introduced by one of them. -/
theorem Extension.callsOnly_of_introduces {extension : Extension}
    (introduced : ∀ capability,
      extension.Introduces field arguments capability → known capability) :
    extension.CallsOnly known field arguments where
  beforeSelection := Adjustment.callsOnly_of_introduces fun capability own =>
    introduced capability (.inl own)
  afterSelection := Adjustment.callsOnly_of_introduces fun capability own =>
    introduced capability (.inr (.inl own))
  onScalar := Adjustment.callsOnly_of_introduces fun capability own =>
    introduced capability (.inr (.inr own))

/-- An adjustment that calls, for every set of capabilities, only these if it is given an
    expression that does, introduces nothing. -/
theorem Adjustment.not_introduces_of_callsOnly {adjust : Adjustment}
    (calls : ∀ known, adjust.CallsOnly known field arguments) (capability : Capability) :
    ¬adjust.Introduces field arguments capability := by
  rintro ⟨expr, supply, before, called⟩
  have own : expr.CallsOnly (· ∈ expr.capabilities) :=
    (Expr.callsOnly_iff_capabilities expr).mpr fun _ inside => inside
  exact before ((Expr.callsOnly_iff_capabilities _).mp (calls _ expr own supply) capability called)

/-- The built-in extensions introduce no capability. -/
theorem Extension.BuiltIn.not_introduces {extension : Extension} (builtIn : extension.BuiltIn)
    (capability : Capability) : ¬extension.Introduces field arguments capability := by
  rintro (before | after | scalar)
  · exact Adjustment.not_introduces_of_callsOnly
      (fun _ => builtIn.callsOnly.beforeSelection) capability before
  · exact Adjustment.not_introduces_of_callsOnly
      (fun _ => builtIn.callsOnly.afterSelection) capability after
  · exact Adjustment.not_introduces_of_callsOnly
      (fun _ => builtIn.callsOnly.onScalar) capability scalar

end Hooks

/-! ## Where the capabilities of a compiled expression come from -/

namespace SelectionTree

variable {tree : SelectionTree}

/-- The expression of a field that the operation asks for calls a service of a capability. -/
def Detects (tree : SelectionTree) (capability : Capability) : Prop :=
  ∃ field ∈ Outline.requestedAll tree.queryOutlines, capability ∈ field.services

/-- A hook of a field that the operation asks for introduces a capability. -/
def Introduces (tree : SelectionTree) (capability : Capability) : Prop :=
  ∃ field ∈ Outline.requestedAll tree.queryOutlines, field.Introduces capability

/-- Everything that an expression calls is of a capability that the fields of the operation
    call or their hooks introduce. -/
def AccountsFor (tree : SelectionTree) (expr : Expr) : Prop :=
  ∀ capability ∈ expr.capabilities, tree.Detects capability ∨ tree.Introduces capability

/-- A capability is detected exactly if some field that is asked for calls a service. -/
theorem exists_detects_iff : (∃ capability, tree.Detects capability) ↔
    (Outline.requestedAll tree.queryOutlines).any Field.callsService = true := by
  rw [List.any_eq_true]
  constructor
  · rintro ⟨capability, field, asked, calls⟩
    exact ⟨field, asked, by simpa [Field.callsService] using List.ne_nil_of_mem calls⟩
  · rintro ⟨field, asked, calls⟩
    have some : field.services ≠ [] := by simpa [Field.callsService] using calls
    obtain ⟨capability, inside⟩ := List.exists_mem_of_ne_nil _ some
    exact ⟨capability, field, asked, inside⟩

/-- The question whether an operation calls services is answered by what it detects. -/
theorem Acyclic.exists_operationHasServices? (acyclic : tree.Acyclic) :
    ∃ detected, tree.operationHasServices? = some detected ∧
      (detected = true ↔ ∃ capability, tree.Detects capability) := by
  refine ⟨_, Outline.anyServices?_eq fun outline inside => ?_, exists_detects_iff.symm⟩
  exact outline.hasServices?_eq
    (Outline.allFinite_iff.mp acyclic.allFinite_queryOutlines outline inside)

/-- A pass over the operation calls only what is detected or introduced. -/
theorem accountsFor_operationPass (tree : SelectionTree) {options : PassOptions}
    (silent : options.Silent) :
    Drawing.Yields tree.AccountsFor (tree.operationPass options) := by
  intro supply
  rw [AccountsFor, ← Expr.callsOnly_iff_capabilities]
  refine callsOnly_operationPass ?_ silent supply
  intro field asked
  refine ⟨fun _ => ?_, fun extension listed => ?_⟩
  · rw [Expr.callsOnly_iff_capabilities]
    exact fun capability calls => .inl ⟨field, asked, calls⟩
  · exact Extension.callsOnly_of_introduces fun capability introduced =>
      .inr ⟨field, asked, extension, listed, introduced⟩

/-- So do the stages of the compiled operation. What the second stage reads of the first is
    read from a placeholder. -/
theorem accountsFor_compile (tree : SelectionTree) (noExecution : Bool) :
    Drawing.Yields
      (fun query => ∀ stage ∈ query.first :: query.second?.toList, tree.AccountsFor stage.expr)
      (tree.compile noExecution) := by
  have overData (leavingOut : Bool) : (PassOptions.mk leavingOut none false).Silent := by
    rintro replacement ⟨⟩
  have merging (slot : Placeholder) : (PassOptions.merging (.read slot)).Silent := by
    rintro replacement ⟨⟩
    rfl
  unfold compile
  split
  · refine (accountsFor_operationPass tree (overData true)).bind fun pureExpr first => ?_
    refine (Drawing.yields_true _).bind fun merged _ => ?_
    refine (accountsFor_operationPass tree (merging merged)).bind fun fullExpr second =>
      Drawing.yields_pure ?_
    simpa [query, Stage.compile] using ⟨first, second⟩
  · refine (accountsFor_operationPass tree (overData false)).bind fun expr own =>
      Drawing.yields_pure ?_
    simpa [query, Stage.compile] using own

/-- An expression of which everything is accounted for calls no service, or one is detected,
    or a hook introduces one that it calls. -/
theorem AccountsFor.detects_or_introduces {expr : Expr} (accounts : tree.AccountsFor expr)
    (calls : expr.hasServices = true) :
    (∃ capability, tree.Detects capability) ∨
      ∃ capability ∈ expr.capabilities, tree.Introduces capability := by
  obtain ⟨node, inside, own⟩ := List.any_eq_true.mp calls
  obtain ⟨capability, named⟩ := Option.isSome_iff_exists.mp own
  have called : capability ∈ expr.capabilities :=
    List.mem_eraseDups.mpr (List.mem_filterMap.mpr ⟨node, inside, named⟩)
  obtain detected | introduced := accounts capability called
  · exact .inl ⟨capability, detected⟩
  · exact .inr ⟨capability, called, introduced⟩

/-- Over an acyclic tree, with whatever hooks, the detection is decided and the passes are
    defined. Every capability that the full pass or a compiled stage calls belongs to a field
    that is asked for or is introduced by a hook of one. So if the full pass calls a service,
    the detection has found one or a hook has introduced one that it calls. -/
theorem Acyclic.called_detected_or_introduced (acyclic : tree.Acyclic) :
    ∃ detected full, tree.operationHasServices? = some detected ∧
      tree.operationPass? .full = some full ∧
      (detected = true ↔ ∃ capability, tree.Detects capability) ∧
      full.Yields (fun expr =>
        (∀ capability ∈ expr.capabilities,
          tree.Detects capability ∨ tree.Introduces capability) ∧
        (expr.hasServices = true → detected = true ∨
          ∃ capability ∈ expr.capabilities, tree.Introduces capability)) ∧
      ∀ noExecution, ∃ compiled, tree.compile? noExecution = some compiled ∧
        compiled.Yields fun query => ∀ stage ∈ query.first :: query.second?.toList,
          ∀ capability ∈ stage.expr.capabilities,
            tree.Detects capability ∨ tree.Introduces capability := by
  obtain ⟨detected, decided, found⟩ := acyclic.exists_operationHasServices?
  refine ⟨detected, _, decided, acyclic.operationPass?, found, ?_,
    fun noExecution => ⟨_, acyclic.compile? noExecution, accountsFor_compile tree noExecution⟩⟩
  have silent : PassOptions.full.Silent := by
    rintro replacement ⟨⟩
  intro supply
  have accounts := accountsFor_operationPass tree silent supply
  refine ⟨accounts, fun calls => ?_⟩
  rw [found]
  exact accounts.detects_or_introduces calls

/-- Where all extensions are built in, the detection misses nothing. -/
theorem Acyclic.services_detected_of_builtIn (acyclic : tree.Acyclic)
    (builtIn : ∀ field ∈ Outline.requestedAll tree.queryOutlines,
      ∀ extension ∈ field.extensions, extension.BuiltIn) :
    (tree.operationPass .full).Yields fun expr =>
      (∀ capability ∈ expr.capabilities, tree.Detects capability) ∧
        (expr.hasServices = true → tree.operationHasServices? = some true) := by
  have nothing (capability : Capability) : ¬tree.Introduces capability := by
    rintro ⟨field, asked, extension, listed, introduces⟩
    exact (builtIn field asked extension listed).not_introduces capability introduces
  have silent : PassOptions.full.Silent := by
    rintro replacement ⟨⟩
  obtain ⟨detected, decided, found⟩ := acyclic.exists_operationHasServices?
  intro supply
  have accounts := accountsFor_operationPass tree silent supply
  constructor
  · intro capability called
    exact (accounts capability called).resolve_right (nothing capability)
  · intro calls
    obtain known | ⟨capability, -, introduced⟩ := accounts.detects_or_introduces calls
    · rw [decided, found.mpr known]
    · exact absurd introduced (nothing capability)

/-! ## A hook that calls a service -/

/-- Puts the rating of a value in place of the value. -/
def rateScalar : Extension where
  name := "rate"
  onScalar _ _ expr :=
    pure (.service ⟨"Ratings"⟩ "rating" [expr] (.scalar .int) fun _ arguments =>
      .ok (arguments.headD .null))

/-- The score of a film, rated by a hook. -/
def scoreDefinition : FieldDefinition :=
  (FieldDefinition.ofMember "score" (.scalar .int)).withExtension rateScalar

/-- One field that reads a member, with a hook that calls a service. -/
def ratedScore : SelectionTree where
  root := ⟨0, "ctx", .any⟩
  variablesSlot := ⟨1, "vars", .any⟩
  bound := .empty
  fields := ⟨#[
    { name := "score"
      kind := .scalar
      expr := .member (.read ⟨0, "ctx", .any⟩) "score" (.scalar .int)
      context := ⟨0, "ctx", .any⟩
      extensions := [rateScalar]
      arguments := ArgumentSet.empty.readVariablesFrom ⟨1, "vars", .any⟩ }]⟩
  roots := [⟨0⟩]
  fragments := .empty

/-- The field is selected once. -/
theorem built_ratedScore :
    ratedScore.Built ⟨fun definition => definition = scoreDefinition, fun _ _ _ => False⟩ 2 :=
  @Built.select _ _ ratedScore _ .operation scoreDefinition .empty none ⟨0⟩ (.start .any 0) rfl rfl

/-- The detection finds no service, the operation compiles to one stage, and that stage calls
    the service that the hook has introduced. -/
theorem called_undetected_ratedScore :
    ratedScore.Acyclic ∧ ratedScore.operationHasServices? = some false ∧
      ⟨"Ratings"⟩ ∈ (ratedScore.operationPass .full 2).1.capabilities ∧
      ¬ratedScore.Detects ⟨"Ratings"⟩ ∧ ratedScore.Introduces ⟨"Ratings"⟩ ∧
      (ratedScore.compile false 2).1.second?.isNone = true := by
  have acyclic : ratedScore.Acyclic := built_ratedScore.acyclic (by simp)
  have missed : ratedScore.operationHasServices? = some false := by decide +kernel
  have called : ⟨"Ratings"⟩ ∈ (ratedScore.operationPass .full 2).1.capabilities := by
    decide +kernel
  obtain ⟨detected, full, decided, passed, found, calls, -⟩ :=
    acyclic.called_detected_or_introduced
  obtain rfl : false = detected := Option.some.inj (missed.symm.trans decided)
  have undetected : ¬ratedScore.Detects ⟨"Ratings"⟩ := fun detects =>
    absurd (found.mpr ⟨_, detects⟩) Bool.false_ne_true
  obtain rfl := Option.some.inj (acyclic.operationPass?.symm.trans passed)
  exact ⟨acyclic, missed, called, undetected,
    ((calls 2).1 _ called).resolve_left undetected, by decide +kernel⟩

end SelectionTree

end StagedQuery
