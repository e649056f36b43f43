import StagedQuery.Proofs.Expr.Chain
import StagedQuery.Proofs.Expr.Substitution
import StagedQuery.Proofs.Extension
import StagedQuery.Proofs.Selection.Contributions
import StagedQuery.Proofs.Selection.Outline

/-!
# The services that a pass calls

A pass puts together the expressions of fields, what hooks make of them, chains, and what it
reads from a replacement. So where the expressions of the fields and their hooks call services
of certain capabilities only, all that the pass contributes calls these only. A field with
services that a pass leaves out may call any.
-/

namespace StagedQuery

variable {known : Capability → Prop}

/-- Every service that is called in a contribution is of a capability among certain ones. -/
abbrev Contributions.CallsOnly (known : Capability → Prop) : Contributions → Prop :=
  Contributions.Each fun _ expr => expr.CallsOnly known

/-- A selection calls the services that its source and its members call. -/
theorem SelectionSource.callsOnly_select {found : SelectionSource} {name : String} {isList : Bool}
    {members : Contributions} (source : found.source.CallsOnly known)
    (each : members.CallsOnly known) : (found.select name isList members).CallsOnly known := by
  unfold select
  split <;> simpa using ⟨source, each⟩

/-- A pass that leaves services out or not evaluates of a field only what calls services of
    certain capabilities: its expression, unless the field is left out, and what its hooks
    make of such expressions. -/
structure Field.CallsOnly (known : Capability → Prop) (leavingOut : Bool) (field : Field) :
    Prop where
  own : (leavingOut && field.callsService) = false → field.expr.CallsOnly known
  hooks : ∀ extension ∈ field.extensions,
    extension.CallsOnly known field.name field.arguments

/-! ## Passes -/

/-- A pass whose replacement, if it has one, calls no service. -/
def PassOptions.Silent (options : PassOptions) : Prop :=
  ∀ replacement ∈ options.replacement?, replacement.hasServices = false

namespace Field

variable {field : Field} {base? : Option Placeholder} {options : PassOptions}

/-- An expression calls the services that it calls wherever a pass puts it. -/
theorem callsOnly_relocate {expr : Expr} (silent : options.Silent)
    (calls : expr.CallsOnly known) : (field.relocate base? options expr).CallsOnly known := by
  unfold relocate
  cases replaced : options.replacement? with
  | some replacement =>
    exact Expr.callsOnly_substitute calls (Expr.callsOnly_of_silent (silent _ replaced)) _
  | none =>
    cases base? with
    | none => exact calls
    | some base =>
      simp only
      split
      · exact calls
      · exact Expr.callsOnly_substitute calls (Expr.callsOnly_of_silent rfl) _

/-- The chains that feed the services of a field call none. -/
theorem callsOnly_contributeExtracted (field : Field) (base? : Option Placeholder)
    (silent : options.Silent) : (field.contributeExtracted base? options).CallsOnly known := by
  intro name expr inside
  obtain ⟨⟨own, chain⟩, listed, same⟩ := List.mem_map.mp inside
  cases same
  refine callsOnly_relocate silent ?_
  cases extracted : field.extracted? with
  | none => simp [extracted] at listed
  | some found =>
    rw [extracted, Option.getD_some] at listed
    obtain ⟨path, -, chained, -⟩ := Expr.mem_of_extract? extracted listed
    exact Expr.callsOnly_of_silent (Expr.hasServices_of_chain? chained)

/-- What a pass knows of a field is read from its replacement. -/
theorem callsOnly_known? (silent : options.Silent) {found : Expr}
    (knows : field.known? options = some found) : found.CallsOnly known := by
  obtain ⟨replacement, replaced, own⟩ := Option.bind_eq_some_iff.mp knows
  have quiet : replacement.CallsOnly known := Expr.callsOnly_of_silent (silent _ replaced)
  split at own
  · cases own
    exact quiet
  · unfold replaced? at own
    split at own
    · cases own
    · obtain ⟨shape, -, rfl⟩ := Option.map_eq_some_iff.mp own
      rwa [Expr.callsOnly_member]

/-- What a scalar contributes calls what the pass evaluates of the field. -/
theorem callsOnly_contributeScalar (calls : field.CallsOnly known options.leavingOut)
    (silent : options.Silent) :
    Drawing.Yields (Contributions.CallsOnly known) (field.contributeScalar base? options) := by
  unfold contributeScalar
  split
  · exact Drawing.yields_pure (callsOnly_contributeExtracted field base? silent)
  · rename_i stays
    simp only
    split
    · rename_i found knows
      exact Drawing.yields_pure (Contributions.each_singleton (callsOnly_known? silent knows))
    · have adjusted := Extension.callsOnly_adjustAll
        (fun extension inside => (calls.hooks extension inside).onScalar)
        (@callsOnly_relocate _ field base? _ _ silent (calls.own (Bool.eq_false_iff.mpr stays)))
      exact adjusted.bind fun value still =>
        Drawing.yields_pure (Contributions.each_singleton still)

/-- The source of a selection calls what the pass evaluates of the field, and its members are
    read from nothing that calls a service. -/
theorem callsOnly_drawSource {element : Placeholder} {isList : Bool}
    (calls : field.CallsOnly known options.leavingOut) (silent : options.Silent)
    (stays : (options.leavingOut && field.callsService) = false) :
    Drawing.Yields (fun found => found.source.CallsOnly known ∧
        ∀ replacement ∈ found.replacement?, replacement.hasServices = false)
      (field.drawSource element isList base? options) := by
  unfold drawSource
  simp only
  split
  · rename_i found knows
    refine (Drawing.yields_true _).bind fun fresh _ => Drawing.yields_pure
      ⟨callsOnly_known? silent knows, ?_⟩
    rintro replacement ⟨⟩
    rfl
  · have adjusted := Extension.callsOnly_adjustAll
      (fun extension inside => (calls.hooks extension inside).beforeSelection)
      (@callsOnly_relocate _ field base? _ _ silent (calls.own stays))
    refine adjusted.bind fun source still => Drawing.yields_pure ⟨still, ?_⟩
    intro replacement none
    cases none

end Field

/-- What an outline contributes to a pass calls what the pass evaluates of the fields that the
    outline asks for.

    Proof: induction on the outline. A field that the pass leaves out contributes chains. The
    members of any other selection come from a pass over its children whose replacement, if
    there is one, is a placeholder. -/
theorem Outline.callsOnly_contribute (outline : Outline) {options : PassOptions}
    (calls : ∀ field ∈ outline.requested, field.CallsOnly known options.leavingOut)
    (silent : options.Silent) (base? : Option Placeholder) :
    Drawing.Yields (Contributions.CallsOnly known) (outline.contribute options base?) := by
  induction outline using Outline.induction generalizing base? options with
  | scalar field =>
    simp only [contribute]
    exact Field.callsOnly_contributeScalar (calls field (by simp [requested])) silent
  | selection field element isList children each =>
    have own := calls field (by simp [requested])
    have below : ∀ child ∈ children, ∀ field ∈ child.requested,
        field.CallsOnly known options.leavingOut := by
      intro child inside field asked
      exact calls field (List.mem_cons_of_mem _ (mem_requestedAll.mpr ⟨child, inside, asked⟩))
    simp only [contribute]
    split
    · exact Drawing.yields_pure (Field.callsOnly_contributeExtracted field base? silent)
    · rename_i stays
      refine (Field.callsOnly_drawSource own silent (Bool.eq_false_iff.mpr stays)).bind
        fun found calling => ?_
      obtain ⟨source, quiet⟩ := calling
      let inner : PassOptions := ⟨options.leavingOut, found.replacement?, false⟩
      have innerSilent : inner.Silent := quiet
      have members : Drawing.Yields (Contributions.CallsOnly known)
          (contributeAll inner none children) := by
        apply each_contributeAll
        intro child inside
        refine each child inside ?_ innerSilent none
        exact below child inside
      refine members.bind fun contributions calls => ?_
      split
      · exact Drawing.yields_pure Contributions.each_nil
      · have selected := @SelectionSource.callsOnly_select _ found field.name isList _ source
          calls.firsts
        split
        · have adjusted := Extension.callsOnly_adjustAll
            (fun extension inside => (own.hooks extension inside).afterSelection) selected
          exact adjusted.bind fun value still =>
            Drawing.yields_pure (Contributions.each_singleton still)
        · exact Drawing.yields_pure (Contributions.each_singleton selected)
  | spread field inner each =>
    simp only [contribute]
    apply each_contributeAll
    intro child inside
    refine each child inside (fun field asked => calls field ?_) silent _
    exact mem_requestedAll.mpr ⟨child, inside, asked⟩
  | endless =>
    simp only [contribute]
    exact Drawing.yields_pure Contributions.each_nil

/-- A pass over an operation calls what it evaluates of the fields that are asked for. -/
theorem SelectionTree.callsOnly_operationPass {tree : SelectionTree} {options : PassOptions}
    (calls : ∀ field ∈ Outline.requestedAll tree.queryOutlines,
      field.CallsOnly known options.leavingOut) (silent : options.Silent) :
    Drawing.Yields (Expr.CallsOnly known) (tree.operationPass options) := by
  have contributions : Drawing.Yields (Contributions.CallsOnly known)
      (Outline.contributeAll options none tree.queryOutlines) := by
    apply Outline.each_contributeAll
    intro outline inside
    refine outline.callsOnly_contribute ?_ silent none
    intro field asked
    exact calls field (Outline.mem_requestedAll.mpr ⟨outline, inside, asked⟩)
  refine contributions.bind fun gathered calls => Drawing.yields_pure ?_
  rw [Expr.callsOnly_object]
  exact calls.firsts

end StagedQuery
