import Mathlib.Data.List.Forall2
import StagedQuery.Proofs.Extension
import StagedQuery.Proofs.Selection.Alike
import StagedQuery.Proofs.Selection.Outline
import StagedQuery.Query

/-!
# What compilation sees of arguments

A pass looks at the name, the expression and the context of a field and at its hooks. The
built-in hooks look at the values of four arguments: which members of `filter` are not null,
and the values of `sort`, `skip` and `take`. Alike trees that agree on those compile to the
same stages. The order of the members of `filter` is that of the type that has fitted them,
so that it need not be compared.
-/

namespace StagedQuery

/-! ## Hooks -/

namespace Extension

end Extension

/-! ## Fields and outlines -/

/-- Fields of which a pass sees the same. -/
structure Field.SeenAs (first second : Field) : Prop where
  name : second.name = first.name
  expr : second.expr = first.expr
  context : second.context = first.context
  before : Extension.adjustAll Extension.beforeSelection second.name second.arguments
    second.extensions = Extension.adjustAll Extension.beforeSelection first.name first.arguments
      first.extensions
  after : Extension.adjustAll Extension.afterSelection second.name second.arguments
    second.extensions = Extension.adjustAll Extension.afterSelection first.name first.arguments
      first.extensions
  scalar : Extension.adjustAll Extension.onScalar second.name second.arguments
    second.extensions = Extension.adjustAll Extension.onScalar first.name first.arguments
      first.extensions

namespace Field.SeenAs

variable {first second : Field} (seen : first.SeenAs second)
include seen

/-- Both fields call a service or neither does. -/
theorem callsService : second.callsService = first.callsService := by
  simp only [Field.callsService, Field.services, seen.expr]

/-- What is read from the context is moved alike. -/
theorem relocate (base? : Option Placeholder) (options : PassOptions) (expr : Expr) :
    second.relocate base? options expr = first.relocate base? options expr := by
  simp only [Field.relocate, seen.context]

/-- They are replaced alike, or not at all. -/
theorem replaced? (replacement : Expr) :
    second.replaced? replacement = first.replaced? replacement := by
  simp only [Field.replaced?, seen.callsService, seen.name]

/-- The same chains are extracted for both. -/
theorem contributeExtracted (base? : Option Placeholder) (options : PassOptions) :
    second.contributeExtracted base? options = first.contributeExtracted base? options := by
  simp only [Field.contributeExtracted, Field.extracted?, seen.expr, seen.context, seen.relocate]

/-- As scalars they contribute the same. -/
theorem contributeScalar (base? : Option Placeholder) (options : PassOptions) :
    second.contributeScalar base? options = first.contributeScalar base? options := by
  simp only [Field.contributeScalar, seen.callsService, seen.contributeExtracted, seen.replaced?,
    seen.relocate, seen.expr, seen.scalar]
  simp only [seen.name]

/-- A selection below them has one source. -/
theorem drawSource (element : Placeholder) (isList : Bool) (base? : Option Placeholder)
    (options : PassOptions) :
    second.drawSource element isList base? options =
      first.drawSource element isList base? options := by
  simp only [Field.drawSource, seen.replaced?, seen.relocate, seen.expr, seen.before]
  simp only [seen.name]

end Field.SeenAs

namespace Outline

/-- Outlines of which a pass sees the same. -/
inductive SeenAs : Outline → Outline → Prop where
  | scalar {field field' : Field} (fields : field.SeenAs field') :
      SeenAs (.scalar field) (.scalar field')
  | selection {field field' : Field} {element : Placeholder} {isList : Bool}
      {children children' : List Outline} (fields : field.SeenAs field')
      (below : List.Forall₂ SeenAs children children') :
      SeenAs (.selection field element isList children) (.selection field' element isList children')
  | spread {field field' : Field} {inner inner' : List Outline} (fields : field.SeenAs field')
      (below : List.Forall₂ SeenAs inner inner') :
      SeenAs (.spread field inner) (.spread field' inner')
  | endless : SeenAs .endless .endless

/-- Outlines that are seen alike one by one call services or not alike. -/
theorem anyServices?_congr {outlines outlines' : List Outline}
    (each : List.Forall₂ (fun outline outline' => outline'.hasServices? = outline.hasServices?)
      outlines outlines') : anyServices? outlines' = anyServices? outlines := by
  induction each with
  | nil => rfl
  | cons same _ ih => simp only [anyServices?, same, ih]

/-- Passes over them end or not alike. -/
theorem allFinite_congr {leavingOut : Bool} {outlines outlines' : List Outline}
    (each : List.Forall₂
      (fun outline outline' => isFinite leavingOut outline' = isFinite leavingOut outline)
      outlines outlines') : allFinite leavingOut outlines' = allFinite leavingOut outlines := by
  induction each with
  | nil => rfl
  | cons same _ ih => simp only [allFinite, same, ih]

/-- Outlines that contribute the same one by one contribute the same in order. -/
theorem contributeAll_congr {options : PassOptions} {base? : Option Placeholder}
    {outlines outlines' : List Outline}
    (each : List.Forall₂
      (fun outline outline' => outline'.contribute options base? = outline.contribute options base?)
      outlines outlines') :
    contributeAll options base? outlines' = contributeAll options base? outlines := by
  induction each with
  | nil => rfl
  | cons same _ ih => simp only [contributeAll, same, ih]

/-- What holds of all corresponding children of one outline holds of them one by one. -/
theorem forall₂_of_children {relation goal : Outline → Outline → Prop}
    {children children' : List Outline} (below : List.Forall₂ relation children children')
    (each : ∀ child ∈ children, ∀ child', relation child child' → goal child child') :
    List.Forall₂ goal children children' := by
  induction below with
  | nil => exact .nil
  | cons related _ ih =>
    exact .cons (each _ (by simp) _ related)
      (ih fun child inside => each child (by simp [inside]))

/-- Outlines that are seen alike call services or not alike. -/
theorem SeenAs.hasServices? {outline outline' : Outline} (seen : outline.SeenAs outline') :
    outline'.hasServices? = outline.hasServices? := by
  induction outline using Outline.induction generalizing outline' with
  | scalar field =>
    cases seen with
    | scalar fields => simp only [Outline.hasServices?, fields.callsService]
  | selection field element isList children ih =>
    cases seen with
    | selection fields below =>
      simp only [Outline.hasServices?, fields.callsService,
        anyServices?_congr (forall₂_of_children below fun child inside _ => ih child inside)]
  | spread field inner ih =>
    cases seen with
    | spread fields below =>
      simp only [Outline.hasServices?,
        anyServices?_congr (forall₂_of_children below fun child inside _ => ih child inside)]
  | endless =>
    cases seen
    rfl

/-- Passes over outlines that are seen alike end or do not end alike. -/
theorem SeenAs.isFinite {outline outline' : Outline} (seen : outline.SeenAs outline')
    (leavingOut : Bool) :
    Outline.isFinite leavingOut outline' = Outline.isFinite leavingOut outline := by
  induction outline using Outline.induction generalizing outline' with
  | scalar field => cases seen with | scalar fields => rfl
  | selection field element isList children ih =>
    cases seen with
    | selection fields below =>
      simp only [Outline.isFinite, fields.callsService,
        allFinite_congr (forall₂_of_children below fun child inside _ => ih child inside)]
  | spread field inner ih =>
    cases seen with
    | spread fields below =>
      simp only [Outline.isFinite,
        allFinite_congr (forall₂_of_children below fun child inside _ => ih child inside)]
  | endless =>
    cases seen
    rfl

/-- Outlines that are seen alike contribute the same. -/
theorem SeenAs.contribute {outline outline' : Outline} (seen : outline.SeenAs outline')
    (options : PassOptions) (base? : Option Placeholder) :
    outline'.contribute options base? = outline.contribute options base? := by
  induction outline using Outline.induction generalizing outline' options base? with
  | scalar field =>
    cases seen with
    | scalar fields => simp only [Outline.contribute, fields.contributeScalar]
  | selection field element isList children ih =>
    cases seen with
    | selection fields below =>
      have inner (options : PassOptions) := @contributeAll_congr options none _ _
        (forall₂_of_children below fun child inside _ seen => ih child inside seen options none)
      have services := anyServices?_congr
        (forall₂_of_children below fun _ _ _ seen => seen.hasServices?)
      simp only [Outline.contribute, fields.callsService, fields.contributeExtracted,
        fields.drawSource, inner, services, fields.after]
      simp only [fields.name]
  | spread field inner ih =>
    cases seen with
    | spread fields below =>
      simp only [Outline.contribute, fields.context]
      exact contributeAll_congr
        (forall₂_of_children below fun child inside _ seen => ih child inside seen _ _)
  | endless =>
    cases seen
    rfl

end Outline

/-! ## Trees -/

namespace SelectionTree

/-- Alike trees of whose fields every pass sees the same. -/
structure SeenAs (first second : SelectionTree) : Prop where
  alike : first.Alike second
  fields : ∀ address field field', first.field? address = some field →
    second.field? address = some field' → field.SeenAs field'

namespace SeenAs

variable {first second : SelectionTree} (seen : first.SeenAs second)
include seen

/-- Fields at the same address have outlines of which every pass sees the same. -/
theorem outlineWithin (bound : Nat) (opened : List Address) (address : Address) :
    Option.Rel Outline.SeenAs (first.outlineWithin bound opened address)
      (second.outlineWithin bound opened address) := by
  induction bound generalizing opened address with
  | zero => exact .some .endless
  | succ bound ih =>
    have below (addresses : List Address) : List.Forall₂ Outline.SeenAs
        (addresses.filterMap (first.outlineWithin bound (address :: opened)))
        (addresses.filterMap (second.outlineWithin bound (address :: opened))) := by
      refine @List.rel_filterMap _ _ _ _ Eq _ _ _ ?_ _ _ (List.forall₂_refl addresses)
      rintro other _ rfl
      exact ih (address :: opened) other
    rcases seen.alike.field?_cases address with ⟨here, there⟩ | ⟨field, field', here, there, both⟩
    · simp only [SelectionTree.outlineWithin, here, there, Option.map_none]
      exact .none
    · have fields := seen.fields address field field' here there
      simp only [SelectionTree.outlineWithin, here, there, Option.map_some]
      refine .some ?_
      split
      · exact .endless
      · rw [both.element?_eq, both.selectsList_eq, both.children_eq]
        rcases both.kind with same | ⟨selection, supplied?, kind, kind'⟩
        · rw [same]
          split
          · simp only [fragmentFields, seen.alike.fragment?_eq]
            exact .spread fields (below _)
          · exact .selection fields (below _)
          · exact .scalar fields
        · rw [kind, kind']
          cases field.element? with
          | none => exact .scalar fields
          | some element => exact .selection fields (below _)

/-- Trees that are seen alike have the same query fields. -/
theorem queryRoots : second.queryRoots = first.queryRoots := by
  have mutations (address : Address) : (second.field? address).any Field.isMutation =
      (first.field? address).any Field.isMutation := by
    rcases seen.alike.field?_cases address with ⟨here, there⟩ | ⟨field, field', here, there, both⟩
    · simp only [here, there, Option.any_none]
    · simp only [here, there, Option.any_some, both.isMutation_eq]
  simp only [SelectionTree.queryRoots, seen.alike.roots, mutations]

/-- Their outlines are seen alike. -/
theorem queryOutlines : List.Forall₂ Outline.SeenAs first.queryOutlines second.queryOutlines := by
  simp only [SelectionTree.queryOutlines, seen.queryRoots]
  refine @List.rel_filterMap _ _ _ _ Eq _ _ _ ?_ _ _ (List.forall₂_refl first.queryRoots)
  rintro address _ rfl
  simp only [outline?, seen.alike.fields.size]
  exact seen.outlineWithin _ _ _

/-- One pass over the query fields gives the same object. -/
theorem operationPass (options : PassOptions) :
    second.operationPass options = first.operationPass options := by
  have contributions := @Outline.contributeAll_congr options none _ _
    (seen.queryOutlines.imp fun _ _ outlines => outlines.contribute options none)
  simp only [SelectionTree.operationPass, seen.alike.operationName_eq, contributions]

/-- The query fields of both trees compile to the same stages. -/
theorem compile (noExecution : Bool) :
    second.compile noExecution =
      (fun query => { query with bound := second.bound.toValue }) <$>
        first.compile noExecution := by
  have services : second.operationHasServices? = first.operationHasServices? :=
    Outline.anyServices?_congr (seen.queryOutlines.imp fun _ _ outlines => outlines.hasServices?)
  simp only [SelectionTree.compile, services, seen.operationPass, query, seen.alike.root,
    seen.alike.variablesSlot]
  split <;> rfl

end SeenAs

end SelectionTree

end StagedQuery
