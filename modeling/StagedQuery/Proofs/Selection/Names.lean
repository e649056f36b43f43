import StagedQuery.Selection.Pass
import StagedQuery.Proofs.Drawing
import StagedQuery.Proofs.Members
import StagedQuery.Proofs.Selection.Outline

/-!
# The names that a pass contributes

A pass that leaves nothing out contributes the names of all fields of a selection, with
those of fragments in place of their spreads, except that a selection of nothing is left
out. So does a pass that leaves services out of an outline without services. Where the
names of every selection are pairwise distinct, no contribution is lost.
-/

namespace StagedQuery.Outline

mutual

/-- The names that a field contributes when nothing is left out. -/
def visible : Outline → List String
  | .scalar field => [field.name]
  | .selection field _ _ children => if (visibleAll children).isEmpty then [] else [field.name]
  | .spread _ fields => visibleAll fields
  | .endless => []

/-- The names that some fields contribute when nothing is left out. -/
def visibleAll : List Outline → List String
  | [] => []
  | first :: rest => visible first ++ visibleAll rest

end

mutual

/-- The field itself, or the fields that a spread stands for. -/
def expanded : Outline → List Field
  | .scalar field => [field]
  | .selection field _ _ _ => [field]
  | .spread _ fields => expandedAll fields
  | .endless => []

/-- The fields of a selection after its spreads are expanded. -/
def expandedAll : List Outline → List Field
  | [] => []
  | first :: rest => expanded first ++ expandedAll rest

end

mutual

/-- After the spreads are expanded, the names of every selection below are pairwise
    distinct. -/
def Distinct : Outline → Prop
  | .scalar _ => True
  | .selection _ _ _ children =>
    ((expandedAll children).map Field.name).Nodup ∧ DistinctBelow children
  | .spread _ fields => DistinctBelow fields
  | .endless => True

/-- The same below each of some outlines. -/
def DistinctBelow : List Outline → Prop
  | [] => True
  | first :: rest => Distinct first ∧ DistinctBelow rest

end

/-- Names are distinct below some outlines if they are in each of them. -/
theorem distinctBelow_iff {outlines : List Outline} :
    DistinctBelow outlines ↔ ∀ outline ∈ outlines, outline.Distinct := by
  induction outlines with
  | nil => simp [DistinctBelow]
  | cons first rest ih => simp [DistinctBelow, ih]

/-- The names that are contributed are names of the expanded selection, in their order. -/
theorem visibleAll_sublist {outlines : List Outline}
    (each : ∀ outline ∈ outlines, outline.visible.Sublist (outline.expanded.map Field.name)) :
    (visibleAll outlines).Sublist ((expandedAll outlines).map Field.name) := by
  induction outlines with
  | nil => exact List.Sublist.refl _
  | cons first rest ih =>
    simp only [visibleAll, expandedAll, List.map_append]
    exact (each first (by simp)).append (ih fun outline inside => each outline (by simp [inside]))

/-- An outline shows names of its expanded fields, in their order. -/
theorem visible_sublist (outline : Outline) :
    outline.visible.Sublist (outline.expanded.map Field.name) := by
  induction outline using Outline.induction with
  | scalar field => exact List.Sublist.refl _
  | selection field element isList children each =>
    simp only [visible]
    split
    · exact List.nil_sublist _
    · exact List.Sublist.refl _
  | spread field fields each => exact visibleAll_sublist each
  | endless => exact List.Sublist.refl _

/-- Distinct names of an expanded selection are contributed without loss. -/
theorem nodup_visibleAll {outlines : List Outline}
    (distinct : ((expandedAll outlines).map Field.name).Nodup) : (visibleAll outlines).Nodup :=
  distinct.sublist (visibleAll_sublist fun outline _ => outline.visible_sublist)

/-! ## What a pass contributes -/

/-- The names that some outlines contribute are known if those of each are. -/
theorem names_contributeAll {options : PassOptions} {base? : Option Placeholder}
    {outlines : List Outline}
    (each : ∀ outline ∈ outlines, Drawing.Yields
      (fun contributions => contributions.map Prod.fst = outline.visible)
      (outline.contribute options base?)) :
    Drawing.Yields (fun contributions => contributions.map Prod.fst = visibleAll outlines)
      (contributeAll options base? outlines) := by
  induction outlines with
  | nil => exact Drawing.yields_pure rfl
  | cons first rest ih =>
    simp only [contributeAll]
    refine (each first (by simp)).bind fun own same =>
      (ih fun outline inside => each outline (by simp [inside])).bind fun others alike =>
        Drawing.yields_pure ?_
    simp [visibleAll, same, alike]

/-- Outlines of which none calls a service. -/
theorem hasServices?_of_anyServices? {outlines : List Outline}
    (silent : anyServices? outlines = some false) :
    ∀ outline ∈ outlines, outline.hasServices? = some false := by
  induction outlines with
  | nil => simp
  | cons first rest ih =>
    simp only [anyServices?] at silent
    split at silent
    · rename_i known
      simpa [known] using ih silent
    · rename_i unknown
      exact absurd silent unknown

/-- A pass contributes the visible names if it leaves nothing out or there is nothing to
    leave out. -/
theorem names_contribute (outline : Outline) {options : PassOptions} (base? : Option Placeholder)
    (whole : options.leavingOut = false ∨ outline.hasServices? = some false) :
    Drawing.Yields (fun contributions => contributions.map Prod.fst = outline.visible)
      (outline.contribute options base?) := by
  induction outline using Outline.induction generalizing base? options with
  | scalar field =>
    have stays : (options.leavingOut && field.callsService) = false := by
      rcases whole with leaving | silent
      · simp [leaving]
      · simp [Option.some.inj silent]
    simp only [contribute, Field.contributeScalar, stays, Bool.false_eq_true, ↓reduceIte]
    split
    · exact Drawing.yields_pure rfl
    · exact (Drawing.yields_true _).bind fun value _ => Drawing.yields_pure rfl
  | selection field element isList children each =>
    have below : options.leavingOut = false ∨ anyServices? children = some false := by
      apply whole.imp_right
      intro silent
      simp only [hasServices?] at silent
      split at silent
      · cases silent
      · exact silent
    have stays : (options.leavingOut && field.callsService) = false := by
      rcases whole with leaving | silent
      · simp [leaving]
      · simp only [hasServices?] at silent
        split at silent
        · cases silent
        · rename_i own
          simp [own]
    have noShell : (options.leavingOut && anyServices? children == some true) = false := by
      rcases below with leaving | silent
      · simp [leaving]
      · simp [silent]
    simp only [contribute, stays, Bool.false_eq_true, ↓reduceIte, noShell, Bool.not_false,
      Bool.and_true]
    refine (Drawing.yields_true _).bind fun found _ => ?_
    let inner : PassOptions := ⟨options.leavingOut, found.replacement?, false⟩
    have names : Drawing.Yields
        (fun contributions => contributions.map Prod.fst = visibleAll children)
        (contributeAll inner none children) :=
      names_contributeAll fun child inside => each child inside none
        (below.imp_right fun silent => hasServices?_of_anyServices? silent child inside)
    refine names.bind fun contributions same => ?_
    have empty : (Members.firsts contributions).isEmpty = (visibleAll children).isEmpty := by
      rw [Members.isEmpty_firsts, ← same, List.isEmpty_map]
    simp only [empty, visible]
    split
    · exact Drawing.yields_pure rfl
    · split
      · exact (Drawing.yields_true _).bind fun value _ => Drawing.yields_pure rfl
      · exact Drawing.yields_pure rfl
  | spread field fields each =>
    simp only [contribute]
    exact names_contributeAll fun child inside => each child inside _
      (whole.imp_right fun silent => hasServices?_of_anyServices? silent child inside)
  | endless =>
    simp only [contribute]
    exact Drawing.yields_pure rfl

end StagedQuery.Outline
