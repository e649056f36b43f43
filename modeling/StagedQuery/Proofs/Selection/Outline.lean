import StagedQuery.Selection.Outline

/-!
# The structure of outlines

An outline is followed by induction on it, with one hypothesis for all children of a
selection or all fields of a spread. The fields met in the outline of an address are
fields of the tree.
-/

namespace StagedQuery

namespace Outline

/-- Induction over the forms of an outline. -/
@[elab_as_elim]
theorem induction {motive : Outline → Prop}
    (scalar : ∀ field, motive (.scalar field))
    (selection : ∀ field element isList children, (∀ child ∈ children, motive child) →
      motive (.selection field element isList children))
    (spread : ∀ field fields, (∀ child ∈ fields, motive child) → motive (.spread field fields))
    (endless : motive .endless) (outline : Outline) : motive outline := by
  refine @Outline.rec motive (fun outlines => ∀ child ∈ outlines, motive child)
    scalar selection spread endless ?_ ?_ outline
  all_goals simp_all

mutual

/-- All fields of an outline, those of spreads included. -/
def fields : Outline → List Field
  | .scalar field => [field]
  | .selection field _ _ children => field :: allFields children
  | .spread field inner => field :: allFields inner
  | .endless => []

/-- All fields of some outlines. -/
def allFields : List Outline → List Field
  | [] => []
  | first :: rest => first.fields ++ allFields rest

end

/-- A field of some outlines is a field of one of them. -/
theorem mem_allFields {field : Field} {outlines : List Outline} :
    field ∈ allFields outlines ↔ ∃ outline ∈ outlines, field ∈ outline.fields := by
  induction outlines with
  | nil => simp [allFields]
  | cons first rest ih => simp [allFields, ih]

mutual

/-- The fields that an outline asks for, those of fragments where they are spread. -/
def requested : Outline → List Field
  | .scalar field => [field]
  | .selection field _ _ children => field :: requestedAll children
  | .spread _ inner => requestedAll inner
  | .endless => []

/-- The fields that some outlines ask for. -/
def requestedAll : List Outline → List Field
  | [] => []
  | first :: rest => first.requested ++ requestedAll rest

end

/-- A field that some outlines request is requested by one of them. -/
theorem mem_requestedAll {field : Field} {outlines : List Outline} :
    field ∈ requestedAll outlines ↔ ∃ outline ∈ outlines, field ∈ outline.requested := by
  induction outlines with
  | nil => simp [requestedAll]
  | cons first rest ih => simp [requestedAll, ih]

/-- What is asked for of some outlines is among their fields if this holds of each. -/
theorem requestedAll_subset {outlines : List Outline}
    (each : ∀ outline ∈ outlines, outline.requested ⊆ outline.fields) :
    requestedAll outlines ⊆ allFields outlines := by
  intro field asked
  obtain ⟨outline, inside, own⟩ := mem_requestedAll.mp asked
  exact mem_allFields.mpr ⟨outline, inside, each outline inside own⟩

/-- The fields that are asked for are among all fields. -/
theorem requested_subset (outline : Outline) : outline.requested ⊆ outline.fields := by
  induction outline using Outline.induction with
  | scalar field => exact List.Subset.refl _
  | selection field element isList children below =>
    exact List.cons_subset_cons field (requestedAll_subset below)
  | spread field inner below =>
    exact List.subset_cons_of_subset field (requestedAll_subset below)
  | endless => exact List.Subset.refl _

end Outline

namespace SelectionTree

/-- The fields of an outline are fields of the tree. -/
theorem field_of_mem_outlineWithin {tree : SelectionTree} {bound : Nat} {opened : List Address}
    {address : Address} {outline : Outline}
    (outlined : tree.outlineWithin bound opened address = some outline) :
    ∀ field ∈ outline.fields, ∃ address, tree.field? address = some field := by
  induction bound generalizing opened address outline with
  | zero =>
    obtain rfl := Option.some.inj outlined
    simp [Outline.fields]
  | succ bound ih =>
    -- The fields below an address come from outlines with a smaller bound.
    have below (addresses : List Address) : ∀ field ∈ Outline.allFields
        (addresses.filterMap (tree.outlineWithin bound (address :: opened))),
        ∃ address, tree.field? address = some field := by
      intro field inside
      obtain ⟨child, listed, found⟩ := Outline.mem_allFields.mp inside
      obtain ⟨next, -, made⟩ := List.mem_filterMap.mp listed
      exact ih made field found
    simp only [outlineWithin, Option.map_eq_some_iff] at outlined
    obtain ⟨own, stored, made⟩ := outlined
    split at made
    · subst made
      simp [Outline.fields]
    · split at made <;> subst made <;> simp only [Outline.fields, List.mem_cons] <;>
        intro field inside
      · obtain rfl | deeper := inside
        · exact ⟨address, stored⟩
        · exact below _ field deeper
      · obtain rfl | deeper := inside
        · exact ⟨address, stored⟩
        · exact below _ field deeper
      · obtain rfl : field = own := by simpa using inside
        exact ⟨address, stored⟩

/-- A stored field has an outline. -/
theorem exists_outlineWithin {tree : SelectionTree} {address : Address} {field : Field}
    (stored : tree.field? address = some field) (bound : Nat) (opened : List Address) :
    ∃ outline, tree.outlineWithin bound opened address = some outline := by
  cases bound with
  | zero => exact ⟨.endless, rfl⟩
  | succ bound =>
    apply Option.isSome_iff_exists.mp
    simp [outlineWithin, stored]

/-- The fields of the outlines of an operation are fields of the tree. -/
theorem field_of_mem_queryOutlines {tree : SelectionTree} {field : Field}
    (inside : field ∈ Outline.allFields tree.queryOutlines) :
    ∃ address, tree.field? address = some field := by
  obtain ⟨outline, listed, found⟩ := Outline.mem_allFields.mp inside
  obtain ⟨address, -, outlined⟩ := List.mem_filterMap.mp listed
  exact field_of_mem_outlineWithin outlined field found

end SelectionTree

end StagedQuery
