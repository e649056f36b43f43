import Mathlib.Data.List.Nodup
import Mathlib.Data.List.Perm.Subperm
import Mathlib.Logic.Relation
import StagedQuery.Query
import StagedQuery.Proofs.Selection.Growth
import StagedQuery.Proofs.Selection.Outline

/-!
# Trees whose fragments do not spread themselves

Following a selection leads from an owner to its fields and from a spread to the
fragment that it names. Where no way leads back to where it came from, every outline
comes to an end: the fields that are open while a field is outlined all lead to it, so
none of them is met again, and they are distinct fields of the tree, so the bound on
the depth is never used up. All questions about outlines then have an answer, and
every compilation is defined.
-/

namespace StagedQuery

open Relation

namespace Outline

/-- A pass over some outlines comes to an end if it does so over each. -/
theorem allFinite_iff {leavingOut : Bool} {outlines : List Outline} :
    allFinite leavingOut outlines = true ↔
      ∀ outline ∈ outlines, outline.isFinite leavingOut = true := by
  induction outlines with
  | nil => simp [allFinite]
  | cons first rest ih => simp [allFinite, ih]

/-- The scan of some outlines for services agrees with what they ask for if that of each
    does. -/
theorem anyServices?_eq {outlines : List Outline}
    (each : ∀ outline ∈ outlines,
      outline.hasServices? = some (outline.requested.any Field.callsService)) :
    anyServices? outlines = some ((requestedAll outlines).any Field.callsService) := by
  induction outlines with
  | nil => rfl
  | cons first rest ih =>
    have later := ih fun outline inside => each outline (by simp [inside])
    rw [requestedAll, List.any_append, anyServices?, each first (by simp)]
    cases first.requested.any Field.callsService with
    | true => rfl
    | false => simpa using later

/-- An outline that can be followed to its end calls a service exactly if a field that it
    asks for does. The scan stops at the first one. -/
theorem hasServices?_eq (outline : Outline) (finite : outline.isFinite false = true) :
    outline.hasServices? = some (outline.requested.any Field.callsService) := by
  induction outline using Outline.induction with
  | scalar field => simp [hasServices?, requested]
  | selection field element isList children below =>
    simp only [isFinite, Bool.false_and, Bool.false_or] at finite
    simp only [hasServices?, requested, List.any_cons]
    cases field.callsService with
    | true => rfl
    | false =>
      apply anyServices?_eq
      intro child inside
      exact below child inside (allFinite_iff.mp finite child inside)
  | spread field fields below =>
    simp only [isFinite] at finite
    apply anyServices?_eq
    intro child inside
    exact below child inside (allFinite_iff.mp finite child inside)
  | endless => simp [isFinite] at finite

end Outline

namespace SelectionTree

/-- One step of following a selection: from an owner to one of its fields, or from a
    spread to its fragment. -/
inductive Leads (tree : SelectionTree) : Owner → Owner → Prop where
  | field {owner : Owner} {address : Address} (listed : address ∈ (tree.ownerFields owner).2) :
      Leads tree owner (.field address)
  | spread {address fragment : Address} {field : Field} (stored : tree.field? address = some field)
      (kind : field.kind = .spread fragment) : Leads tree (.field address) (.fragment fragment)

/-- No way leads from an owner back to it. -/
def Acyclic (tree : SelectionTree) : Prop :=
  ∀ owner, ¬TransGen tree.Leads owner owner

/-- The fields of a fragment are those of the owner that it is. -/
theorem fragmentFields_eq (tree : SelectionTree) (fragment : Address) :
    tree.fragmentFields fragment = (tree.ownerFields (.fragment fragment)).2 := by
  simp only [fragmentFields, ownerFields]
  cases tree.fragment? fragment <;> rfl

/-- Where a spread is outlined, its fields are reached. -/
theorem transGen_of_spread {tree : SelectionTree} {address fragment next : Address}
    {field : Field} (stored : tree.field? address = some field)
    (kind : field.kind = .spread fragment) (listed : next ∈ tree.fragmentFields fragment) :
    TransGen tree.Leads (.field address) (.field next) :=
  .tail (.single (.spread stored kind)) (.field (by rwa [← fragmentFields_eq]))

/-- Where a selection is outlined, its children are reached. -/
theorem transGen_of_child {tree : SelectionTree} {address next : Address} {field : Field}
    (stored : tree.field? address = some field) (listed : next ∈ field.children) :
    TransGen tree.Leads (.field address) (.field next) :=
  .single (.field (by simpa [ownerFields, stored] using listed))

/-- Distinct addresses below a bound are no more than the bound. -/
theorem length_le_of_index_lt {addresses : List Address} {bound : Nat}
    (distinct : addresses.Nodup) (below : ∀ address ∈ addresses, address.index < bound) :
    addresses.length ≤ bound := by
  have apart : (addresses.map Address.index).Nodup :=
    List.Nodup.map (fun left right same => by cases left; cases right; simpa using same) distinct
  have within : addresses.map Address.index ⊆ List.range bound := by
    intro index inside
    obtain ⟨address, listed, rfl⟩ := List.mem_map.mp inside
    exact List.mem_range.mpr (below address listed)
  simpa using (List.subperm_of_subset apart within).length_le

/-- The outlines of an acyclic tree come to an end.

    Proof: induction on the bound. The open fields are distinct and lead to the field
    that is outlined. So that field is not open, else it would lead to itself; and the
    bound is not used up, else there would be more open fields than fields. -/
theorem isFinite_outlineWithin {tree : SelectionTree} (acyclic : tree.Acyclic) {bound : Nat}
    {opened : List Address} {address : Address} {outline : Outline}
    (outlined : tree.outlineWithin bound opened address = some outline)
    (leading : ∀ earlier ∈ opened, TransGen tree.Leads (.field earlier) (.field address))
    (distinct : opened.Nodup) (stored : ∀ earlier ∈ opened, earlier.index < tree.fields.size)
    (enough : tree.fields.size < bound + opened.length) : outline.isFinite false = true := by
  induction bound generalizing opened address outline with
  | zero =>
    have fitting := length_le_of_index_lt distinct stored
    omega
  | succ bound ih =>
    simp only [outlineWithin, Option.map_eq_some_iff] at outlined
    obtain ⟨field, found, made⟩ := outlined
    have fresh : address ∉ opened := fun inside => acyclic _ (leading address inside)
    -- What is outlined below the field is reached from it and from all that lead to it.
    have below (addresses : List Address) (reached : ∀ next ∈ addresses,
        TransGen tree.Leads (.field address) (.field next)) :
        Outline.allFinite false
          (addresses.filterMap (tree.outlineWithin bound (address :: opened))) = true := by
      apply Outline.allFinite_iff.mpr
      intro child inside
      obtain ⟨next, listed, deeper⟩ := List.mem_filterMap.mp inside
      refine ih deeper ?_ (List.nodup_cons.mpr ⟨fresh, distinct⟩) ?_ (by simp; omega)
      · rintro earlier (_ | ⟨_, known⟩)
        · exact reached next listed
        · exact (leading earlier known).trans (reached next listed)
      · rintro earlier (_ | ⟨_, known⟩)
        · exact Arena.lt_size_of_item? found
        · exact stored earlier known
    rw [if_neg (by simpa using fresh)] at made
    split at made <;> subst made <;> simp only [Outline.isFinite, Bool.false_and, Bool.false_or]
    · rename_i kind
      exact below _ fun next listed => transGen_of_spread found kind listed
    · exact below _ fun next listed => transGen_of_child found listed

/-- The outline of a field of an acyclic tree comes to an end. -/
theorem Acyclic.isFinite_outline {tree : SelectionTree} (acyclic : tree.Acyclic)
    {address : Address} {outline : Outline} (outlined : tree.outline? address = some outline) :
    outline.isFinite false = true :=
  isFinite_outlineWithin acyclic outlined (by simp) List.nodup_nil (by simp) (by simp)

/-- Whether a field of an acyclic tree calls a service is decided. -/
theorem Acyclic.hasServices?_isSome {tree : SelectionTree} (acyclic : tree.Acyclic)
    (address : Address) : (tree.hasServices? address).isSome = true := by
  unfold hasServices?
  cases outlined : tree.outline? address with
  | none => rfl
  | some outline => simp [Outline.hasServices?_eq outline (acyclic.isFinite_outline outlined)]

/-- All outlines of the query fields of an acyclic tree come to an end. -/
theorem Acyclic.allFinite_queryOutlines {tree : SelectionTree} (acyclic : tree.Acyclic) :
    Outline.allFinite false tree.queryOutlines = true := by
  apply Outline.allFinite_iff.mpr
  intro outline inside
  obtain ⟨address, -, outlined⟩ := List.mem_filterMap.mp inside
  exact acyclic.isFinite_outline outlined

/-- The full pass over the query fields of an acyclic tree is defined. -/
theorem Acyclic.operationPass? {tree : SelectionTree} (acyclic : tree.Acyclic) :
    tree.operationPass? .full = some (tree.operationPass .full) :=
  if_pos acyclic.allFinite_queryOutlines

/-- The compilation of the query fields of an acyclic tree is defined. -/
theorem Acyclic.compile? {tree : SelectionTree} (acyclic : tree.Acyclic) (noExecution : Bool) :
    tree.compile? noExecution = some (tree.compile noExecution) :=
  if_pos acyclic.allFinite_queryOutlines

/-- The compilation of a mutation of an acyclic tree is defined. -/
theorem Acyclic.compileMutation? {tree : SelectionTree} (acyclic : tree.Acyclic)
    (address : Address) (noExecution : Bool) :
    tree.compileMutation? address noExecution =
      some (tree.compileMutation address noExecution) := by
  apply if_pos
  cases outlined : tree.outline? address with
  | none => rfl
  | some outline => exact acyclic.isFinite_outline outlined

end SelectionTree

end StagedQuery
