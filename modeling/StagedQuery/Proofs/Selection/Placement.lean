import StagedQuery.Proofs.Selection.Acyclic
import StagedQuery.Proofs.Selection.Built

/-!
# The placeholders over which outlines are written

In the outlines of a built tree the fields of one selection are written over one
placeholder: that of the field above them, or that of their fragment. The outlines of the
query fields are written over the root.
-/

namespace StagedQuery

/-- An outline that comes to an end and whose fields stand where they were written: the
    members of a selection over the placeholder of the selecting field, and the fields of a
    spread over one placeholder, that of their fragment. Lists are taken item by item. -/
inductive Outline.WrittenOver : Placeholder → Outline → Prop where
  | scalar {field : Field} : WrittenOver field.context (.scalar field)
  | selection {field : Field} {element : Placeholder} {isList : Bool} {children : List Outline}
      (selects : field.element? = some element) (lists : isList = SelectionTree.selectsList field)
      (below : ∀ child ∈ children, WrittenOver element child) :
      WrittenOver field.context (.selection field element isList children)
  | spread {field : Field} {slot : Placeholder} {fields : List Outline}
      (below : ∀ child ∈ fields, WrittenOver slot child) :
      WrittenOver field.context (.spread field fields)

/-- The members of a selection are written over its placeholder. -/
theorem Outline.WrittenOver.members {context element : Placeholder} {field : Field} {isList : Bool}
    {children : List Outline} (written : WrittenOver context (.selection field element isList
      children)) : ∀ child ∈ children, WrittenOver element child := by
  cases written with
  | selection _ _ below => exact below

namespace SelectionTree

variable {tree : SelectionTree}

/-- What is listed under an owner other than the operation is written over its placeholder. -/
theorem Placed.context_of_listed (placed : tree.Placed) {owner : Owner} {address : Address}
    {field : Field} {context : Placeholder} (listed : address ∈ (tree.ownerFields owner).2)
    (inner : owner ≠ .operation) (owned : tree.ownerContext owner = .ok context)
    (stored : tree.field? address = some field) : field.context = context := by
  obtain ⟨found, other, known, ownedToo, ⟨-, same⟩ | ⟨-, top⟩⟩ := placed.listed listed
  · obtain rfl := Option.some.inj (stored.symm.trans known)
    obtain rfl := Except.ok.inj (owned.symm.trans ownedToo)
    exact same
  · exact absurd top inner

/-- The fields that are listed under such an owner are written over one placeholder. -/
theorem Placed.exists_context (placed : tree.Placed) {owner : Owner} (inner : owner ≠ .operation) :
    ∃ context, ∀ address ∈ (tree.ownerFields owner).2, ∀ field,
      tree.field? address = some field → field.context = context := by
  cases owned : tree.ownerContext owner with
  | ok context =>
    refine ⟨context, ?_⟩
    intro address listed field stored
    exact placed.context_of_listed listed inner owned stored
  | error fault =>
    refine ⟨tree.root, ?_⟩
    intro address listed field stored
    obtain ⟨found, context, -, ownedToo, -⟩ := placed.listed listed
    rw [owned] at ownedToo
    cases ownedToo

/-- An outline of a tree that comes to an end is written over the context of its field.

    Proof: induction on the bound. The children of a selection stand over the placeholder of
    its field, and the fields of a fragment over that of the fragment. -/
theorem writtenOver_outlineWithin (placed : tree.Placed) {bound : Nat} {opened : List Address}
    {address : Address} {field : Field} {outline : Outline}
    (stored : tree.field? address = some field)
    (outlined : tree.outlineWithin bound opened address = some outline)
    (finite : outline.isFinite false = true) : outline.WrittenOver field.context := by
  induction bound generalizing opened address field outline with
  | zero =>
    obtain rfl := Option.some.inj outlined
    cases finite
  | succ bound ih =>
    simp only [outlineWithin, stored, Option.map_some, Option.some.injEq] at outlined
    -- What is outlined below is written over the placeholder of the fields that it outlines.
    have below (addresses : List Address) (context : Placeholder)
        (above : ∀ next ∈ addresses, ∀ found, tree.field? next = some found →
          found.context = context)
        (ends : Outline.allFinite false
          (addresses.filterMap (tree.outlineWithin bound (address :: opened))) = true) :
        ∀ child ∈ addresses.filterMap (tree.outlineWithin bound (address :: opened)),
          child.WrittenOver context := by
      intro child inside
      obtain ⟨next, listed, made⟩ := List.mem_filterMap.mp inside
      have endsHere := Outline.allFinite_iff.mp ends child inside
      cases bound with
      | zero =>
        obtain rfl := Option.some.inj made
        cases endsHere
      | succ bound =>
        obtain ⟨found, known, -⟩ := Option.map_eq_some_iff.mp made
        rw [← above next listed found known]
        exact ih known made endsHere
    split at outlined
    · subst outlined
      cases finite
    · split at outlined <;> subst outlined
      · rename_i fragment kind
        have isFragment : Owner.fragment fragment ≠ .operation := by simp
        obtain ⟨slot, above⟩ := placed.exists_context isFragment
        rw [← fragmentFields_eq] at above
        exact .spread (below _ slot above finite)
      · rename_i element selects _
        have owned : tree.ownerContext (.field address) = .ok element := by
          simp [ownerContext, stored, selects]
        have listed : (tree.ownerFields (.field address)).2 = field.children := by
          simp [ownerFields, stored]
        have above : ∀ next ∈ field.children, ∀ found, tree.field? next = some found →
            found.context = element := by
          intro next inside found known
          rw [← listed] at inside
          exact placed.context_of_listed inside (by simp) owned known
        exact .selection selects rfl
          (below _ element above (by simpa [Outline.isFinite] using finite))
      · exact .scalar

/-- The outlines of the query fields of an acyclic tree are written over the root. -/
theorem writtenOver_queryOutlines (placed : tree.Placed) (acyclic : tree.Acyclic) :
    ∀ outline ∈ tree.queryOutlines, outline.WrittenOver tree.root := by
  intro outline inside
  obtain ⟨address, listed, outlined⟩ := List.mem_filterMap.mp inside
  obtain ⟨atTop, plain⟩ := List.mem_filter.mp listed
  obtain ⟨field, context, stored, owned, standing⟩ := @Placed.listed _ placed .operation _ atTop
  obtain rfl := Except.ok.inj owned
  rcases standing with ⟨-, same⟩ | ⟨mutating, -⟩
  · rw [← same]
    exact writtenOver_outlineWithin placed stored outlined (acyclic.isFinite_outline outlined)
  · simp [stored, mutating] at plain

end SelectionTree

end StagedQuery
