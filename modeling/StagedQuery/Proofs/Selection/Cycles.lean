import StagedQuery.Proofs.Selection.Acyclic
import StagedQuery.Proofs.Selection.Built

/-!
# Which operations close a cycle

Storing a field adds one way into it from its owner and, if it is a spread, one way out
of it to a fragment. So a cycle is closed exactly by a spread of a fragment that already
leads to the owner. The operation that spreads refuses less than that: it follows only
the spreads that stand directly in fragments, and only if the owner is a fragment.

Compilation ends exactly on the acyclic trees, because the outline of a field of a cycle
meets the field again while it is open.
-/

namespace StagedQuery

open Relation

/-! ## One more node in a relation -/

section Extend

variable {α : Type} {before after : α → α → Prop} {source fresh : α} {out : α → Prop}
  (edges : ∀ left right, after left right →
    before left right ∨ (left = source ∧ right = fresh) ∨ (left = fresh ∧ out right))
include edges

/-- What lies behind the new node is reached without the new node. -/
theorem reflTransGen_of_out (noneIn : ∀ left, ¬before left fresh)
    (freshOut : ∀ right, out right → right ≠ fresh)
    (shut : ∀ right, out right → ¬ReflTransGen before right source) {start finish : α}
    (behind : out start)
    (way : ReflTransGen after start finish) : ReflTransGen before start finish := by
  induction way with
  | refl => exact .refl
  | @tail middle next _ step ih =>
    rcases edges _ _ step with old | ⟨rfl, rfl⟩ | ⟨rfl, -⟩
    · exact ih.tail old
    · exact absurd ih (shut start behind)
    · -- The new node is entered from its source only, and is not where the way started.
      rcases ReflTransGen.cases_tail ih with same | ⟨last, -, into⟩
      · exact absurd same.symm (freshOut start behind)
      · exact absurd into (noneIn last)

/-- A way between two nodes avoids the new node or passes it. -/
theorem transGen_avoids_or_passes {start finish : α} (way : TransGen after start finish) :
    TransGen before start finish ∨
      (ReflTransGen after start fresh ∧ ReflTransGen after fresh finish) := by
  induction way with
  | single step =>
    rcases edges _ _ step with old | ⟨rfl, rfl⟩ | ⟨rfl, -⟩
    · exact .inl (.single old)
    · exact .inr ⟨.single step, .refl⟩
    · exact .inr ⟨.refl, .single step⟩
  | @tail middle next way step ih =>
    rcases ih with direct | ⟨into, later⟩
    · rcases edges _ _ step with old | ⟨rfl, rfl⟩ | ⟨rfl, -⟩
      · exact .inl (direct.tail old)
      · exact .inr ⟨(way.tail step).to_reflTransGen, .refl⟩
      · exact .inr ⟨way.to_reflTransGen, .single step⟩
    · exact .inr ⟨into, later.tail step⟩

/-- A new node whose successors do not lead to its source closes no cycle. -/
theorem acyclic_extend (noneIn : ∀ left, ¬before left fresh)
    (noneOut : ∀ right, ¬before fresh right) (apart : source ≠ fresh)
    (freshOut : ∀ right, out right → right ≠ fresh)
    (shut : ∀ right, out right → ¬ReflTransGen before right source)
    (acyclic : ∀ node, ¬TransGen before node node) (node : α) : ¬TransGen after node node := by
  intro cycle
  -- A cycle is an old one or leads from the new node back to it.
  have around : TransGen after fresh fresh := by
    rcases transGen_avoids_or_passes edges cycle with old | ⟨into, later⟩
    · exact absurd old (acyclic node)
    · rcases reflTransGen_iff_eq_or_transGen.mp later with rfl | way
      · exact cycle
      · exact way.trans_left into
  obtain ⟨right, step, way⟩ := TransGen.head'_iff.mp around
  rcases edges _ _ step with old | ⟨same, -⟩ | ⟨-, behind⟩
  · exact noneOut right old
  · exact apart same.symm
  · rcases ReflTransGen.cases_tail
      (reflTransGen_of_out edges noneIn freshOut shut behind way) with same | ⟨last, -, into⟩
    · exact freshOut right behind same.symm
    · exact noneIn last into

end Extend

namespace SelectionTree

variable {practice : Practice} {tree grown : SelectionTree} {supply : Nat} {owner : Owner}
  {field : Field} {address : Address}

/-! ## The ways of a grown tree -/

/-- A way of a grown tree is an old one, the one into the new field, or the one out of it
    if it is a spread. -/
theorem GrownBy.leads_iff (growth : tree.GrownBy grown owner field address)
    (childless : field.children = []) {left right : Owner} :
    grown.Leads left right ↔
      tree.Leads left right ∨ (left = owner ∧ right = .field address) ∨
        (left = .field address ∧ ∃ fragment, field.kind = .spread fragment ∧
          right = .fragment fragment) := by
  constructor
  · intro leads
    cases leads with
    | field listed =>
      rcases (growth.mem_ownerFields childless).mp listed with old | ⟨rfl, rfl⟩
      · exact .inl (.field old)
      · exact .inr (.inl ⟨rfl, rfl⟩)
    | spread stored kind =>
      rcases growth.field?_cases stored with ⟨rfl, rfl⟩ | ⟨-, before, known, same⟩
      · exact .inr (.inr ⟨rfl, _, kind, rfl⟩)
      · rw [same] at kind
        exact .inl (.spread known kind)
  · rintro (old | ⟨rfl, rfl⟩ | ⟨rfl, fragment, kind, rfl⟩)
    · cases old with
      | field listed => exact .field ((growth.mem_ownerFields childless).mpr (.inl listed))
      | spread stored kind =>
        obtain ⟨children, after⟩ := growth.stored_after stored
        exact .spread after kind
    · exact .field ((growth.mem_ownerFields childless).mpr (.inr ⟨rfl, rfl⟩))
    · exact .spread growth.field?_new kind

/-- Nothing led to the new field, and it led nowhere. -/
theorem GrownBy.no_leads_new (growth : tree.GrownBy grown owner field address)
    (placed : tree.Placed) :
    (∀ left, ¬tree.Leads left (.field address)) ∧ ∀ right, ¬tree.Leads (.field address) right := by
  have absent := growth.field?_before
  constructor
  · intro left leads
    cases leads with
    | field listed =>
      obtain ⟨found, context, stored, -⟩ := placed.listed listed
      simp [absent] at stored
  · intro right leads
    cases leads with
    | field listed => simp [ownerFields, absent] at listed
    | spread stored kind => simp [absent] at stored

/-- A grown tree is acyclic exactly when the tree was and the new field, if it is a spread,
    does not spread a fragment that leads to its owner. -/
theorem GrownBy.acyclic_iff (growth : tree.GrownBy grown owner field address)
    (placed : tree.Placed) (childless : field.children = []) :
    grown.Acyclic ↔ tree.Acyclic ∧ ∀ fragment, field.kind = .spread fragment →
      ¬ReflTransGen tree.Leads (.fragment fragment) owner := by
  have old : ∀ left right, tree.Leads left right → grown.Leads left right := by
    intro left right leads
    exact (growth.leads_iff childless).mpr (.inl leads)
  obtain ⟨noneIn, noneOut⟩ := growth.no_leads_new placed
  constructor
  · intro acyclic
    constructor
    · intro node cycle
      exact acyclic node (TransGen.mono old _ _ cycle)
    · intro fragment kind way
      have into : grown.Leads owner (.field address) :=
        (growth.leads_iff childless).mpr (.inr (.inl ⟨rfl, rfl⟩))
      have out : grown.Leads (.field address) (.fragment fragment) :=
        (growth.leads_iff childless).mpr (.inr (.inr ⟨rfl, fragment, kind, rfl⟩))
      exact acyclic owner (.head into (.head' out (ReflTransGen.mono old _ _ way)))
  · rintro ⟨acyclic, shut⟩
    apply acyclic_extend (fun left right => (growth.leads_iff childless).mp) noneIn noneOut
      growth.owner_ne _ _ acyclic
    · rintro right ⟨fragment, -, rfl⟩ same
      cases same
    · rintro right ⟨fragment, kind, rfl⟩
      exact shut fragment kind

/-! ## The operations -/

/-- A tree without fields has no ways. -/
theorem acyclic_drawSelectionTree (shape : Shape) (supply : Nat) :
    (drawSelectionTree shape supply).1.Acyclic := by
  intro owner cycle
  obtain ⟨next, leads, -⟩ := TransGen.head'_iff.mp cycle
  cases leads with
  | field listed => cases owner <;> cases listed
  | spread stored kind => cases stored

/-- Selecting a field closes no cycle. -/
theorem acyclic_select_iff (placed : tree.Placed) {definition : FieldDefinition}
    {request : Request} {supplied : Option Variables}
    (selected : (tree.select owner definition request supplied supply).1 = .ok (address, grown)) :
    grown.Acyclic ↔ tree.Acyclic := by
  obtain ⟨context, arguments, -, -, growth, -⟩ := select_grownBy selected
  rw [growth.acyclic_iff placed rfl, and_iff_left]
  intro fragment kind
  exact absurd kind ((drawKind_plain _ _ _).1 fragment)

/-- Selecting a mutation closes no cycle. -/
theorem acyclic_selectMutation_iff (placed : tree.Placed) {mutation : Mutation}
    {request : Request} {supplied : Option Variables}
    (selected : (tree.selectMutation mutation request supplied supply).1 = .ok (address, grown)) :
    grown.Acyclic ↔ tree.Acyclic := by
  have growth := (selectMutation_grownBy selected).1
  obtain ⟨result, element?, drawn, -⟩ := drawMutation_spec mutation request supplied supply
  rw [drawn] at growth
  rw [growth.acyclic_iff placed rfl, and_iff_left]
  intro fragment kind
  cases kind

/-- Declaring a fragment adds no way. -/
theorem acyclic_declareFragment_iff (tree : SelectionTree) (name : String) (shape : Shape)
    (supply : Nat) :
    (tree.declareFragment name shape supply).1.2.Acyclic ↔ tree.Acyclic := by
  have same : (tree.declareFragment name shape supply).1.2.Leads = tree.Leads := by
    funext left right
    apply propext
    constructor
    · intro leads
      cases leads with
      | field listed => exact .field (by rwa [ownerFields_declareFragment] at listed)
      | spread stored kind => exact .spread stored kind
    · intro leads
      cases leads with
      | field listed => exact .field (by rwa [ownerFields_declareFragment])
      | spread stored kind => exact .spread stored kind
  simp only [Acyclic, same]

/-- A spread closes a cycle exactly when its fragment leads to the owner. -/
theorem acyclic_spread_iff (placed : tree.Placed) {name : String} {fragment : Address}
    (named : tree.fragmentNamed? name = some fragment)
    (spreads : tree.spread owner name = .ok (address, grown)) :
    grown.Acyclic ↔
      tree.Acyclic ∧ ¬ReflTransGen tree.Leads (.fragment fragment) owner := by
  obtain ⟨found, context, same, -, -, growth⟩ := spread_grownBy spreads
  obtain rfl : found = fragment := Option.some.inj (same.symm.trans named)
  rw [growth.acyclic_iff placed rfl]
  simp [spreadField]

end SelectionTree

end StagedQuery
