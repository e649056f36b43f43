import StagedQuery.Proofs.Selection.Growth

/-!
# The trees that the operations build

A tree starts empty and grows by selecting fields, spreading and declaring fragments
and selecting mutations. The numbers of placeholders come from one supply, from which
others may draw in between; an operation that fails draws and changes nothing else.

In a tree that was built, every address that an owner lists holds a field, the field is
written over the placeholder of its owner, and children are stored after their parent.
-/

namespace StagedQuery.SelectionTree

/-- What the callers of the operations keep to: the fields that they select, and the
    fragments that they spread under an owner of a tree. -/
structure Practice where
  offers : FieldDefinition → Prop := fun _ => True
  admits : SelectionTree → Owner → Address → Prop := fun _ _ _ => True

variable {practice : Practice} {tree grown : SelectionTree} {supply : Nat}

/-- The trees that callers build, each with a supply from which nothing was drawn yet. -/
inductive Built (practice : Practice) : SelectionTree → Nat → Prop where
  | start (shape : Shape) (supply : Nat) :
      Built practice (drawSelectionTree shape supply).1 (drawSelectionTree shape supply).2
  | later {tree : SelectionTree} {supply after : Nat} (built : Built practice tree supply)
      (passed : supply ≤ after) : Built practice tree after
  | select {tree grown : SelectionTree} {supply : Nat} {owner : Owner}
      {definition : FieldDefinition} {request : Request} {supplied : Option Variables}
      {address : Address} (built : Built practice tree supply) (known : practice.offers definition)
      (selected : (tree.select owner definition request supplied supply).1 = .ok (address, grown)) :
      Built practice grown (tree.select owner definition request supplied supply).2
  | spread {tree grown : SelectionTree} {supply : Nat} {owner : Owner} {name : String}
      {address fragment : Address} (built : Built practice tree supply)
      (named : tree.fragmentNamed? name = some fragment)
      (admitted : practice.admits tree owner fragment)
      (spreads : tree.spread owner name = .ok (address, grown)) : Built practice grown supply
  | declareFragment {tree : SelectionTree} {supply : Nat} (built : Built practice tree supply)
      (name : String) (shape : Shape) :
      Built practice (tree.declareFragment name shape supply).1.2
        (tree.declareFragment name shape supply).2
  | selectMutation {tree grown : SelectionTree} {supply : Nat} {mutation : Mutation}
      {request : Request} {supplied : Option Variables} {address : Address}
      (built : Built practice tree supply)
      (selected : (tree.selectMutation mutation request supplied supply).1 = .ok (address, grown)) :
      Built practice grown (tree.selectMutation mutation request supplied supply).2

/-- Where the fields of a tree stand. -/
structure Placed (tree : SelectionTree) : Prop where
  /-- A listed field is stored and written over the placeholder of its owner; a mutation is
      written over its result and listed at the top. -/
  listed : ∀ {owner : Owner} {address : Address}, address ∈ (tree.ownerFields owner).2 →
    ∃ field context, tree.field? address = some field ∧ tree.ownerContext owner = .ok context ∧
      (field.isMutation = false ∧ field.context = context ∨
        field.isMutation = true ∧ owner = .operation)
  /-- A child is stored after its parent. -/
  increasing : ∀ {parent child : Address}, child ∈ (tree.ownerFields (.field parent)).2 →
    parent.index < child.index

/-- A field that stands right under its owner grows a placed tree into a placed tree. -/
theorem Placed.grow {owner : Owner} {field : Field} {address : Address}
    (placed : tree.Placed) (growth : tree.GrownBy grown owner field address)
    (childless : field.children = [])
    (right : field.isMutation = false ∧ tree.ownerContext owner = .ok field.context ∨
      field.isMutation = true ∧ owner = .operation) : grown.Placed where
  listed := by
    intro other listed inside
    rcases (growth.mem_ownerFields childless).mp inside with before | ⟨rfl, rfl⟩
    · obtain ⟨found, context, stored, owned, standing⟩ := placed.listed before
      obtain ⟨children, after⟩ := growth.stored_after stored
      exact ⟨_, context, after, growth.ownerContext_kept owned, standing⟩
    · obtain ⟨context, owned⟩ := growth.owned
      refine ⟨_, context, growth.field?_new, growth.ownerContext_kept owned, ?_⟩
      rcases right with ⟨plain, above⟩ | top
      · exact .inl ⟨plain, Except.ok.inj (above.symm.trans owned)⟩
      · exact .inr top
  increasing := by
    intro parent child inside
    rcases (growth.mem_ownerFields childless).mp inside with before | ⟨owns, rfl⟩
    · exact placed.increasing before
    · -- The owner of the new field is stored, so its address is below the next one.
      obtain ⟨context, owned⟩ := growth.owned
      rw [← owns] at owned
      cases stored : tree.field? parent with
      | none => simp [ownerContext, stored] at owned
      | some found =>
        rw [growth.next]
        exact Arena.lt_size_of_item? stored

/-- Declaring a fragment appends it, over the next placeholder. -/
theorem declareFragment_eq (tree : SelectionTree) (name : String) (shape : Shape) (supply : Nat) :
    tree.declareFragment name shape supply =
      ((tree.fragments.nextAddress,
        { tree with fragments := tree.fragments.push ⟨name, ⟨supply, name, shape⟩, []⟩ }),
        supply + 1) := rfl

/-- It moves no field. -/
theorem field?_declareFragment (tree : SelectionTree) (name : String) (shape : Shape)
    (supply : Nat) (address : Address) :
    (tree.declareFragment name shape supply).1.2.field? address = tree.field? address := by
  rw [declareFragment_eq]
  unfold field?
  rfl

/-- A declared fragment lists nothing. -/
theorem ownerFields_declareFragment (tree : SelectionTree) (name : String) (shape : Shape)
    (supply : Nat) (owner : Owner) :
    ((tree.declareFragment name shape supply).1.2.ownerFields owner).2 =
      (tree.ownerFields owner).2 := by
  cases owner with
  | operation => rfl
  | field address => rfl
  | fragment address =>
    simp only [declareFragment_eq, ownerFields, fragment?, Arena.item?_push]
    by_cases same : address = tree.fragments.nextAddress
    · subst same
      simp [Arena.item?_nextAddress]
    · simp [same]

/-- The placeholder of an owner stays what it was when a fragment is declared. -/
theorem ownerContext_declareFragment (name : String) (shape : Shape) {owner : Owner}
    {context : Placeholder} (owned : tree.ownerContext owner = .ok context) :
    (tree.declareFragment name shape supply).1.2.ownerContext owner = .ok context := by
  cases owner with
  | operation => exact owned
  | field address => exact owned
  | fragment address =>
    simp only [declareFragment_eq, ownerContext, fragment?, Arena.item?_push] at owned ⊢
    have stored : address ≠ tree.fragments.nextAddress := by
      rintro rfl
      simp [Arena.item?_nextAddress] at owned
    simpa [stored] using owned

/-- Declaring a fragment moves no field. -/
theorem Placed.declareFragment (placed : tree.Placed) (name : String) (shape : Shape)
    (supply : Nat) : (tree.declareFragment name shape supply).1.2.Placed where
  listed := by
    intro owner address inside
    rw [ownerFields_declareFragment] at inside
    obtain ⟨field, context, stored, owned, standing⟩ := placed.listed inside
    refine ⟨field, context, ?_, ownerContext_declareFragment name shape owned, standing⟩
    rw [field?_declareFragment, stored]
  increasing := by
    intro parent child inside
    rw [ownerFields_declareFragment] at inside
    exact placed.increasing inside

/-- A kind that a shape calls for selects neither a fragment nor a mutation. -/
theorem drawKind_plain (name : String) (shape : Shape) (supply : Nat) :
    (∀ fragment, (drawKind name shape supply).1 ≠ .spread fragment) ∧
      ∀ selection, (drawKind name shape supply).1 ≠ .mutation selection := by
  cases shape <;> simp [drawKind, Drawing.run_bind, Drawing.run_pure]

/-- Selecting a field grows the tree by the field that is drawn. -/
theorem select_grownBy {owner : Owner} {definition : FieldDefinition} {request : Request}
    {supplied : Option Variables} {address : Address}
    (selected : (tree.select owner definition request supplied supply).1 = .ok (address, grown)) :
    ∃ context arguments, tree.ownerContext owner = .ok context ∧
      tree.bindArguments definition request supplied = .ok arguments ∧
      tree.GrownBy grown owner (drawSelected definition context arguments supply).1 address ∧
      (tree.select owner definition request supplied supply).2 =
        (drawSelected definition context arguments supply).2 := by
  obtain ⟨context, arguments, stored, owned, bound, inserted, same, after⟩ := select_ok selected
  have growth := grownBy_of_insertField owned inserted
  refine ⟨context, arguments, owned, bound, ?_, after⟩
  rw [same]
  exact { growth with }

/-- Spreading a fragment grows the tree by the spread. -/
theorem spread_grownBy {owner : Owner} {name : String} {address : Address}
    (spreads : tree.spread owner name = .ok (address, grown)) :
    ∃ fragment context, tree.fragmentNamed? name = some fragment ∧
      tree.closesCycle owner fragment = false ∧ tree.ownerContext owner = .ok context ∧
      tree.GrownBy grown owner (spreadField name fragment context) address := by
  obtain ⟨fragment, context, named, passed, owned, inserted⟩ := spread_ok spreads
  exact ⟨fragment, context, named, passed, owned, grownBy_of_insertField owned inserted⟩

/-- Selecting a mutation grows the tree at the top by the field that is drawn. -/
theorem selectMutation_grownBy {mutation : Mutation} {request : Request}
    {supplied : Option Variables} {address : Address}
    (selected : (tree.selectMutation mutation request supplied supply).1 = .ok (address, grown)) :
    tree.GrownBy grown .operation (drawMutation mutation request supplied supply).1 address ∧
      (tree.selectMutation mutation request supplied supply).2 =
        (drawMutation mutation request supplied supply).2 := by
  rw [selectMutation_eq, Drawing.run_map] at selected ⊢
  exact ⟨grownBy_of_insertField rfl selected, rfl⟩

/-- A drawn field selects no mutation. -/
theorem drawSelected_plain (definition : FieldDefinition) (context : Placeholder)
    (arguments : ArgumentSet) (supply : Nat) :
    (drawSelected definition context arguments supply).1.isMutation = false := by
  simp only [drawSelected, Drawing.run_bind, Drawing.run_pure, Field.isMutation]
  split
  · rename_i selection drawn
    exact absurd drawn ((drawKind_plain _ _ _).2 selection)
  · rfl

/-- In a built tree every field stands where its owner lists it. -/
theorem Built.placed (built : Built practice tree supply) : tree.Placed := by
  induction built with
  | start shape supply =>
    constructor
    · intro owner address inside
      cases owner <;> cases inside
    · intro parent child inside
      cases inside
  | later _ _ ih => exact ih
  | select _ _ selected ih =>
    obtain ⟨context, arguments, owned, -, growth, -⟩ := select_grownBy selected
    exact ih.grow growth rfl (.inl ⟨drawSelected_plain _ _ _ _, owned⟩)
  | spread _ _ _ spreads ih =>
    obtain ⟨fragment, context, -, -, owned, growth⟩ := spread_grownBy spreads
    exact ih.grow growth rfl (.inl ⟨rfl, owned⟩)
  | declareFragment _ name shape ih => exact ih.declareFragment name shape _
  | selectMutation _ selected ih =>
    obtain ⟨result, element?, drawn, -⟩ := drawMutation_spec _ _ _ _
    have growth := (selectMutation_grownBy selected).1
    rw [drawn] at growth
    exact ih.grow growth rfl (.inr ⟨rfl, rfl⟩)

/-- A property that does not look at parents and children holds of all fields of a grown tree
    if it held of all fields before and holds of the new one. -/
theorem GrownBy.forall_fields {property : Field → Prop} {owner : Owner} {field : Field}
    {address : Address} (growth : tree.GrownBy grown owner field address)
    (moved : ∀ field parent? children, property field →
      property { field with parent?, children })
    (drawn : property field)
    (before : ∀ address field, tree.field? address = some field → property field) :
    ∀ address field, grown.field? address = some field → property field := by
  intro other found stored
  rcases growth.field?_cases stored with ⟨-, rfl⟩ | ⟨-, old, known, same⟩
  · exact moved field _ field.children drawn
  · rw [same]
    exact moved old old.parent? _ (before other old known)

/-- What every stored field has been given when it was drawn: a property that does not look
    at parents and children holds of all fields of a built tree if it holds of every field
    that an operation draws. -/
theorem Built.forall_fields {property : Field → Prop} (built : Built practice tree supply)
    (moved : ∀ field parent? children, property field →
      property { field with parent?, children })
    (selects : ∀ definition context arguments supply, practice.offers definition →
      property (drawSelected definition context arguments supply).1)
    (spreads : ∀ name fragment context, property (spreadField name fragment context))
    (mutates : ∀ mutation request supplied supply,
      property (drawMutation mutation request supplied supply).1) :
    ∀ address field, tree.field? address = some field → property field := by
  induction built with
  | start shape supply =>
    intro address field stored
    cases stored
  | later _ _ ih => exact ih
  | select _ known selected ih =>
    obtain ⟨context, arguments, -, -, growth, -⟩ := select_grownBy selected
    exact growth.forall_fields moved (selects _ _ _ _ known) ih
  | spread _ _ _ spread ih =>
    obtain ⟨fragment, context, -, -, -, growth⟩ := spread_grownBy spread
    exact growth.forall_fields moved (spreads _ _ _) ih
  | declareFragment _ name shape ih =>
    intro address field stored
    rw [field?_declareFragment] at stored
    exact ih address field stored
  | selectMutation _ selected ih =>
    exact (selectMutation_grownBy selected).1.forall_fields moved (mutates _ _ _ _) ih

/-- A mutation is named after what it calls, reads its result and has no extensions. -/
theorem Built.mutation_drawn (built : Built practice tree supply) {address : Address}
    {field : Field} {selection : MutationSelection} (stored : tree.field? address = some field)
    (kind : field.kind = .mutation selection) :
    field.name = selection.mutation.name ∧ field.expr = .read selection.result ∧
      field.context = selection.result ∧ field.extensions = [] := by
  refine @Built.forall_fields _ _ _ (fun field => ∀ selection, field.kind = .mutation selection →
    field.name = selection.mutation.name ∧ field.expr = .read selection.result ∧
      field.context = selection.result ∧ field.extensions = []) built ?_ ?_ ?_ ?_ address field
    stored selection kind
  · intro field parent? children drawn
    exact drawn
  · intro definition context arguments supply _ selection drawn
    exact absurd drawn ((drawKind_plain _ _ _).2 selection)
  · intro name fragment context selection drawn
    cases drawn
  · intro mutation request supplied supply selection drawn
    obtain ⟨result, element?, same, -⟩ := drawMutation_spec mutation request supplied supply
    rw [same] at drawn ⊢
    cases drawn
    exact ⟨rfl, rfl, rfl, rfl⟩

/-- A mutation is written over its result and has no extensions. -/
theorem Built.mutation_plain (built : Built practice tree supply) {address : Address}
    {field : Field} {selection : MutationSelection} (stored : tree.field? address = some field)
    (kind : field.kind = .mutation selection) :
    field.context = selection.result ∧ field.extensions = [] :=
  (built.mutation_drawn stored kind).2.2

end StagedQuery.SelectionTree
