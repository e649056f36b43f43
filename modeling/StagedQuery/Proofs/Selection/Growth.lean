import StagedQuery.Selection.Outline
import StagedQuery.Proofs.Drawing

/-!
# How a selection tree grows

Storing a field adds one item to the arena and one address to one owner. Every other
field and fragment stays as it was, and so does the placeholder of every owner that the
tree had before. The operations that grow a tree are taken apart here into what they
check, what they draw and the field that they store.
-/

namespace StagedQuery

namespace Arena

variable {α : Type}

/-- A change of one item leaves all others as they are. -/
theorem item?_update (arena : Arena α) (address other : Address) (change : α → α) :
    (arena.update address change).item? other =
      if other = address then (arena.item? other).map change else arena.item? other := by
  obtain ⟨index⟩ := address
  obtain ⟨wanted⟩ := other
  simp only [item?, update, Address.mk.injEq]
  rw [Array.getElem?_modify]
  by_cases same : index = wanted
  · simp [same]
  · simp [same, Ne.symm same]

/-- A new item is stored at the next address, and what was stored stays. -/
theorem item?_push (arena : Arena α) (item : α) (address : Address) :
    (arena.push item).item? address =
      if address = arena.nextAddress then some item else arena.item? address := by
  obtain ⟨index⟩ := address
  simp only [item?, push, nextAddress, size, Address.mk.injEq]
  rw [Array.getElem?_push]

/-- No item is stored at the address that the next item will have. -/
theorem item?_nextAddress (arena : Arena α) : arena.item? arena.nextAddress = none := by
  simp [item?, nextAddress, size]

/-- Items are stored at addresses below the size. -/
theorem lt_size_of_item? {arena : Arena α} {address : Address} {item : α}
    (stored : arena.item? address = some item) : address.index < arena.size := by
  simp only [item?] at stored
  exact (Array.getElem?_eq_some_iff.mp stored).1

end Arena

namespace SelectionTree

variable {tree grown : SelectionTree} {owner : Owner} {field : Field} {address : Address}

/-! ## Storing a field -/

/-- A tree that has grown by one field, stored at the next address and listed under an
    owner. -/
structure GrownBy (tree grown : SelectionTree) (owner : Owner) (field : Field)
    (address : Address) : Prop where
  owned : ∃ context, tree.ownerContext owner = .ok context
  next : address = tree.fields.nextAddress
  root : grown.root = tree.root
  variablesSlot : grown.variablesSlot = tree.variablesSlot
  roots : grown.roots = tree.roots ++ if owner = .operation then [address] else []
  field?_new : grown.field? address = some { field with parent? := Owner.parent? owner }
  field?_old : ∀ other, other ≠ address → grown.field? other =
    (tree.field? other).map fun found =>
      if owner = .field other then { found with children := found.children ++ [address] }
      else found
  fragment? : ∀ other, grown.fragment? other =
    (tree.fragment? other).map fun found =>
      if owner = .fragment other then { found with fields := found.fields ++ [address] }
      else found

/-- An owner with a placeholder is not the address of the next field. -/
theorem owner_ne_next {context : Placeholder} (owned : tree.ownerContext owner = .ok context) :
    owner ≠ .field tree.fields.nextAddress := by
  rintro rfl
  simp [ownerContext, field?, Arena.item?_nextAddress] at owned

/-- Inserting a field under an owner that can have fields grows the tree by that field. -/
theorem grownBy_of_insertField {context : Placeholder}
    (owned : tree.ownerContext owner = .ok context)
    (inserted : tree.insertField owner field = .ok (address, grown)) :
    tree.GrownBy grown owner field address := by
  simp only [insertField] at inserted
  split at inserted
  · cases inserted
  · simp only [Except.ok.injEq, Prod.mk.injEq] at inserted
    obtain ⟨rfl, rfl⟩ := inserted
    have apart := owner_ne_next owned
    cases owner with
    | operation =>
      refine ⟨⟨context, owned⟩, rfl, rfl, rfl, by simp [attach], by simp [attach, field?], ?_,
        by simp [attach, fragment?]⟩
      intro other different
      simp [attach, field?, Arena.item?_push, different]
    | field parent =>
      have different : tree.fields.nextAddress ≠ parent := fun same => apart (by rw [same])
      refine ⟨⟨context, owned⟩, rfl, rfl, rfl, by simp [attach], ?_, ?_,
        by simp [attach, fragment?]⟩
      · simp [attach, field?, Arena.item?_update, different]
      · intro other fresh
        by_cases same : other = parent
        · subst same
          simp [attach, field?, Arena.item?_update, Arena.item?_push, fresh]
        · simp [attach, field?, Arena.item?_update, Arena.item?_push, fresh, same, Ne.symm same]
    | fragment spreading =>
      refine ⟨⟨context, owned⟩, rfl, rfl, rfl, by simp [attach], by simp [attach, field?], ?_, ?_⟩
      · intro other fresh
        simp [attach, field?, Arena.item?_push, fresh]
      · intro other
        by_cases same : other = spreading
        · subst same
          simp [attach, fragment?, Arena.item?_update]
        · simp [attach, fragment?, Arena.item?_update, same, Ne.symm same]

/-- Storing a field leaves the variables of the tree as they are. -/
theorem bound_insertField (inserted : tree.insertField owner field = .ok (address, grown)) :
    grown.bound = tree.bound := by
  simp only [insertField] at inserted
  split at inserted <;> cases inserted
  cases owner <;> rfl

namespace GrownBy

variable (growth : tree.GrownBy grown owner field address)
include growth

/-- The new address held no field before. -/
theorem field?_before : tree.field? address = none := by
  rw [growth.next]
  exact Arena.item?_nextAddress _

/-- A stored field has another address than the new one. -/
theorem ne_of_stored {other : Address} {found : Field} (stored : tree.field? other = some found) :
    other ≠ address := by
  rintro rfl
  simp [growth.field?_before] at stored

/-- A field that was stored before keeps everything but its children. -/
theorem stored_after {other : Address} {found : Field} (stored : tree.field? other = some found) :
    ∃ children, grown.field? other = some { found with children } := by
  rw [growth.field?_old other (growth.ne_of_stored stored), stored, Option.map_some]
  split
  · exact ⟨_, rfl⟩
  · exact ⟨found.children, rfl⟩

/-- Any field of the grown tree is the new one or was there before. -/
theorem field?_cases {other : Address} {found : Field} (stored : grown.field? other = some found) :
    (other = address ∧ found = { field with parent? := Owner.parent? owner }) ∨
      (other ≠ address ∧ ∃ before, tree.field? other = some before ∧
        found = { before with children := found.children }) := by
  by_cases same : other = address
  · subst same
    rw [growth.field?_new] at stored
    exact .inl ⟨rfl, (Option.some.inj stored).symm⟩
  · rw [growth.field?_old other same] at stored
    obtain ⟨before, known, changed⟩ := Option.map_eq_some_iff.mp stored
    refine .inr ⟨same, before, known, ?_⟩
    split at changed <;> subst changed <;> rfl

/-- The owner is not the new address. -/
theorem owner_ne : owner ≠ .field address := by
  obtain ⟨context, owned⟩ := growth.owned
  rw [growth.next]
  exact owner_ne_next owned

/-- An owner lists what it listed before, and last the new address if it is its owner. -/
theorem ownerFields_eq (childless : field.children = []) (other : Owner) :
    (grown.ownerFields other).2 =
      (tree.ownerFields other).2 ++ if other = owner then [address] else [] := by
  have apart := growth.owner_ne
  obtain ⟨context, owned⟩ := growth.owned
  cases other with
  | operation =>
    simp only [ownerFields, growth.roots, eq_comm (a := Owner.operation)]
  | field parent =>
    by_cases same : parent = address
    · subst same
      simp [ownerFields, growth.field?_new, growth.field?_before, childless, Ne.symm apart]
    · simp only [ownerFields, growth.field?_old parent same]
      by_cases owns : owner = .field parent
      · subst owns
        cases stored : tree.field? parent with
        | none => simp [ownerContext, stored] at owned
        | some found => simp
      · cases tree.field? parent <;> simp [owns, Ne.symm owns]
  | fragment spreading =>
    simp only [ownerFields, growth.fragment? spreading]
    by_cases owns : owner = .fragment spreading
    · subst owns
      cases stored : tree.fragment? spreading with
      | none => simp [ownerContext, stored] at owned
      | some found => simp
    · cases tree.fragment? spreading <;> simp [owns, Ne.symm owns]

/-- An owner lists what it listed before, and the new address if it is its owner. -/
theorem mem_ownerFields (childless : field.children = []) {other : Owner} {listed : Address} :
    listed ∈ (grown.ownerFields other).2 ↔
      listed ∈ (tree.ownerFields other).2 ∨ (other = owner ∧ listed = address) := by
  rw [growth.ownerFields_eq childless, List.mem_append]
  split <;> simp [*]

/-- The placeholder of an owner stays what it was. -/
theorem ownerContext_kept {other : Owner} {context : Placeholder}
    (before : tree.ownerContext other = .ok context) : grown.ownerContext other = .ok context := by
  cases other with
  | operation =>
    simp only [ownerContext] at before ⊢
    rw [growth.root, before]
  | field parent =>
    simp only [ownerContext] at before
    cases stored : tree.field? parent with
    | none => simp [stored] at before
    | some found =>
      obtain ⟨children, after⟩ := growth.stored_after stored
      simp only [ownerContext, after]
      simpa [stored, Field.element?] using before
  | fragment spreading =>
    simp only [ownerContext, growth.fragment? spreading] at before ⊢
    cases stored : tree.fragment? spreading with
    | none => simp [stored] at before
    | some found =>
      simp only [stored, Option.map_some] at before ⊢
      split <;> exact before

end GrownBy

/-! ## Taking the operations apart -/

/-- The arguments of a selected field are bound and read the variables of the tree. -/
theorem bindArguments_ok {definition : FieldDefinition} {request : Request}
    {supplied : Option Variables} {arguments : ArgumentSet}
    (bound : tree.bindArguments definition request supplied = .ok arguments) :
    ∃ plain, ArgumentSet.bind definition.name definition.bindings request supplied = .ok plain ∧
      arguments = plain.readVariablesFrom tree.variablesSlot := by
  unfold bindArguments at bound
  cases made : ArgumentSet.bind definition.name definition.bindings request supplied with
  | error fault => simp [made, Bind.bind, Except.bind] at bound
  | ok plain =>
    simp only [made, Bind.bind, Except.bind] at bound
    split at bound
    · cases bound
    · cases bound
      exact ⟨plain, rfl, rfl⟩

/-- Every extension of a field accepts the arguments that are bound for it. -/
theorem accepted_of_bindArguments {definition : FieldDefinition} {request : Request}
    {supplied : Option Variables} {arguments : ArgumentSet}
    (bound : tree.bindArguments definition request supplied = .ok arguments) :
    ∀ extension ∈ definition.extensions,
      extension.validate definition.name arguments = .ok () := by
  have each (extensions : List Extension)
      (fine : (extensions.forM fun extension => extension.validate definition.name arguments) =
        .ok ()) :
      ∀ extension ∈ extensions, extension.validate definition.name arguments = .ok () := by
    induction extensions with
    | nil => simp
    | cons first rest ih =>
      simp only [List.forM, Bind.bind, Except.bind] at fine
      split at fine
      · cases fine
      · rename_i own
        exact List.forall_mem_cons.mpr ⟨own, ih fine⟩
  unfold bindArguments at bound
  cases made : ArgumentSet.bind definition.name definition.bindings request supplied with
  | error fault => simp [made, Bind.bind, Except.bind] at bound
  | ok plain =>
    simp only [made, Bind.bind, Except.bind] at bound
    split at bound
    · cases bound
    · rename_i fine
      cases bound
      exact each _ fine

/-- What selecting a field stores: its expression over the placeholder of its owner, as
    the resolver draws it, and then a placeholder for its members. -/
def drawSelected (field : FieldDefinition) (context : Placeholder) (arguments : ArgumentSet) :
    Drawing Field := do
  let expr ← field.resolve (.read context) arguments
  let kind ← drawKind field.name field.shape
  pure { name := field.name, kind, expr, context, extensions := field.extensions, arguments }

/-- Selecting a field draws the field and stores it; a tree that is grown differs from the
    tree with the stored field in its variables only, to which those that are supplied are
    added. -/
theorem select_ok {definition : FieldDefinition} {request : Request} {supplied : Option Variables}
    {supply : Nat}
    (selected : (tree.select owner definition request supplied supply).1 = .ok (address, grown)) :
    ∃ context arguments stored, tree.ownerContext owner = .ok context ∧
      tree.bindArguments definition request supplied = .ok arguments ∧
      tree.insertField owner (drawSelected definition context arguments supply).1
        = .ok (address, stored) ∧
      grown = { stored with bound := (supplied.map stored.bound.merge).getD stored.bound } ∧
      (tree.select owner definition request supplied supply).2
        = (drawSelected definition context arguments supply).2 := by
  unfold select at selected ⊢
  cases owned : tree.ownerContext owner with
  | error fault => simp [owned, Drawing.run_pure] at selected
  | ok context =>
    cases bound : tree.bindArguments definition request supplied with
    | error fault => simp [owned, bound, Drawing.run_pure] at selected
    | ok arguments =>
      simp only [owned, bound, Drawing.run_bind, Drawing.run_pure] at selected ⊢
      cases inserted :
          tree.insertField owner (drawSelected definition context arguments supply).1 with
      | error fault =>
        simp only [drawSelected, Drawing.run_bind, Drawing.run_pure] at inserted
        simp [inserted, Except.map] at selected
      | ok pair =>
        obtain ⟨place, stored⟩ := pair
        have kept := inserted
        simp only [drawSelected, Drawing.run_bind, Drawing.run_pure] at inserted
        simp only [inserted, Except.map, Except.ok.injEq, Prod.mk.injEq] at selected
        obtain ⟨rfl, rfl⟩ := selected
        refine ⟨context, arguments, stored, rfl, rfl, kept, ?_, rfl⟩
        cases supplied <;> rfl

/-- The field that a spread stores. -/
def spreadField (name : String) (fragment : Address) (context : Placeholder) : Field :=
  { name := "..." ++ name, kind := .spread fragment, expr := .read context, context }

/-- A spread is stored if its fragment is declared and the check for cycles passes it. -/
theorem spread_ok {name : String} (spreads : tree.spread owner name = .ok (address, grown)) :
    ∃ fragment context, tree.fragmentNamed? name = some fragment ∧
      tree.closesCycle owner fragment = false ∧ tree.ownerContext owner = .ok context ∧
      tree.insertField owner (spreadField name fragment context) = .ok (address, grown) := by
  unfold spread at spreads
  cases named : tree.fragmentNamed? name with
  | none => simp [named] at spreads
  | some fragment =>
    simp only [named] at spreads
    split at spreads
    · cases spreads
    · rename_i passed
      cases owned : tree.ownerContext owner with
      | error fault => simp [owned] at spreads
      | ok context =>
        simp only [owned] at spreads
        exact ⟨fragment, context, rfl, by simpa using passed, rfl, spreads⟩

/-- What selecting a mutation stores: a read of its result, and a placeholder for the
    members of the result if it has any. -/
def drawMutation (mutation : Mutation) (request : Request) (supplied : Option Variables) :
    Drawing Field := do
  let result ← drawPlaceholder mutation.name mutation.returns
  let element? ← match mutation.returns with
    | .list element => some <$> drawPlaceholder mutation.name element
    | .object title members => some <$> drawPlaceholder mutation.name (.object title members)
    | .scalar _ => pure none
    | .any => pure none
  pure { name := mutation.name
         kind := .mutation ⟨mutation, request, supplied, result, element?⟩
         expr := .read result
         context := result }

/-- A drawn mutation reads its result, the first placeholder drawn; a placeholder for the
    members is the second. -/
theorem drawMutation_spec (mutation : Mutation) (request : Request) (supplied : Option Variables)
    (supply : Nat) :
    ∃ result element?, (drawMutation mutation request supplied supply).1 =
        { name := mutation.name
          kind := .mutation ⟨mutation, request, supplied, result, element?⟩
          expr := .read result
          context := result } ∧
      result.number = supply ∧ (∀ element ∈ element?, element.number = supply + 1) ∧
      (drawMutation mutation request supplied supply).2 =
        supply + 1 + (if element?.isSome then 1 else 0) := by
  unfold drawMutation
  cases mutation.returns with
  | list element => exact ⟨_, some ⟨supply + 1, _, _⟩, rfl, rfl, by simp, rfl⟩
  | object title members => exact ⟨_, some ⟨supply + 1, _, _⟩, rfl, rfl, by simp, rfl⟩
  | scalar kind => exact ⟨_, none, rfl, rfl, nofun, rfl⟩
  | any => exact ⟨_, none, rfl, rfl, nofun, rfl⟩

/-- Selecting a mutation draws the field and stores it at the top. -/
theorem selectMutation_eq (tree : SelectionTree) (mutation : Mutation) (request : Request)
    (supplied : Option Variables) :
    tree.selectMutation mutation request supplied =
      tree.insertField .operation <$> drawMutation mutation request supplied := by
  unfold selectMutation drawMutation
  cases mutation.returns <;> rfl

end SelectionTree

end StagedQuery
