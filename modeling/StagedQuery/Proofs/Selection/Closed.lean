import StagedQuery.Proofs.Expr.Chain
import StagedQuery.Proofs.Extension
import StagedQuery.Proofs.Selection.Built

/-!
# Which placeholders the fields of a tree mention

A resolver is closed if its expression reads nothing but the placeholder that it is given
and the variables, and binds only placeholders that it draws itself. It is enough that this
holds over placeholders that were drawn before. In a tree that was built from closed
resolvers every field reads its own context and the variables, and the numbers that it binds
are those of no owner and not that of the variables. So a field can be moved to the
placeholder of any owner without being captured.
-/

namespace StagedQuery

/-- A resolver that mentions only what it is given, the variables and what it draws. -/
structure FieldDefinition.Closed (definition : FieldDefinition) : Prop where
  passed : ∀ expr arguments supply, supply ≤ (definition.resolve expr arguments supply).2
  free : ∀ context arguments slot supply, Extension.ReadsFrom arguments slot →
    ∀ number ∈ (definition.resolve (.read context) arguments supply).1.free,
      number = context.number ∨ number = slot.number
  binds : ∀ context arguments supply,
    (definition.resolve (.read context) arguments supply).1.Binds fun number =>
      supply ≤ number ∧ number < (definition.resolve (.read context) arguments supply).2

/-- A resolver that draws nothing, reads only what it is given and binds nothing is closed. -/
theorem FieldDefinition.closed_ofResolver {name : String} {shape : Shape} {build : Expr → Expr}
    (free : ∀ context, ∀ number ∈ (build (.read context)).free, number = context.number)
    (binds : ∀ context allowed, (build (.read context)).Binds allowed) :
    (FieldDefinition.ofResolver name shape fun parent _ => pure (build parent)).Closed where
  passed _ _ supply := Nat.le_refl supply
  free context _ _ _ _ number inside := .inl (free context number inside)
  binds context _ _ := binds context _

/-- A resolver that reads a member of its parent is closed. -/
theorem FieldDefinition.closed_ofMember (name : String) (shape : Shape) :
    (FieldDefinition.ofMember name shape).Closed := by
  apply closed_ofResolver
  · intro context number inside
    simpa [Expr.free_of_chain? (Expr.chain?_member context name shape)] using inside
  · intro context allowed
    exact Expr.binds_of_chain? (Expr.chain?_member context name shape) allowed

/-- A resolver that takes nothing back that was drawn and binds only what it draws. -/
structure FieldDefinition.BindsOwn (definition : FieldDefinition) : Prop where
  passed : ∀ expr arguments supply, supply ≤ (definition.resolve expr arguments supply).2
  binds : ∀ context arguments supply,
    (definition.resolve (.read context) arguments supply).1.Binds fun number =>
      supply ≤ number ∧ number < (definition.resolve (.read context) arguments supply).2

/-- A context and the placeholder of the variables, two placeholders that were drawn from a
    supply. -/
structure DrawnApart (context slot : Placeholder) (supply : Nat) : Prop where
  contextDrawn : context.number < supply
  slotDrawn : slot.number < supply
  apart : context.number ≠ slot.number

/-- A resolver that is closed where variables are read from one placeholder. -/
structure FieldDefinition.ClosedOver (definition : FieldDefinition) (slot : Placeholder) : Prop
    extends definition.BindsOwn where
  free : ∀ context (plain : ArgumentSet) supply, DrawnApart context slot supply →
    ∀ number ∈ (definition.resolve (.read context) (plain.readVariablesFrom slot) supply).1.free,
      number = context.number ∨ number = slot.number

/-- A closed resolver is closed wherever variables are read from. -/
theorem FieldDefinition.Closed.over {definition : FieldDefinition} (closed : definition.Closed)
    (slot : Placeholder) : definition.ClosedOver slot where
  passed := closed.passed
  binds := closed.binds
  free context plain supply _ := by
    apply closed.free
    simp [Extension.ReadsFrom, ArgumentSet.readVariablesFrom]

/-- A field that reads its own context and the variables and binds neither these nor the
    placeholder of any owner. -/
structure Field.Closed (field : Field) (slot : Placeholder) (owners : Placeholder → Prop)
    (supply : Nat) : Prop where
  free : ∀ number ∈ field.expr.free, number = field.context.number ∨ number = slot.number
  binds : field.expr.Binds fun number =>
    number < supply ∧ number ≠ slot.number ∧ ∀ owner, owners owner → number ≠ owner.number
  reads : Extension.ReadsFrom field.arguments slot

/-- A field that is closed over some owners is closed over fewer. -/
theorem Field.Closed.mono {field : Field} {slot : Placeholder}
    {owners fewer : Placeholder → Prop} {supply : Nat} (closed : field.Closed slot owners supply)
    (within : ∀ owner, fewer owner → owners owner) : field.Closed slot fewer supply where
  free := closed.free
  binds := closed.binds.mono fun _ ⟨below, apart, clear⟩ =>
    ⟨below, apart, fun owner owned => clear owner (within owner owned)⟩
  reads := closed.reads

namespace SelectionTree

variable {practice : Practice} {tree grown : SelectionTree} {supply : Nat}

/-- The placeholders of a tree over which fields are written or could be. -/
inductive Owns (tree : SelectionTree) : Placeholder → Prop where
  | root : Owns tree tree.root
  | context {address : Address} {field : Field} (stored : tree.field? address = some field) :
      Owns tree field.context
  | element {address : Address} {field : Field} {slot : Placeholder}
      (stored : tree.field? address = some field) (selects : field.element? = some slot) :
      Owns tree slot
  | fragment {address : Address} {fragment : Fragment}
      (stored : tree.fragment? address = some fragment) : Owns tree fragment.slot

/-- The fields of a tree are closed, and the numbers of its owners and of its variables are
    apart and below the supply. -/
structure Sealed (tree : SelectionTree) (supply : Nat) : Prop where
  slot : tree.variablesSlot.number < supply
  owners : ∀ owner, tree.Owns owner →
    owner.number < supply ∧ owner.number ≠ tree.variablesSlot.number
  fields : ∀ address field, tree.field? address = some field →
    field.Closed tree.variablesSlot tree.Owns supply

/-- The numbers of the owners and of the variables of a tree are apart and below the supply,
    whatever its fields mention. -/
structure Numbered (tree : SelectionTree) (supply : Nat) : Prop where
  slot : tree.variablesSlot.number < supply
  owners : ∀ owner, tree.Owns owner →
    owner.number < supply ∧ owner.number ≠ tree.variablesSlot.number

/-- The numbers of a sealed tree are. -/
theorem Sealed.numbered (closed : tree.Sealed supply) : tree.Numbered supply :=
  ⟨closed.slot, closed.owners⟩

/-- The placeholder of an owner is among those of the tree. -/
theorem owns_of_ownerContext {owner : Owner} {context : Placeholder}
    (owned : tree.ownerContext owner = .ok context) : tree.Owns context := by
  cases owner with
  | operation =>
    obtain rfl := Except.ok.inj owned
    exact .root
  | field address =>
    simp only [ownerContext] at owned
    cases stored : tree.field? address with
    | none => simp [stored] at owned
    | some field =>
      simp only [stored] at owned
      split at owned
      · rename_i element selects
        obtain rfl := Except.ok.inj owned
        exact .element stored selects
      · cases owned
  | fragment address =>
    simp only [ownerContext] at owned
    cases stored : tree.fragment? address with
    | none => simp [stored] at owned
    | some fragment =>
      simp only [stored] at owned
      obtain rfl := Except.ok.inj owned
      exact .fragment stored

/-- A grown tree has the placeholders of the new field and those that it had. -/
theorem GrownBy.owns_cases {owner : Owner} {field : Field} {address : Address}
    (growth : tree.GrownBy grown owner field address) {slot : Placeholder}
    (owns : grown.Owns slot) :
    tree.Owns slot ∨ slot = field.context ∨ field.element? = some slot := by
  cases owns with
  | root =>
    rw [growth.root]
    exact .inl .root
  | context stored =>
    rcases growth.field?_cases stored with ⟨-, rfl⟩ | ⟨-, before, known, same⟩
    · exact .inr (.inl rfl)
    · have old : tree.Owns before.context := .context known
      rw [same]
      exact .inl old
  | element stored selects =>
    rcases growth.field?_cases stored with ⟨-, rfl⟩ | ⟨-, before, known, same⟩
    · exact .inr (.inr selects)
    · rw [same] at selects
      exact .inl (.element known selects)
  | fragment stored =>
    rw [growth.fragment?] at stored
    obtain ⟨before, known, changed⟩ := Option.map_eq_some_iff.mp stored
    have old : tree.Owns before.slot := .fragment known
    split at changed <;> subst changed <;> exact .inl old

/-- The placeholders of a grown tree are those that it had and new ones, if those of the new
    field are. -/
theorem GrownBy.owns_or_new {owner : Owner} {field : Field} {address : Address} {after : Nat}
    (growth : tree.GrownBy grown owner field address)
    (own : ∀ slot, slot = field.context ∨ field.element? = some slot →
      tree.Owns slot ∨ (supply ≤ slot.number ∧ slot.number < after)) {slot : Placeholder}
    (owns : grown.Owns slot) : tree.Owns slot ∨ (supply ≤ slot.number ∧ slot.number < after) := by
  rcases growth.owns_cases owns with old | new
  · exact .inl old
  · exact own slot new

/-- A field grows a numbered tree into a numbered tree, if its own placeholders are new or were
    owners before. -/
theorem Numbered.grow {owner : Owner} {field : Field} {address : Address} {after : Nat}
    (numbered : tree.Numbered supply) (growth : tree.GrownBy grown owner field address)
    (passed : supply ≤ after)
    (own : ∀ slot, slot = field.context ∨ field.element? = some slot →
      tree.Owns slot ∨ (supply ≤ slot.number ∧ slot.number < after)) :
    grown.Numbered after := by
  have variablesSlot := numbered.slot
  constructor
  · rw [growth.variablesSlot]
    exact Nat.lt_of_lt_of_le variablesSlot passed
  · intro slot owns
    rw [growth.variablesSlot]
    rcases growth.owns_or_new own owns with old | ⟨new, below⟩
    · obtain ⟨below, apart⟩ := numbered.owners slot old
      exact ⟨Nat.lt_of_lt_of_le below passed, apart⟩
    · exact ⟨below, by omega⟩

/-- A closed field grows a sealed tree into a sealed tree, if its own placeholders are new
    or were owners before.

    Proof: the binders of old fields are below the old supply and new placeholders are not,
    so they stay apart; the binders of the new field are apart by assumption. -/
theorem Sealed.grow {owner : Owner} {field : Field} {address : Address} {after : Nat}
    (closed : tree.Sealed supply) (growth : tree.GrownBy grown owner field address)
    (passed : supply ≤ after)
    (own : ∀ slot, slot = field.context ∨ field.element? = some slot →
      tree.Owns slot ∨ (supply ≤ slot.number ∧ slot.number < after))
    (fresh : field.Closed tree.variablesSlot grown.Owns after) : grown.Sealed after := by
  obtain ⟨slotBelow, ownersApart⟩ := closed.numbered.grow growth passed own
  refine ⟨slotBelow, ownersApart, ?_⟩
  intro other found stored
  rw [growth.variablesSlot]
  rcases growth.field?_cases stored with ⟨-, rfl⟩ | ⟨-, before, known, same⟩
  · exact ⟨fresh.free, fresh.binds, fresh.reads⟩
  · obtain ⟨free, binds, reads⟩ := closed.fields other before known
    rw [same]
    refine ⟨free, binds.mono ?_, reads⟩
    rintro number ⟨below, apart, clear⟩
    refine ⟨Nat.lt_of_lt_of_le below passed, apart, ?_⟩
    intro slot owns
    rcases growth.owns_or_new own owns with old | ⟨new, -⟩
    · exact clear slot old
    · omega

/-- A later supply changes no numbers. -/
theorem Numbered.later {after : Nat} (numbered : tree.Numbered supply) (passed : supply ≤ after) :
    tree.Numbered after where
  slot := Nat.lt_of_lt_of_le numbered.slot passed
  owners slot owns :=
    ⟨Nat.lt_of_lt_of_le (numbered.owners slot owns).1 passed, (numbered.owners slot owns).2⟩

/-- A later supply changes nothing. -/
theorem Sealed.later {after : Nat} (closed : tree.Sealed supply) (passed : supply ≤ after) :
    tree.Sealed after := by
  obtain ⟨slotBelow, ownersApart⟩ := closed.numbered.later passed
  refine ⟨slotBelow, ownersApart, ?_⟩
  intro address field stored
  obtain ⟨free, binds, reads⟩ := closed.fields address field stored
  refine ⟨free, binds.mono ?_, reads⟩
  rintro number ⟨below, rest⟩
  exact ⟨Nat.lt_of_lt_of_le below passed, rest⟩

/-- Declaring a fragment adds one owner with the next number. -/
theorem owns_declareFragment {name : String} {shape : Shape} {slot : Placeholder}
    (owns : (tree.declareFragment name shape supply).1.2.Owns slot) :
    tree.Owns slot ∨ slot.number = supply := by
  cases owns with
  | root => exact .inl .root
  | context stored => exact .inl (.context stored)
  | element stored selects => exact .inl (.element stored selects)
  | fragment stored =>
    simp only [declareFragment_eq, fragment?, Arena.item?_push] at stored
    split at stored
    · cases stored
      exact .inr rfl
    · exact .inl (.fragment stored)

/-- So a declaration keeps the numbers apart. -/
theorem Numbered.declareFragment (numbered : tree.Numbered supply) (name : String)
    (shape : Shape) : (tree.declareFragment name shape supply).1.2.Numbered (supply + 1) := by
  have variablesSlot : tree.variablesSlot.number < supply := numbered.slot
  refine ⟨Nat.lt_succ_of_lt variablesSlot, ?_⟩
  intro slot owns
  show slot.number < supply + 1 ∧ slot.number ≠ tree.variablesSlot.number
  rcases owns_declareFragment owns with old | same
  · have bounded := numbered.owners slot old
    omega
  · omega

/-- It seals what was sealed, for the new owner has a number that no field mentions. -/
theorem Sealed.declareFragment (closed : tree.Sealed supply) (name : String) (shape : Shape) :
    (tree.declareFragment name shape supply).1.2.Sealed (supply + 1) := by
  obtain ⟨slotBelow, ownersApart⟩ := closed.numbered.declareFragment name shape
  refine ⟨slotBelow, ownersApart, ?_⟩
  intro address field stored
  obtain ⟨free, binds, reads⟩ := closed.fields address field stored
  refine ⟨free, binds.mono ?_, reads⟩
  rintro number ⟨below, apart, clear⟩
  refine ⟨Nat.lt_succ_of_lt below, apart, ?_⟩
  intro slot owns
  rcases owns_declareFragment owns with old | same
  · exact clear slot old
  · omega

/-! ## Built trees -/

/-- What a selected field holds: the expression of its resolver over the placeholder of its
    owner, the bound arguments, and the next placeholder for its members. -/
theorem drawSelected_spec (definition : FieldDefinition) (context : Placeholder)
    (arguments : ArgumentSet) (supply : Nat) :
    ∃ kind, (drawSelected definition context arguments supply).1 =
        { name := definition.name
          kind
          expr := (definition.resolve (.read context) arguments supply).1
          context
          extensions := definition.extensions
          arguments } ∧
      (definition.resolve (.read context) arguments supply).2 ≤
        (drawSelected definition context arguments supply).2 ∧
      ∀ slot, (drawSelected definition context arguments supply).1.element? = some slot →
        slot.number = (definition.resolve (.read context) arguments supply).2 ∧
        slot.number < (drawSelected definition context arguments supply).2 := by
  refine ⟨_, rfl, ?_⟩
  simp only [drawSelected, Drawing.run_bind, Drawing.run_pure, Field.element?]
  cases definition.shape with
  | any | scalar =>
    refine ⟨Nat.le_refl _, ?_⟩
    intro slot selects
    cases selects
  | list | object =>
    refine ⟨Nat.le_succ _, ?_⟩
    rintro slot ⟨⟩
    exact ⟨rfl, Nat.lt_succ_self _⟩

/-- Without arguments there is nothing to read. -/
theorem readsFrom_empty (slot : Placeholder) : Extension.ReadsFrom .empty slot := by
  intro read reads
  cases reads

/-- A tree without fields is sealed. -/
theorem sealed_drawSelectionTree (shape : Shape) (supply : Nat) :
    (drawSelectionTree shape supply).1.Sealed (drawSelectionTree shape supply).2 := by
  constructor
  · exact Nat.lt_succ_self _
  · intro owner owns
    cases owns with
    | root => exact ⟨Nat.lt_add_of_pos_right Nat.two_pos, Nat.ne_of_lt (Nat.lt_succ_self _)⟩
    | context stored => cases stored
    | element stored => cases stored
    | fragment stored => cases stored
  · intro address field stored
    cases stored

/-- The placeholders of a selected field are that of its owner and a new one, unless its
    resolver takes numbers back. -/
theorem drawSelected_owners {owner : Owner} {definition : FieldDefinition} {context : Placeholder}
    (passed : ∀ expr arguments supply, supply ≤ (definition.resolve expr arguments supply).2)
    (owned : tree.ownerContext owner = .ok context) (arguments : ArgumentSet) (supply : Nat) :
    supply ≤ (drawSelected definition context arguments supply).2 ∧
      ∀ slot, slot = (drawSelected definition context arguments supply).1.context ∨
          (drawSelected definition context arguments supply).1.element? = some slot →
        tree.Owns slot ∨ (supply ≤ slot.number ∧
          slot.number < (drawSelected definition context arguments supply).2) := by
  obtain ⟨kind, drawn, later, element⟩ := drawSelected_spec definition context arguments supply
  have start := passed (.read context) arguments supply
  refine ⟨Nat.le_trans start later, ?_⟩
  rintro slot (same | selects)
  · rw [drawn] at same
    exact .inl (same ▸ owns_of_ownerContext owned)
  · obtain ⟨same, below⟩ := element slot selects
    exact .inr ⟨by omega, below⟩

/-- Selecting a field with a closed resolver keeps a tree sealed: the resolver draws what it
    binds before the placeholder for the members is drawn, and both after all owners that the
    tree had. -/
theorem Sealed.select {owner : Owner} {definition : FieldDefinition} {request : Request}
    {supplied : Option Variables} {address : Address} (before : tree.Sealed supply)
    (closed : definition.ClosedOver tree.variablesSlot)
    (selected : (tree.select owner definition request supplied supply).1 = .ok (address, grown)) :
    grown.Sealed (tree.select owner definition request supplied supply).2 := by
  obtain ⟨context, arguments, owned, bound, growth, after⟩ := select_grownBy selected
  obtain ⟨plain, -, rfl⟩ := bindArguments_ok bound
  let arguments := plain.readVariablesFrom tree.variablesSlot
  obtain ⟨kind, drawn, passed, element⟩ := drawSelected_spec definition context arguments supply
  obtain ⟨later, own⟩ := drawSelected_owners closed.passed owned arguments supply
  have old : tree.Owns context := owns_of_ownerContext owned
  have bounded := before.owners context old
  have binds := closed.binds context arguments supply
  have reads : Extension.ReadsFrom arguments tree.variablesSlot := by
    simp [Extension.ReadsFrom, arguments, ArgumentSet.readVariablesFrom]
  rw [after]
  apply before.grow growth later own
  rw [drawn]
  refine ⟨closed.free context plain supply ⟨bounded.1, before.slot, bounded.2⟩, binds.mono ?_,
    reads⟩
  rintro number ⟨new, below⟩
  have variablesSlot := before.slot
  refine ⟨by omega, by omega, ?_⟩
  intro slot owns
  rcases growth.owns_cases owns with earlier | rfl | selects
  · have bounded := (before.owners slot earlier).1
    omega
  · have bounded := (before.owners _ old).1
    omega
  · have same := (element slot selects).1
    omega

/-- The only placeholder of a spread is that of its owner. -/
theorem spreadField_owners {owner : Owner} {context : Placeholder}
    (owned : tree.ownerContext owner = .ok context) (name : String) (fragment : Address)
    (supply after : Nat) (slot : Placeholder)
    (own : slot = (spreadField name fragment context).context ∨
      (spreadField name fragment context).element? = some slot) :
    tree.Owns slot ∨ (supply ≤ slot.number ∧ slot.number < after) := by
  rcases own with rfl | selects
  · exact .inl (owns_of_ownerContext owned)
  · cases selects

/-- A spread reads the placeholder of its owner and draws nothing. -/
theorem Sealed.spread {owner : Owner} {name : String} {address : Address}
    (before : tree.Sealed supply) (spreads : tree.spread owner name = .ok (address, grown)) :
    grown.Sealed supply := by
  obtain ⟨found, context, -, -, owned, growth⟩ := spread_grownBy spreads
  apply before.grow growth (Nat.le_refl _) (spreadField_owners owned name found _ _)
  exact ⟨by simp [spreadField, Expr.free], Expr.binds_read _ _, readsFrom_empty _⟩

/-- The placeholders of a drawn mutation are new. -/
theorem drawMutation_owners (mutation : Mutation) (request : Request)
    (supplied : Option Variables) (supply : Nat) :
    supply ≤ (drawMutation mutation request supplied supply).2 ∧
      ∀ slot, slot = (drawMutation mutation request supplied supply).1.context ∨
          (drawMutation mutation request supplied supply).1.element? = some slot →
        supply ≤ slot.number ∧
          slot.number < (drawMutation mutation request supplied supply).2 := by
  obtain ⟨result, element?, drawn, first, second, passed⟩ :=
    drawMutation_spec mutation request supplied supply
  rw [drawn, passed]
  refine ⟨by omega, ?_⟩
  rintro slot (rfl | selects)
  · simp only [first]
    omega
  · have next := second slot selects
    simp only [Field.element?] at selects
    rw [selects]
    simp only [Option.isSome_some, ↓reduceIte]
    omega

/-- A mutation reads its result, a placeholder that it draws itself. -/
theorem Sealed.selectMutation {mutation : Mutation} {request : Request}
    {supplied : Option Variables} {address : Address} (before : tree.Sealed supply)
    (selected : (tree.selectMutation mutation request supplied supply).1 = .ok (address, grown)) :
    grown.Sealed (tree.selectMutation mutation request supplied supply).2 := by
  obtain ⟨growth, after⟩ := selectMutation_grownBy selected
  obtain ⟨later, own⟩ := drawMutation_owners mutation request supplied supply
  obtain ⟨result, element?, drawn, -⟩ := drawMutation_spec mutation request supplied supply
  rw [after]
  apply before.grow growth later (fun slot new => .inr (own slot new))
  rw [drawn]
  exact ⟨by simp [Expr.free], Expr.binds_read _ _, readsFrom_empty _⟩

/-- Trees that are built from resolvers that take no numbers back are numbered. -/
theorem Built.isNumbered (built : tree.Built practice supply)
    (passed : ∀ definition, practice.offers definition → ∀ expr arguments supply,
      supply ≤ (definition.resolve expr arguments supply).2) : tree.Numbered supply := by
  induction built with
  | start shape supply => exact (sealed_drawSelectionTree shape supply).numbered
  | later _ enough ih => exact ih.later enough
  | select _ known selected ih =>
    obtain ⟨context, arguments, owned, -, growth, after⟩ := select_grownBy selected
    obtain ⟨later, own⟩ := drawSelected_owners (passed _ known) owned arguments _
    rw [after]
    exact ih.grow growth later own
  | spread _ _ _ spreads ih =>
    obtain ⟨fragment, context, -, -, owned, growth⟩ := spread_grownBy spreads
    exact ih.grow growth (Nat.le_refl _) (spreadField_owners owned _ fragment _ _)
  | declareFragment _ name shape ih => exact ih.declareFragment name shape
  | selectMutation _ selected ih =>
    obtain ⟨growth, after⟩ := selectMutation_grownBy selected
    obtain ⟨later, own⟩ := drawMutation_owners _ _ _ _
    rw [after]
    exact ih.grow growth later fun slot new => .inr (own slot new)

/-- Trees that are built from resolvers that are closed where the tree reads its variables are
    sealed. -/
theorem Built.isSealed_of_closedOver (built : tree.Built practice supply)
    (offers : ∀ definition, practice.offers definition →
      definition.ClosedOver tree.variablesSlot) : tree.Sealed supply := by
  induction built with
  | start shape supply => exact sealed_drawSelectionTree shape supply
  | later _ passed ih => exact (ih offers).later passed
  | select _ known selected ih =>
    obtain ⟨context, arguments, -, -, growth, -⟩ := select_grownBy selected
    rw [growth.variablesSlot] at offers
    exact (ih offers).select (offers _ known) selected
  | spread _ _ _ spreads ih =>
    obtain ⟨fragment, context, -, -, -, growth⟩ := spread_grownBy spreads
    rw [growth.variablesSlot] at offers
    exact (ih offers).spread spreads
  | declareFragment _ name shape ih => exact (ih offers).declareFragment name shape
  | selectMutation _ selected ih =>
    have growth := (selectMutation_grownBy selected).1
    rw [growth.variablesSlot] at offers
    exact (ih offers).selectMutation selected

/-- Trees that are built from closed resolvers are sealed. -/
theorem Built.isSealed (built : tree.Built practice supply)
    (offers : ∀ definition, practice.offers definition → definition.Closed) :
    tree.Sealed supply :=
  built.isSealed_of_closedOver fun definition known => (offers definition known).over _

end SelectionTree

end StagedQuery
