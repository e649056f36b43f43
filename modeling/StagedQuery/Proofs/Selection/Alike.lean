import StagedQuery.Proofs.Argument.Alike
import StagedQuery.Proofs.Selection.Built

/-!
# Trees that are built with different variables

Two trees are alike if they hold the same fields and fragments and the fields differ at most
in arguments that come from the same variables and that no expression tells apart, and in the
variables that a mutation is called with. Every operation refuses alike trees with the same
fault or makes them grow into alike trees.
-/

namespace StagedQuery

/-! ## Items that correspond -/

/-- Storages that hold corresponding items at the same addresses. -/
structure Arena.Related {α : Type} (related : α → α → Prop) (first second : Arena α) : Prop where
  size : second.size = first.size
  items : ∀ address, first.item? address = none ∧ second.item? address = none ∨
    ∃ item item', first.item? address = some item ∧ second.item? address = some item' ∧
      related item item'

namespace Arena.Related

variable {α : Type} {related : α → α → Prop} {first second : Arena α}

/-- A storage corresponds to itself if every item does. -/
theorem refl (own : ∀ item, related item item) (arena : Arena α) : arena.Related related arena where
  size := rfl
  items address := by
    cases arena.item? address with
    | none => exact .inl ⟨rfl, rfl⟩
    | some item => exact .inr ⟨item, item, rfl, rfl, own item⟩

/-- The next item is stored at the same address. -/
theorem nextAddress (whole : first.Related related second) :
    second.nextAddress = first.nextAddress := by
  simp only [Arena.nextAddress, whole.size]

/-- Corresponding items may be added to both. -/
theorem push (whole : first.Related related second) {item item' : α} (both : related item item') :
    (first.push item).Related related (second.push item') where
  size := by simp only [size_push, whole.size]
  items address := by
    simp only [item?_push, whole.nextAddress]
    split
    · exact .inr ⟨item, item', rfl, rfl, both⟩
    · exact whole.items address

/-- Items that are changed at one address still correspond if the change respects that. -/
theorem update (whole : first.Related related second) (address : Address) {change : α → α}
    (kept : ∀ item item', related item item' → related (change item) (change item')) :
    (first.update address change).Related related (second.update address change) where
  size := by simp only [size_update, whole.size]
  items other := by
    simp only [item?_update]
    split
    · rcases whole.items other with ⟨here, there⟩ | ⟨item, item', here, there, both⟩
      · simp [here, there]
      · exact .inr ⟨change item, change item', by simp [here], by simp [there], kept _ _ both⟩
    · exact whole.items other

end Arena.Related

/-! ## Alike fields -/

/-- Fields that differ at most in arguments that are bound alike and cannot be told apart, and
    in the variables that a mutation is called with. -/
structure Field.Alike (first second : Field) : Prop where
  arguments : first.arguments.SameExprs second.arguments
  bound : first.arguments.Alike second.arguments
  kind : second.kind = first.kind ∨ ∃ selection supplied?, first.kind = .mutation selection ∧
    second.kind = .mutation { selection with supplied? }
  rest : second = { first with arguments := second.arguments, kind := second.kind }

namespace Field.Alike

/-- A field is alike to itself. -/
theorem refl (field : Field) : field.Alike field :=
  ⟨.refl _, .refl _, .inl rfl, rfl⟩

variable {first second : Field} (alike : first.Alike second)
include alike

/-- Alike fields have one name. -/
theorem name_eq : second.name = first.name := by
  rw [alike.rest]

/-- They have one expression, whatever their variables are. -/
theorem expr_eq : second.expr = first.expr := by
  rw [alike.rest]

/-- They list the same children. -/
theorem children_eq : second.children = first.children := by
  rw [alike.rest]

/-- Selections below them are of one element, or neither has a selection. -/
theorem element?_eq : second.element? = first.element? := by
  rcases alike.kind with same | ⟨selection, supplied?, here, there⟩
  · simp only [element?, same]
  · simp only [element?, here, there]

/-- Both call a mutation or neither does. -/
theorem isMutation_eq : second.isMutation = first.isMutation := by
  rcases alike.kind with same | ⟨selection, supplied?, here, there⟩
  · simp only [isMutation, same]
  · simp only [isMutation, here, there]

/-- Both select from a list or neither does. -/
theorem selectsList_eq : SelectionTree.selectsList second = SelectionTree.selectsList first := by
  rcases alike.kind with same | ⟨selection, supplied?, here, there⟩
  · simp only [SelectionTree.selectsList, same]
  · simp only [SelectionTree.selectsList, here, there]

/-- They stay alike with other children in common. -/
theorem withChildren (children : List Address) :
    Alike { first with children } { second with children } :=
  ⟨alike.arguments, alike.bound, alike.kind, by rw [alike.rest]⟩

/-- They stay alike with another parent in common. -/
theorem withParent (parent? : Option Address) :
    Alike { first with parent? } { second with parent? } :=
  ⟨alike.arguments, alike.bound, alike.kind, by rw [alike.rest]⟩

end Field.Alike

/-- A resolver reads arguments only through their expressions. -/
def FieldDefinition.ReadsExprs (definition : FieldDefinition) : Prop :=
  ∀ parent {arguments arguments' : ArgumentSet}, arguments.SameExprs arguments' →
    definition.resolve parent arguments' = definition.resolve parent arguments

/-! ## Alike trees -/

namespace SelectionTree

/-- Trees that differ at most in what the variables are. -/
structure Alike (first second : SelectionTree) : Prop where
  root : second.root = first.root
  variablesSlot : second.variablesSlot = first.variablesSlot
  roots : second.roots = first.roots
  fragments : second.fragments = first.fragments
  fields : first.fields.Related Field.Alike second.fields

/-- A request that binds under a field of either tree is bound alike, to arguments that cannot
    be told apart. -/
theorem bindArguments_alike {first second : SelectionTree}
    (slots : second.variablesSlot = first.variablesSlot) {definition : FieldDefinition}
    {request : Request} {supplied supplied' : Option Variables} {arguments arguments' : ArgumentSet}
    (bound : first.bindArguments definition request supplied = .ok arguments)
    (bound' : second.bindArguments definition request supplied' = .ok arguments') :
    arguments.SameExprs arguments' ∧ arguments.Alike arguments' := by
  obtain ⟨plain, own, rfl⟩ := bindArguments_ok bound
  obtain ⟨plain', own', rfl⟩ := bindArguments_ok bound'
  have alike := ArgumentSet.bind_alike own own'
  rw [slots]
  exact ⟨alike.sameExprs _, alike.sources, alike.values⟩

/-- The same fault, or the same address in alike trees. -/
inductive AlikeResults : Except CompileFault (Address × SelectionTree) →
    Except CompileFault (Address × SelectionTree) → Prop where
  | refused (fault : CompileFault) : AlikeResults (.error fault) (.error fault)
  | grown (address : Address) {first second : SelectionTree} (alike : first.Alike second) :
      AlikeResults (.ok (address, first)) (.ok (address, second))

namespace Alike

variable {first second : SelectionTree}

/-- A tree is alike to itself. -/
theorem refl (tree : SelectionTree) : tree.Alike tree :=
  ⟨rfl, rfl, rfl, rfl, .refl .refl _⟩

/-- The variables that alike trees were built with may be any. -/
theorem withBound (alike : first.Alike second) (bound bound' : Variables) :
    Alike { first with bound } { second with bound := bound' } :=
  ⟨alike.root, alike.variablesSlot, alike.roots, alike.fragments, alike.fields⟩

variable (alike : first.Alike second)
include alike

/-- At one address alike trees hold nothing or alike fields. -/
theorem field?_cases (address : Address) :
    first.field? address = none ∧ second.field? address = none ∨
      ∃ field field', first.field? address = some field ∧ second.field? address = some field' ∧
        field.Alike field' :=
  alike.fields.items address

/-- Alike trees hold the same fragments. -/
theorem fragment?_eq (address : Address) : second.fragment? address = first.fragment? address := by
  simp only [fragment?, alike.fragments]

/-- They name the operation alike. -/
theorem operationName_eq : second.operationName = first.operationName := by
  simp only [operationName, alike.root]

/-- An owner has the same placeholder in both, or is refused by both with one fault. -/
theorem ownerContext_eq (owner : Owner) :
    second.ownerContext owner = first.ownerContext owner := by
  cases owner with
  | operation => simp only [ownerContext, alike.root]
  | fragment address => simp only [ownerContext, alike.fragment?_eq]
  | field address =>
    rcases alike.field?_cases address with ⟨here, there⟩ | ⟨field, field', here, there, both⟩
    · simp only [ownerContext, here, there]
    · simp only [ownerContext, here, there, both.element?_eq, both.name_eq, both.expr_eq]

/-- An owner lists the same fields in both. -/
theorem ownerFields_eq (owner : Owner) : second.ownerFields owner = first.ownerFields owner := by
  cases owner with
  | operation => simp only [ownerFields, alike.operationName_eq, alike.roots]
  | fragment address => simp only [ownerFields, alike.fragment?_eq]
  | field address =>
    rcases alike.field?_cases address with ⟨here, there⟩ | ⟨field, field', here, there, both⟩
    · simp only [ownerFields, here, there]
    · simp only [ownerFields, here, there, both.name_eq, both.children_eq]

/-- They stay alike when both list an address under one owner. -/
theorem attach (owner : Owner) (address : Address) :
    (first.attach owner address).Alike (second.attach owner address) := by
  cases owner with
  | operation =>
    refine ⟨alike.root, alike.variablesSlot, ?_, alike.fragments, alike.fields⟩
    simp only [SelectionTree.attach, alike.roots]
  | field parent =>
    refine ⟨alike.root, alike.variablesSlot, alike.roots, alike.fragments, ?_⟩
    apply alike.fields.update
    intro field field' both
    rw [both.children_eq]
    exact both.withChildren _
  | fragment fragment =>
    refine ⟨alike.root, alike.variablesSlot, alike.roots, ?_, alike.fields⟩
    simp only [SelectionTree.attach, alike.fragments]

/-- Alike fields are stored in alike trees at the same address, or both are refused. -/
theorem insertField (owner : Owner) {field field' : Field} (both : field.Alike field') :
    AlikeResults (first.insertField owner field) (second.insertField owner field') := by
  have names (sibling : Address) : (second.field? sibling).any (·.name = field.name) =
      (first.field? sibling).any (·.name = field.name) := by
    rcases alike.field?_cases sibling with ⟨here, there⟩ | ⟨other, other', here, there, sibling⟩
    · simp only [here, there, Option.any_none]
    · simp only [here, there, Option.any_some, sibling.name_eq]
  simp only [SelectionTree.insertField, alike.ownerFields_eq, both.name_eq, names,
    alike.fields.nextAddress]
  split
  · exact .refused _
  · have stored := both.withParent (Owner.parent? owner)
    rw [both.name_eq] at stored
    refine .grown _ (attach ?_ owner _)
    exact ⟨alike.root, alike.variablesSlot, alike.roots, alike.fragments,
      alike.fields.push stored⟩

/-! ## Operations on alike trees -/

omit alike in
/-- Drawn mutations differ in the variables that they are called with. -/
theorem drawMutation_alike (mutation : Mutation) (request : Request)
    (supplied supplied' : Option Variables) (supply : Nat) :
    (drawMutation mutation request supplied supply).1.Alike
        (drawMutation mutation request supplied' supply).1 ∧
      (drawMutation mutation request supplied' supply).2 =
        (drawMutation mutation request supplied supply).2 := by
  unfold drawMutation
  cases mutation.returns <;> exact ⟨⟨.refl _, .refl _, .inr ⟨_, _, rfl, rfl⟩, rfl⟩, rfl⟩

/-- Spreads lead to the same fragments. -/
theorem reachesWithin_eq (target : Address) (bound : Nat) (start : Address) :
    second.reachesWithin target bound start = first.reachesWithin target bound start := by
  induction bound generalizing start with
  | zero => simp only [reachesWithin]
  | succ bound ih =>
    simp only [reachesWithin, fragmentFields, alike.fragment?_eq]
    refine congrArg (start == target || ·) (congrArg (List.any _) (funext fun address => ?_))
    rcases alike.field?_cases address with ⟨here, there⟩ | ⟨field, field', here, there, both⟩
    · simp only [here, there, Option.map_none]
    · rcases both.kind with same | ⟨selection, supplied?, kind, kind'⟩
      · simp only [here, there, Option.map_some, same, ih]
      · simp only [here, there, Option.map_some, kind, kind']

/-- A fragment is spread in alike trees at the same address, or both spreads are refused. -/
theorem spread (owner : Owner) (name : String) :
    AlikeResults (first.spread owner name) (second.spread owner name) := by
  have cycle (fragment : Address) :
      second.closesCycle owner fragment = first.closesCycle owner fragment := by
    cases owner <;> simp only [closesCycle, reaches, alike.reachesWithin_eq, alike.fragments]
  simp only [SelectionTree.spread, fragmentNamed?, alike.fragments, cycle, alike.ownerContext_eq]
  split
  · exact .refused _
  · split
    · exact .refused _
    · split
      · exact .refused _
      · exact alike.insertField owner (.refl _)

/-- A fragment is declared in alike trees at the same address. -/
theorem declareFragment (name : String) (shape : Shape) (supply : Nat) :
    (first.declareFragment name shape supply).1.2.Alike
      (second.declareFragment name shape supply).1.2 := by
  simp only [declareFragment_eq]
  refine ⟨alike.root, alike.variablesSlot, alike.roots, ?_, alike.fields⟩
  simp only [alike.fragments]

/-- A mutation is selected in alike trees at the same address, or both are refused. -/
theorem selectMutation (mutation : Mutation) (request : Request)
    (supplied supplied' : Option Variables) (supply : Nat) :
    AlikeResults (first.selectMutation mutation request supplied supply).1
        (second.selectMutation mutation request supplied' supply).1 ∧
      (second.selectMutation mutation request supplied' supply).2 =
        (first.selectMutation mutation request supplied supply).2 := by
  simp only [selectMutation_eq, Drawing.run_map]
  obtain ⟨both, same⟩ := drawMutation_alike mutation request supplied supplied' supply
  exact ⟨alike.insertField _ both, same⟩

/-- A field is selected in alike trees at the same address, if the request binds in both and
    the resolver cannot tell the arguments apart. -/
theorem select {owner : Owner} {definition : FieldDefinition} {request : Request}
    (reads : definition.ReadsExprs) {supplied supplied' : Variables} {supply : Nat}
    {address address' : Address} {grown grown' : SelectionTree}
    (selected : (first.select owner definition request supplied supply).1 = .ok (address, grown))
    (selected' : (second.select owner definition request supplied' supply).1 =
      .ok (address', grown')) :
    address' = address ∧ grown.Alike grown' ∧
      (second.select owner definition request supplied' supply).2 =
        (first.select owner definition request supplied supply).2 := by
  obtain ⟨context, arguments, stored, owned, bound, inserted, same, after⟩ := select_ok selected
  obtain ⟨context', arguments', stored', owned', bound', inserted', same', after'⟩ :=
    select_ok selected'
  obtain rfl : context' = context := by
    rw [alike.ownerContext_eq, owned] at owned'
    exact (Except.ok.inj owned').symm
  obtain ⟨exprs, fitted⟩ := bindArguments_alike alike.variablesSlot bound bound'
  have resolved := reads (.read context') exprs
  have both : (drawSelected definition context' arguments supply).1.Alike
      (drawSelected definition context' arguments' supply).1 := by
    simp only [drawSelected, Drawing.run_bind, Drawing.run_pure, resolved]
    exact ⟨exprs, fitted, .inl rfl, rfl⟩
  have drawn : (drawSelected definition context' arguments' supply).2 =
      (drawSelected definition context' arguments supply).2 := by
    simp only [drawSelected, Drawing.run_bind, Drawing.run_pure, resolved]
  have results := alike.insertField owner both
  rw [inserted, inserted'] at results
  cases results with
  | grown address alike =>
    refine ⟨rfl, ?_, by rw [after', after, drawn]⟩
    rw [same, same']
    exact alike.withBound _ _

end Alike

end SelectionTree

end StagedQuery
