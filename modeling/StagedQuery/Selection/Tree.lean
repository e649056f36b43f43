import StagedQuery.Arena
import StagedQuery.Expr.Chain
import StagedQuery.Mutation.Invocation
import StagedQuery.Selection.Definition

/-!
# Selection trees

The requested output of one operation. Fields are stored in an arena and refer to
their children by address. The expression of a field is written over the
placeholder of its owner: the root of the operation, the item of an enclosing
object or list field, or the placeholder of a fragment.

A tree grows by four operations: selecting a field, spreading a fragment,
declaring a fragment and selecting a mutation. Each of them either fails and
leaves the tree as it was or adds one field to one list (a declaration adds one
fragment without fields).

Spreads placed directly in fragments never close a cycle. A spread placed in a
field below a fragment is not checked against that fragment.
-/

namespace StagedQuery

/-- A selected mutation: the call, and the placeholders of its result and of the members
    of its result. -/
structure MutationSelection where
  mutation : Mutation
  request : Request
  supplied? : Option Variables
  result : Placeholder
  element? : Option Placeholder

/-- What kind of field is selected. -/
inductive FieldKind where
  | scalar
  /-- Children are written over the placeholder, bound to the value of the field. -/
  | object (element : Placeholder)
  /-- Children are written over the placeholder, bound to each item. -/
  | list (element : Placeholder)
  | spread (fragment : Address)
  | mutation (selection : MutationSelection)

/-- A selected field. -/
structure Field where
  name : String
  kind : FieldKind
  /-- The value of the field over its context. -/
  expr : Expr
  context : Placeholder
  extensions : List Extension := []
  arguments : ArgumentSet := .empty
  parent? : Option Address := none
  children : List Address := []

namespace Field

/-- The placeholder over which the children of a field are written. -/
def element? (field : Field) : Option Placeholder :=
  match field.kind with
  | .object element => some element
  | .list element => some element
  | .mutation selection => selection.element?
  | .scalar => none
  | .spread _ => none

/-- The capabilities that the field's own expression calls. -/
def services (field : Field) : List Capability :=
  field.expr.capabilities

/-- Whether the field's own expression calls a service. -/
def callsService (field : Field) : Bool :=
  !field.services.isEmpty

/-- The chains over the context from which the field's services are fed. -/
def extracted? (field : Field) : Option (Members Expr) :=
  field.expr.extract? field.context

/-- Whether a field selects a mutation. -/
def isMutation (field : Field) : Bool :=
  match field.kind with
  | .mutation _ => true
  | _ => false

end Field

/-- A named fragment with the placeholder over which its fields are written. -/
structure Fragment where
  name : String
  slot : Placeholder
  fields : List Address := []

/-- Where a field is attached. -/
inductive Owner where
  | operation
  | field (address : Address)
  | fragment (address : Address)
  deriving DecidableEq, Repr

/-- The requested output of one operation. -/
structure SelectionTree where
  /-- The placeholder of the operation's root value. -/
  root : Placeholder
  /-- The placeholder of the document variables. -/
  variablesSlot : Placeholder
  /-- The variables met while the tree was built. -/
  bound : Variables
  fields : Arena Field
  roots : List Address
  fragments : Arena Fragment

/-- An operation over a root value of some shape that selects nothing yet. -/
def drawSelectionTree (shape : Shape) : Drawing SelectionTree := do
  let root ← drawPlaceholder "ctx" shape
  let variablesSlot ← drawPlaceholder "vars" .any
  pure ⟨root, variablesSlot, .empty, .empty, [], .empty⟩

namespace SelectionTree

/-- The field at an address. -/
def field? (tree : SelectionTree) (address : Address) : Option Field :=
  tree.fields.item? address

/-- The fragment at an address. -/
def fragment? (tree : SelectionTree) (address : Address) : Option Fragment :=
  tree.fragments.item? address

/-- The first fragment of a name. -/
def fragmentNamed? (tree : SelectionTree) (name : String) : Option Address :=
  (tree.fragments.entries.find? (·.2.name = name)).map Prod.fst

/-- The fields of a fragment. -/
def fragmentFields (tree : SelectionTree) (fragment : Address) : List Address :=
  ((tree.fragment? fragment).map Fragment.fields).getD []

/-- The name of the operation's root type. -/
def operationName (tree : SelectionTree) : String :=
  tree.root.shape.objectName?.getD "Query"

/-- The fields at the top that are no mutations. -/
def queryRoots (tree : SelectionTree) : List Address :=
  tree.roots.filter fun address => !(tree.field? address).any Field.isMutation

/-- The placeholder over which the fields of an owner are written. A field without
    members cannot own fields, and neither can an address that the tree does not hold. -/
def ownerContext (tree : SelectionTree) : Owner → Except CompileFault Placeholder
  | .operation => .ok tree.root
  | .fragment address =>
    match tree.fragment? address with
    | some fragment => .ok fragment.slot
    | none => .error (.unknownFragment address.text)
  | .field address =>
    match tree.field? address with
    | some field =>
      match field.element? with
      | some element => .ok element
      | none => .error (.notSelectable field.name field.expr.shape.text)
    | none => .error (.notSelectable address.text Shape.any.text)

/-- The name of an owner and the fields that it has. -/
def ownerFields (tree : SelectionTree) : Owner → String × List Address
  | .operation => (tree.operationName, tree.roots)
  | .field address =>
    match tree.field? address with
    | some field => (field.name, field.children)
    | none => (address.text, [])
  | .fragment address =>
    match tree.fragment? address with
    | some fragment => (fragment.name, fragment.fields)
    | none => (address.text, [])

/-- The address of the field that an owner stands for. -/
def Owner.parent? : Owner → Option Address
  | .field address => some address
  | _ => none

/-- Appends an address to the fields of an owner. -/
def attach (tree : SelectionTree) (owner : Owner) (address : Address) : SelectionTree :=
  match owner with
  | .operation => { tree with roots := tree.roots ++ [address] }
  | .field parent =>
    { tree with fields := tree.fields.update parent fun field =>
        { field with children := field.children ++ [address] } }
  | .fragment fragment =>
    { tree with fragments := tree.fragments.update fragment fun found =>
        { found with fields := found.fields ++ [address] } }

/-- Stores a field under an owner, unless the owner has a field of that name. -/
def insertField (tree : SelectionTree) (owner : Owner) (field : Field) :
    Except CompileFault (Address × SelectionTree) :=
  let (parent, siblings) := tree.ownerFields owner
  if siblings.any fun sibling => (tree.field? sibling).any (·.name = field.name) then
    .error (.duplicateField parent field.name)
  else
    let address := tree.fields.nextAddress
    let stored :=
      { tree with fields := tree.fields.push { field with parent? := Owner.parent? owner } }
    .ok (address, stored.attach owner address)

/-- The kind of field that a shape calls for. -/
def drawKind (name : String) : Shape → Drawing FieldKind
  | .list element => return .list (← drawPlaceholder name element)
  | .object title members => return .object (← drawPlaceholder name (.object title members))
  | .scalar _ => return .scalar
  | .any => return .scalar

/-- Binds and checks the arguments of a field. -/
def bindArguments (tree : SelectionTree) (field : FieldDefinition) (request : Request)
    (supplied : Option Variables) : Except CompileFault ArgumentSet := do
  let bound ← ArgumentSet.bind field.name field.bindings request supplied
  let arguments := bound.readVariablesFrom tree.variablesSlot
  field.extensions.forM fun extension => extension.validate field.name arguments
  pure arguments

/-- Selects a field under an owner. -/
def select (tree : SelectionTree) (owner : Owner) (field : FieldDefinition) (request : Request)
    (supplied : Option Variables) : Drawing (Except CompileFault (Address × SelectionTree)) :=
  match tree.ownerContext owner with
  | .error fault => pure (.error fault)
  | .ok context =>
    match tree.bindArguments field request supplied with
    | .error fault => pure (.error fault)
    | .ok arguments => do
      let expr ← field.resolve (.read context) arguments
      let kind ← drawKind field.name field.shape
      let selected : Field :=
        { name := field.name, kind, expr, context, extensions := field.extensions, arguments }
      pure <| (tree.insertField owner selected).map fun (address, grown) =>
        (address, { grown with
          bound := match supplied with
            | some values => grown.bound.merge values
            | none => grown.bound })

/-- Whether a fragment leads to another by spreads placed directly in fragments, in fewer
    than `bound` steps. -/
def reachesWithin (tree : SelectionTree) (target : Address) (bound : Nat) (start : Address) :
    Bool :=
  start == target ||
    match bound with
    | 0 => false
    | bound + 1 =>
      (tree.fragmentFields start).any fun address =>
        match (tree.field? address).map Field.kind with
        | some (.spread fragment) => tree.reachesWithin target bound fragment
        | _ => false

/-- Whether a fragment leads to another by spreads placed directly in fragments. A way
    that visits no fragment twice is shorter than the number of fragments. -/
def reaches (tree : SelectionTree) (start target : Address) : Bool :=
  tree.reachesWithin target tree.fragments.size start

/-- Whether placing a spread of `fragment` directly in the owner closes a cycle. -/
def closesCycle (tree : SelectionTree) (owner : Owner) (fragment : Address) : Bool :=
  match owner with
  | .fragment spreading => tree.reaches fragment spreading
  | _ => false

/-- Spreads the fragment of a name under an owner. -/
def spread (tree : SelectionTree) (owner : Owner) (name : String) :
    Except CompileFault (Address × SelectionTree) :=
  match tree.fragmentNamed? name with
  | none => .error (.unknownFragment name)
  | some fragment =>
    if tree.closesCycle owner fragment then .error (.fragmentCycle name)
    else
      match tree.ownerContext owner with
      | .error fault => .error fault
      | .ok context =>
        tree.insertField owner
          { name := "..." ++ name, kind := .spread fragment, expr := .read context, context }

/-- Declares a fragment whose fields are written over a value of some shape. -/
def declareFragment (tree : SelectionTree) (name : String) (shape : Shape) :
    Drawing (Address × SelectionTree) := do
  let slot ← drawPlaceholder name shape
  pure (tree.fragments.nextAddress, { tree with fragments := tree.fragments.push { name, slot } })

/-- Selects a mutation at the top of the operation. -/
def selectMutation (tree : SelectionTree) (mutation : Mutation) (request : Request)
    (supplied : Option Variables) : Drawing (Except CompileFault (Address × SelectionTree)) := do
  let result ← drawPlaceholder mutation.name mutation.returns
  let element? ← match mutation.returns with
    | .list element => some <$> drawPlaceholder mutation.name element
    | .object title members => some <$> drawPlaceholder mutation.name (.object title members)
    | .scalar _ => pure none
    | .any => pure none
  pure (tree.insertField .operation
    { name := mutation.name
      kind := .mutation ⟨mutation, request, supplied, result, element?⟩
      expr := .read result
      context := result })

end SelectionTree

end StagedQuery
