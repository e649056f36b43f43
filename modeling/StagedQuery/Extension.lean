import StagedQuery.Argument.Binding

/-!
# Extensions of a field

An extension adds arguments to a field, checks them when the field is selected, and
adjusts the field's expression: the source of an object or list before its members
are selected, the selection afterwards, and the value of a scalar. Adjusting
happens only where a field is evaluated from source data, in the order in which the
extensions are registered.

Four extensions are built in: `filter` keeps the items whose members equal the given
ones, `sort` orders items by several members, `paging` cuts out a page, and
`convert` converts a scalar.
-/

namespace StagedQuery

/-- An adjustment of an expression, given the name and the bound arguments of the field. -/
abbrev Adjustment := String → ArgumentSet → Expr → Drawing Expr

/-- The adjustment that changes nothing. -/
def Adjustment.none : Adjustment :=
  fun _ _ expr => pure expr

/-- An extension of a field. -/
structure Extension where
  name : String
  /-- The arguments that the extension adds, given the shape of an item. -/
  bindings : Shape → List Binding := fun _ => []
  /-- Checks the bound arguments of a field. -/
  validate : String → ArgumentSet → Except CompileFault Unit := fun _ _ => .ok ()
  beforeSelection : Adjustment := Adjustment.none
  afterSelection : Adjustment := Adjustment.none
  onScalar : Adjustment := Adjustment.none

namespace Extension

/-- An input object with one field for each scalar member of an object shape. -/
def scalarInput (shape : Shape) (ending : String) (type : ScalarKind → ArgumentType) :
    Option ArgumentType :=
  shape.objectName?.map fun name =>
    .input (name ++ ending)
      (shape.scalarMembers.map fun (member, kind) => ⟨member, member, type kind⟩)
      ArgumentType.optional

/-- The single argument that an object shape gives rise to. -/
def scalarBindings (shape : Shape) (argument ending : String) (type : ScalarKind → ArgumentType) :
    List Binding :=
  match scalarInput shape ending type with
  | some type => [⟨argument, argument, type⟩]
  | none => []

/-- The members of a bound argument, if it is an object. -/
def boundMembers (arguments : ArgumentSet) (member : String) : Members Value :=
  ((arguments.value? member).bind Value.members?).getD []

/-- Joins tests by `&&`, from the left. -/
def conjunction : List Expr → Expr
  | [] => .constant (.bool true)
  | first :: rest => rest.foldl (.binary .and) first

/-- Keeps the items whose members equal the members of the argument that are not null. -/
def filterSource : Adjustment := fun _ arguments source =>
  let names := (boundMembers arguments "filter").filterMap fun (name, value) =>
    if value.isNull then none else some name
  if names.isEmpty then pure source
  else do
    let item ← source.drawElement "item"
    let tests := names.map fun name =>
      Expr.binary .equal ((Expr.read item).get name) (arguments.memberExpr "filter" name)
    pure (.filter source item (conjunction tests))

/-- Equality with given members: `filter: (name: "Heat")`. -/
def filter : Extension where
  name := "filter"
  bindings shape := scalarBindings shape "filter" "Filter" fun kind =>
    .scalar kind ArgumentType.optional
  beforeSelection := filterSource

/-- The type of a sort direction. -/
def directionType : ArgumentType :=
  .enumeration "SortDirection" ["ASC", "DESC"] ArgumentType.optional

/-- Sorts items by the members of the argument, in the order in which they are bound. -/
def sortSource : Adjustment := fun _ arguments source =>
  let keys := (boundMembers arguments "sort").filterMap fun (name, value) =>
    value.text?.map fun text =>
      (name, if text = "DESC" then Direction.descending else Direction.ascending)
  if keys.isEmpty then pure source
  else do
    let item ← source.drawElement "item"
    pure (.sort source item (keys.map fun (name, direction) =>
      ((Expr.read item).get name, direction)))

/-- Order by several members: `sort: (year: DESC, name: ASC)`. -/
def sort : Extension where
  name := "sort"
  bindings shape := scalarBindings shape "sort" "Sort" fun _ => directionType
  beforeSelection := sortSource

/-- A bound count, if it is an integer. -/
def boundInt? (arguments : ArgumentSet) (member : String) : Option Int64 :=
  (arguments.value? member).bind Value.int?

/-- The natural number that an integer equals. -/
def natural? (number : Int64) : Option Nat :=
  if number < 0 then none else some number.toInt.toNat

/-- Refuses a negative count. -/
def refuseNegative (field : String) (arguments : ArgumentSet) (member : String) :
    Except CompileFault Unit :=
  match boundInt? arguments member with
  | some count =>
    if count < 0 then
      .error (.invalidArgument field member "a non-negative Int" (Value.intText count))
    else .ok ()
  | none => .ok ()

/-- Refuses a page larger than the maximum. -/
def refuseLargePage (field : String) (arguments : ArgumentSet) (maximum : Option Nat) :
    Except CompileFault Unit :=
  match boundInt? arguments "take", maximum with
  | some requested, some most =>
    match natural? requested with
    | some count =>
      if most < count then .error (.pageSizeExceeded field requested.toInt most) else .ok ()
    | none => .ok ()
  | _, _ => .ok ()

/-- The size of a page: the requested one, else the default, else the maximum. -/
def pageSize (arguments : ArgumentSet) (default maximum : Option Nat) : Option Nat :=
  let chosen := match boundInt? arguments "take" with
    | some requested => natural? requested
    | none => default
  chosen.or maximum

/-- Cuts a page out of a selection. -/
def pageSelection (default maximum : Option Nat) : Adjustment := fun _ arguments selection =>
  let skip := ((boundInt? arguments "skip").bind natural?).getD 0
  let take := pageSize arguments default maximum
  pure (if skip = 0 ∧ take = none then selection else .slice selection skip take)

/-- Paging by `skip` and `take`, with an optional default and maximum page size. -/
def paging (default maximum : Option Nat) : Extension where
  name := "paging"
  bindings _ :=
    [⟨"skip", "skip", .scalar .int ArgumentType.optional⟩,
      ⟨"take", "take", .scalar .int ArgumentType.optional⟩]
  validate field arguments := do
    refuseNegative field arguments "skip"
    refuseNegative field arguments "take"
    refuseLargePage field arguments maximum
  afterSelection := pageSelection default maximum

/-- Converts a scalar field to another kind. -/
def convert (kind : ScalarKind) : Extension where
  name := "convert"
  onScalar := fun _ _ value => pure (.convert value kind)

/-- Applies one of the adjustments of some extensions, in order of registration. -/
def adjustAll (pick : Extension → Adjustment) (field : String) (arguments : ArgumentSet)
    (extensions : List Extension) (expr : Expr) : Drawing Expr :=
  extensions.foldlM (fun current extension => pick extension field arguments current) expr

end Extension

end StagedQuery
