import StagedQuery.Expr.Substitution
import StagedQuery.Selection.Outline

/-!
# Passes over a selection

A pass turns the outlines of a selection into the members of one object
expression. Three kinds of pass are made of the same rules.

* A pure pass leaves out the fields that call services and contributes in their
  place the chains from which those services can be fed.
* A full pass evaluates every field from source data.
* A merging pass reads whatever an earlier pass has already computed from a
  replacement, and evaluates only the rest over it.

The first contribution of a name wins. A selection that contributes nothing is
left out, except that a pure pass keeps an empty shell for a selection of services
only, so that the next pass has something to start from.
-/

namespace StagedQuery

/-- What a pass leaves out and what it reads from. -/
structure PassOptions where
  /-- Leave out fields that call services. -/
  leavingOut : Bool := false
  /-- The value of an earlier pass at this level. -/
  replacement? : Option Expr := none
  /-- The replacement is the value of the field itself rather than of its parent. -/
  direct : Bool := false

namespace PassOptions

/-- A pass without services. -/
def withoutServices : PassOptions :=
  { leavingOut := true }

/-- A pass over source data. -/
def full : PassOptions :=
  {}

/-- A full pass that reads from a replacement wherever it can. -/
def merging (replacement : Expr) : PassOptions :=
  { replacement? := some replacement }

end PassOptions

/-- What a field contributes to the object under construction. -/
abbrev Contributions := List (String × Expr)

/-- Moves an expression from the field's own context to where this pass evaluates it: the
    replacement if there is one, else the placeholder that stands in for the context. -/
def Field.relocate (field : Field) (base? : Option Placeholder) (options : PassOptions)
    (expr : Expr) : Expr :=
  match options.replacement?, base? with
  | some replacement, _ => expr.substitute field.context replacement
  | none, some base =>
    if base.is field.context then expr else expr.substitute field.context (.read base)
  | none, none => expr

/-- The chains that feed the services of a field, in place of the field. -/
def Field.contributeExtracted (field : Field) (base? : Option Placeholder)
    (options : PassOptions) : Contributions :=
  (field.extracted?.getD []).map fun (name, expr) => (name, field.relocate base? options expr)

/-- The member of the replacement that already holds a field without services. -/
def Field.replaced? (field : Field) (replacement : Expr) : Option Expr :=
  if field.callsService then none
  else (replacement.shape.member? field.name).map fun shape =>
    .member replacement field.name shape

/-- What a field without members contributes. -/
def Field.contributeScalar (field : Field) (base? : Option Placeholder) (options : PassOptions) :
    Drawing Contributions :=
  if options.leavingOut && field.callsService then
    pure (field.contributeExtracted base? options)
  else
    let known? := options.replacement?.bind fun replacement =>
      if options.direct then some replacement else field.replaced? replacement
    match known? with
    | some known => pure [(field.name, known)]
    | none => do
      let value ← Extension.adjustAll Extension.onScalar field.name field.arguments
        field.extensions (field.relocate base? options field.expr)
      pure [(field.name, value)]

/-- Draws a placeholder for what the members of a field are selected from. -/
def drawFreshElement (name : String) (source : Expr) (isList : Bool) : Drawing Placeholder :=
  if isList then source.drawElement name else drawPlaceholder name source.shape

/-- Where the members of a field are selected from: its source, the placeholder for its
    value or items, what the pass reads the members from, and whether the field is
    evaluated from source data. -/
structure SelectionSource where
  source : Expr
  element : Placeholder
  replacement? : Option Expr
  fromData : Bool

/-- Finds where the members of a field are selected from. -/
def Field.drawSource (field : Field) (element : Placeholder) (isList : Bool)
    (base? : Option Placeholder) (options : PassOptions) : Drawing SelectionSource :=
  let known? := options.replacement?.bind fun replacement =>
    if options.direct then some replacement else field.replaced? replacement
  match known? with
  | some known => do
    let fresh ← drawFreshElement field.name known isList
    pure ⟨known, fresh, some (.read fresh), false⟩
  | none => do
    let source ← Extension.adjustAll Extension.beforeSelection field.name field.arguments
      field.extensions (field.relocate base? options field.expr)
    pure ⟨source, element, none, true⟩

/-- The expression of a selection: its members over the value or the items of its source. -/
def SelectionSource.select (found : SelectionSource) (name : String) (isList : Bool)
    (members : Members Expr) : Expr :=
  let body := Expr.object (found.element.shape.objectName?.getD name) members
  if isList then .map found.source found.element body else .scope found.element found.source body

namespace Outline

mutual

/-- What an outline contributes to a pass. `base?` stands in for the context of fields
    that come from a fragment. -/
def contribute (options : PassOptions) (base? : Option Placeholder) :
    Outline → Drawing Contributions
  | .scalar field => field.contributeScalar base? options
  | .selection field element isList children =>
    if options.leavingOut && field.callsService then
      pure (field.contributeExtracted base? options)
    else do
      let found ← field.drawSource element isList base? options
      let inner : PassOptions :=
        { leavingOut := options.leavingOut, replacement? := found.replacement?, direct := false }
      let members := Members.firsts (← contributeAll inner none children)
      let shell := options.leavingOut && anyServices? children == some true
      if members.isEmpty && !shell then pure []
      else
        let selected := found.select field.name isList members
        let value ←
          if found.fromData then
            Extension.adjustAll Extension.afterSelection field.name field.arguments
              field.extensions selected
          else pure selected
        pure [(field.name, value)]
  | .spread field fields => contributeAll options (some (base?.getD field.context)) fields
  | .endless => pure []

/-- What some outlines contribute, in order. -/
def contributeAll (options : PassOptions) (base? : Option Placeholder) :
    List Outline → Drawing Contributions
  | [] => pure []
  | first :: rest => do
    let own ← contribute options base? first
    let others ← contributeAll options base? rest
    pure (own ++ others)

end

end Outline

namespace SelectionTree

/-- The object of the operation's query fields in one pass. -/
def operationPass (tree : SelectionTree) (options : PassOptions) : Drawing Expr := do
  let contributions ← Outline.contributeAll options none tree.queryOutlines
  pure (.object tree.operationName (Members.firsts contributions))

/-- The object of the operation's query fields in one pass, if the pass comes to an end. -/
def operationPass? (tree : SelectionTree) (options : PassOptions) : Option (Drawing Expr) :=
  if Outline.allFinite options.leavingOut tree.queryOutlines then some (tree.operationPass options)
  else none

end SelectionTree

end StagedQuery
