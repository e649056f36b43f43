import StagedQuery.Selection.Tree

/-!
# Outlines

The outline of a field is the tree of everything that it selects, with the fields
of a fragment below each spread of it. It is what compilation follows.

A spread below a field of its own fragment would be followed without end. The
outline marks the point where a field is entered again while it is still open as
`endless`. A question about an outline that would have to look past such a point
has no answer.
-/

namespace StagedQuery

/-- Everything that a field selects. -/
inductive Outline where
  /-- A field without members to select. -/
  | scalar (field : Field)
  /-- A field whose members are selected over a placeholder: its items if it is a list,
      otherwise its value. -/
  | selection (field : Field) (element : Placeholder) (isList : Bool) (children : List Outline)
  /-- The fields of a fragment. -/
  | spread (field : Field) (fields : List Outline)
  /-- A field that is already open. -/
  | endless

namespace Outline

mutual

/-- Whether a service is called by a field or below it. A field that calls a service
    itself is looked at no further, and neither are the fields after one that does. -/
def hasServices? : Outline → Option Bool
  | .scalar field => some field.callsService
  | .selection field _ _ children =>
    if field.callsService then some true else anyServices? children
  | .spread _ fields => anyServices? fields
  | .endless => none

/-- Whether a service is called by one of some fields or below it. -/
def anyServices? : List Outline → Option Bool
  | [] => some false
  | first :: rest =>
    match first.hasServices? with
    | some false => anyServices? rest
    | answer => answer

end

mutual

/-- Whether a pass over an outline comes to an end. A pass that leaves out fields with
    services does not look below them. -/
def isFinite (leavingOut : Bool) : Outline → Bool
  | .scalar _ => true
  | .selection field _ _ children =>
    (leavingOut && field.callsService) || allFinite leavingOut children
  | .spread _ fields => allFinite leavingOut fields
  | .endless => false

/-- Whether a pass over some outlines comes to an end. -/
def allFinite (leavingOut : Bool) : List Outline → Bool
  | [] => true
  | first :: rest => isFinite leavingOut first && allFinite leavingOut rest

end

end Outline

namespace SelectionTree

/-- Whether a field selects the members of a list. -/
def selectsList (field : Field) : Bool :=
  match field.kind with
  | .list _ => true
  | .mutation selection => selection.mutation.returnsList
  | _ => false

/-- The outline of a field while the fields in `opened` are open. Open fields are distinct
    fields of the tree, so `bound` only has to exceed how many more there can be. -/
def outlineWithin (tree : SelectionTree) (bound : Nat) (opened : List Address)
    (address : Address) : Option Outline :=
  match bound with
  | 0 => some .endless
  | bound + 1 =>
    (tree.field? address).map fun field =>
      if opened.contains address then .endless
      else
        let below := fun addresses : List Address =>
          addresses.filterMap (tree.outlineWithin bound (address :: opened))
        match field.kind, field.element? with
        | .spread fragment, _ => .spread field (below (tree.fragmentFields fragment))
        | _, some element => .selection field element (selectsList field) (below field.children)
        | _, none => .scalar field

/-- The outline of the field at an address. -/
def outline? (tree : SelectionTree) (address : Address) : Option Outline :=
  tree.outlineWithin (tree.fields.size + 1) [] address

/-- The outlines of the operation's query fields. -/
def queryOutlines (tree : SelectionTree) : List Outline :=
  tree.queryRoots.filterMap tree.outline?

/-- Whether a service is called by a field or below it. -/
def hasServices? (tree : SelectionTree) (address : Address) : Option Bool :=
  ((tree.outline? address).map Outline.hasServices?).getD (some false)

/-- Whether a service is called by a query field of the operation or below it. -/
def operationHasServices? (tree : SelectionTree) : Option Bool :=
  Outline.anyServices? tree.queryOutlines

end SelectionTree

end StagedQuery
