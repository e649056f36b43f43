import StagedQuery.Expr.Text
import StagedQuery.Introspection.Schema

/-!
# Expressions under introspection

The view of an expression shows its text, its shape and its nodes. Placeholders of
one name are told apart by a number: placeholders are numbered from zero in the
order in which the view first meets them. So two expressions that differ only in
the choice of placeholders have the same view.
-/

namespace StagedQuery

/-- The view of a placeholder outside an expression. -/
def Placeholder.view (slot : Placeholder) : Json :=
  .array [.string slot.name, slot.shape.view]

namespace Expr

/-- The word that stands for the form of a node. -/
def form : Expr → String
  | .read _ => "param"
  | .constant _ => "const"
  | .member _ _ _ => "member"
  | .service _ _ _ _ _ => "service"
  | .binary _ _ _ => "bin"
  | .conditional _ _ _ => "if"
  | .convert _ _ => "convert"
  | .object _ _ => "object"
  | .scope _ _ _ => "scope"
  | .map _ _ _ => "map"
  | .filter _ _ _ => "filter"
  | .find _ _ _ => "find"
  | .sort _ _ _ => "sort"
  | .slice _ _ _ => "slice"

/-- A view under construction, with the placeholders met so far. -/
abbrev Viewing := StateM (List Nat)

/-- Shows a placeholder by its name and its place in the order of meeting. -/
def viewSlot (slot : Placeholder) : Viewing Json := fun met =>
  let known := if met.contains slot.number then met else met ++ [slot.number]
  (.string (slot.name ++ "#" ++ toString (known.idxOf slot.number)), known)

mutual

/-- The view of a node with everything below it. -/
def viewNode : Expr → Viewing Json
  | .read slot => do
    let read ← viewSlot slot
    pure (.array [.string "param", read])
  | .constant value => pure (.array [.string "const", value.view])
  | .member target name shape => do
    let inner ← viewNode target
    pure (.array [.string "member", inner, .string name, .string shape.text])
  | .service capability method arguments shape _ => do
    let inner ← viewNodes arguments
    pure (.array [.string "service", .string capability.shortName, .string method, .array inner,
      .string shape.text])
  | .binary op left right => do
    let first ← viewNode left
    let second ← viewNode right
    pure (.array [.string "bin", .string op.sign, first, second])
  | .conditional test whenTrue whenFalse => do
    let decided ← viewNode test
    let first ← viewNode whenTrue
    let second ← viewNode whenFalse
    pure (.array [.string "if", decided, first, second])
  | .convert operand kind => do
    let inner ← viewNode operand
    pure (.array [.string "convert", inner, .string kind.name])
  | .object name fields => do
    let inner ← viewFields fields
    pure (.array [.string "object", .string name, .array inner])
  | .scope slot value body => do
    let bound ← viewSlot slot
    let first ← viewNode value
    let second ← viewNode body
    pure (.array [.string "scope", bound, first, second])
  | .map source slot body => do
    let items ← viewNode source
    let bound ← viewSlot slot
    let inner ← viewNode body
    pure (.array [.string "map", items, bound, inner])
  | .filter source slot test => do
    let items ← viewNode source
    let bound ← viewSlot slot
    let inner ← viewNode test
    pure (.array [.string "filter", items, bound, inner])
  | .find source slot test => do
    let items ← viewNode source
    let bound ← viewSlot slot
    let inner ← viewNode test
    pure (.array [.string "find", items, bound, inner])
  | .sort source slot keys => do
    let items ← viewNode source
    let bound ← viewSlot slot
    let inner ← viewKeys keys
    pure (.array [.string "sort", items, bound, .array inner])
  | .slice source skip take => do
    let items ← viewNode source
    pure (.array [.string "slice", items, .integer skip, Json.ofOption (.integer ·) take])

/-- The views of some nodes. -/
def viewNodes : List Expr → Viewing (List Json)
  | [] => pure []
  | node :: rest => do
    let first ← viewNode node
    let others ← viewNodes rest
    pure (first :: others)

/-- The views of some fields. -/
def viewFields : List (String × Expr) → Viewing (List Json)
  | [] => pure []
  | (name, node) :: rest => do
    let first ← viewNode node
    let others ← viewFields rest
    pure (.array [.string name, first] :: others)

/-- The views of some sort keys; the truth tells whether the order is descending. -/
def viewKeys : List (Expr × Direction) → Viewing (List Json)
  | [] => pure []
  | (node, direction) :: rest => do
    let first ← viewNode node
    let others ← viewKeys rest
    pure (.array [first, .bool (direction = .descending)] :: others)

end

/-- What the view of an expression shows. -/
def viewMembers (expr : Expr) : List (String × Json) :=
  [("text", .string expr.text), ("ir", (expr.viewNode []).1), ("shape", expr.shape.view)]

/-- The view of an expression. -/
def view (expr : Expr) : Json :=
  .object expr.viewMembers

end Expr

/-- The view of extracted chains. -/
def extractedView (chains : Members Expr) : Json :=
  .array (chains.map fun (name, expr) => .array [.string name, expr.view])

end StagedQuery
