import StagedQuery.Expr.Text
import StagedQuery.Outcome

/-!
# Evaluation

The meaning of an expression under an environment, which binds placeholders to
values, and a provider, which answers capabilities with instances.

Operands are evaluated from left to right and each failure ends the evaluation. A
service call asks for its instance before it evaluates its arguments. `&&` and
`||` skip their second operand once the first decides. Null runs through member
accesses, scopes, list operations and arithmetic.
-/

namespace StagedQuery

/-- Bindings of placeholders by number, the innermost first. -/
abbrev Environment := List (Nat × Value)

namespace Environment

/-- Binds a placeholder, hiding an earlier binding of it. -/
def bind (env : Environment) (slot : Placeholder) (value : Value) : Environment :=
  (slot.number, value) :: env

/-- The value bound to a placeholder. -/
def value? (env : Environment) (slot : Placeholder) : Option Value :=
  match env with
  | [] => none
  | (number, value) :: outer => if number = slot.number then some value else value? outer slot

end Environment

/-- The items of a list; null has none to give, and any other value is a fault of the
    named operation. -/
def listItems (operation : String) : Value → Except ExecutionFault (Option (List Value))
  | .null => .ok none
  | .list items => .ok (some items)
  | other => .error (.typeMismatch operation "List" other.kindName)

/-- Applies an order operator to the order of its operands. -/
def BinaryOp.accepts (op : BinaryOp) (order : Ordering) : Bool :=
  match op with
  | .less => order.isLT
  | .lessEqual => order.isLE
  | .greater => order.isGT
  | _ => order.isGE

/-- Compares two values in order. Null is in no order with anything. -/
def compareValues (op : BinaryOp) (left right : Value) : Except ExecutionFault Value :=
  if left.isNull || right.isNull then .ok (.bool false)
  else match left.compare? right with
    | some order => .ok (.bool (op.accepts order))
    | none => .error (.typeMismatch op.sign left.kindName right.kindName)

/-- Arithmetic on integers, which wrap around. -/
def BinaryOp.onInts (op : BinaryOp) (left right : Int64) : Int64 :=
  match op with
  | .add => left + right
  | .subtract => left - right
  | _ => left * right

/-- Arithmetic on floating point numbers. -/
def BinaryOp.onFloats (op : BinaryOp) (left right : Float) : Float :=
  match op with
  | .add => left + right
  | .subtract => left - right
  | _ => left * right

/-- Arithmetic. A null operand gives null, strings can be added, and integers are widened
    where they meet a floating point number. The fault names the operand that is no
    number, the first one if neither is. -/
def calculate (op : BinaryOp) (left right : Value) : Except ExecutionFault Value :=
  match left, right with
  | .null, _ => .ok .null
  | _, .null => .ok .null
  | .int left, .int right => .ok (.int (op.onInts left right))
  | .int left, .float right => .ok (.float (op.onFloats (Value.widen left) right))
  | .float left, .int right => .ok (.float (op.onFloats left (Value.widen right)))
  | .float left, .float right => .ok (.float (op.onFloats left right))
  | .string left, .string right =>
    if op = .add then .ok (.string (left ++ right))
    else .error (.typeMismatch op.sign "Int or Float" "String")
  | .int _, other => .error (.typeMismatch op.sign "Int or Float" other.kindName)
  | .float _, other => .error (.typeMismatch op.sign "Int or Float" other.kindName)
  | other, _ => .error (.typeMismatch op.sign "Int or Float" other.kindName)

/-- Applies an operator to the values of both operands. -/
def BinaryOp.apply (op : BinaryOp) (left right : Value) : Except ExecutionFault Value :=
  match op with
  | .equal => .ok (.bool (left.looseSame right))
  | .notEqual => .ok (.bool !(left.looseSame right))
  | .less => compareValues op left right
  | .lessEqual => compareValues op left right
  | .greater => compareValues op left right
  | .greaterEqual => compareValues op left right
  | .and => .ok (.bool (left.isTruthy && right.isTruthy))
  | .or => .ok (.bool (left.isTruthy || right.isTruthy))
  | .add => calculate op left right
  | .subtract => calculate op left right
  | .multiply => calculate op left right

/-- Turns an order around for a descending key. -/
def Direction.orient (direction : Direction) (order : Ordering) : Ordering :=
  match direction with
  | .ascending => order
  | .descending => order.swap

/-- The order of two items by their key values: the first key that tells them apart
    decides. Values without an order count as equal. -/
def compareKeys : List Direction → List Value → List Value → Ordering
  | direction :: directions, left :: lefts, right :: rights =>
    match direction.orient ((left.compare? right).getD .eq) with
    | .eq => compareKeys directions lefts rights
    | order => order
  | _, _, _ => .eq

/-- Puts an item into a list that stands in reverse order. Seen from the end of the
    sorted list, it passes every item that it is less than and stops at the first other. -/
def insertFromEnd {α : Type} (order : α → α → Ordering) (item : α) : List α → List α
  | [] => [item]
  | last :: rest =>
    match order item last with
    | .lt => last :: insertFromEnd order item rest
    | _ => item :: last :: rest

/-- A stable sort: items enter one by one from the end of the items sorted so far. -/
def sortItems {α : Type} (order : α → α → Ordering) (items : List α) : List α :=
  (items.foldl (fun sorted item => insertFromEnd order item sorted) []).reverse

/-- Calls a service method on an instance. An instance of another capability is refused
    before the call starts. -/
def callService (capability : Capability) (method : String) (answer : ServiceAnswer)
    (found : Instance) (arguments : List Value) : Outcome Value :=
  if capability.matches found then
    .record (.service capability method arguments)
      ((answer found.state arguments).mapError (ExecutionFault.service capability method))
  else
    .fail (.service capability method
      ("instance registered for `" ++ capability.shortName ++ "` has a different type"))

/-- Runs a list operation on an outcome: null stays null. -/
def withItems (operation : String) (source : Outcome Value)
    (body : List Value → Outcome Value) : Outcome Value := do
  match ← (do Outcome.ofExcept (listItems operation (← source))) with
  | none => pure .null
  | some items => body items

/-- The items for which a test holds. -/
def keepItems (test : Value → Outcome Value) : List Value → Outcome (List Value)
  | [] => pure []
  | item :: rest => do
    let held ← test item
    let kept ← keepItems test rest
    pure (if held.isTruthy then item :: kept else kept)

/-- The first item for which a test holds, null if there is none. -/
def findItem (test : Value → Outcome Value) : List Value → Outcome Value
  | [] => pure .null
  | item :: rest => do
    if (← test item).isTruthy then pure item else findItem test rest

/-- The results of a body for all items. -/
def mapItems {α : Type} (body : Value → Outcome α) : List Value → Outcome (List α)
  | [] => pure []
  | item :: rest => do
    let first ← body item
    let others ← mapItems body rest
    pure (first :: others)

namespace Expr

mutual

/-- The outcome of an expression. -/
def evaluate (provider : Provider) : Expr → Environment → Outcome Value
  | .read slot, env =>
    match env.value? slot with
    | some value => pure value
    | none => .fail (.unboundPlaceholder slot.name)
  | .constant value, _ => pure value
  | .member target name _, env => do
    let value ← evaluate provider target env
    pure (value.member name)
  | .service capability method arguments _ answer, env =>
    match provider capability with
    | none => .fail (.missingCapability capability)
    | some found => do
      let values ← evaluateAll provider arguments env
      callService capability method answer found values
  | .binary op left right, env => do
    let first ← evaluate provider left env
    if op.isLogical && first.isTruthy == (op == .or) then pure (.bool (op == .or))
    else
      let second ← evaluate provider right env
      if op.isLogical then pure (.bool second.isTruthy)
      else Outcome.ofExcept (op.apply first second)
  | .conditional test whenTrue whenFalse, env => do
    let decided ← evaluate provider test env
    if decided.isTruthy then evaluate provider whenTrue env else evaluate provider whenFalse env
  | .convert operand kind, env => do
    let value ← evaluate provider operand env
    match value.convert? kind with
    | some converted => pure converted
    | none => .fail (.conversion value.display kind)
  | .object _ fields, env => do
    let members ← evaluateFields provider fields env
    pure (Value.ofPairs members)
  | .scope slot value body, env => do
    let bound ← evaluate provider value env
    if bound.isNull then pure .null else evaluate provider body (env.bind slot bound)
  | .map source slot body, env =>
    withItems "map" (evaluate provider source env) fun items => do
      let results ← mapItems (fun item => evaluate provider body (env.bind slot item)) items
      pure (.list results)
  | .filter source slot test, env =>
    withItems "filter" (evaluate provider source env) fun items => do
      let kept ← keepItems (fun item => evaluate provider test (env.bind slot item)) items
      pure (.list kept)
  | .find source slot test, env =>
    withItems "find" (evaluate provider source env) fun items =>
      findItem (fun item => evaluate provider test (env.bind slot item)) items
  | .sort source slot keys, env =>
    withItems "sort" (evaluate provider source env) fun items => do
      let keyed ← mapItems (fun item => do
        let values ← evaluateKeys provider keys (env.bind slot item)
        pure (values, item)) items
      let directions := keys.map Prod.snd
      let sorted := sortItems (fun left right => compareKeys directions left.1 right.1) keyed
      pure (.list (sorted.map Prod.snd))
  | .slice source skip take, env =>
    withItems "slice" (evaluate provider source env) fun items =>
      let rest := items.drop skip
      pure (.list (match take with
        | some count => rest.take count
        | none => rest))

/-- The values of some expressions, from left to right. -/
def evaluateAll (provider : Provider) : List Expr → Environment → Outcome (List Value)
  | [], _ => pure []
  | expr :: rest, env => do
    let first ← evaluate provider expr env
    let others ← evaluateAll provider rest env
    pure (first :: others)

/-- The named values of some fields, from left to right. -/
def evaluateFields (provider : Provider) :
    List (String × Expr) → Environment → Outcome (List (String × Value))
  | [], _ => pure []
  | (name, field) :: rest, env => do
    let first ← evaluate provider field env
    let others ← evaluateFields provider rest env
    pure ((name, first) :: others)

/-- The values of sort keys, from left to right. -/
def evaluateKeys (provider : Provider) :
    List (Expr × Direction) → Environment → Outcome (List Value)
  | [], _ => pure []
  | (key, _) :: rest, env => do
    let first ← evaluate provider key env
    let others ← evaluateKeys provider rest env
    pure (first :: others)

end

end Expr

end StagedQuery
