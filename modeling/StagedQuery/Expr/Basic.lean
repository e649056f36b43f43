import StagedQuery.Capability
import StagedQuery.Placeholder

/-!
# Expressions

A deferred computation over placeholders. Five forms bind a placeholder: `scope`
binds it to one value, and `map`, `filter`, `find` and `sort` bind it to each item
of a list in turn. A service call names a capability and a method and carries what
the method answers, a function of the instance's state and the arguments.
-/

namespace StagedQuery

/-- What a service method answers: a value, or the text of its failure. -/
abbrev ServiceAnswer := Value → List Value → Except String Value

/-- Operators of two operands. -/
inductive BinaryOp where
  | equal
  | notEqual
  | less
  | lessEqual
  | greater
  | greaterEqual
  | and
  | or
  | add
  | subtract
  | multiply
  deriving DecidableEq, Repr

/-- The sign of an operator. -/
def BinaryOp.sign : BinaryOp → String
  | .equal => "=="
  | .notEqual => "!="
  | .less => "<"
  | .lessEqual => "<="
  | .greater => ">"
  | .greaterEqual => ">="
  | .and => "&&"
  | .or => "||"
  | .add => "+"
  | .subtract => "-"
  | .multiply => "*"

/-- All operators. -/
def BinaryOp.all : List BinaryOp :=
  [.equal, .notEqual, .less, .lessEqual, .greater, .greaterEqual, .and, .or, .add, .subtract,
    .multiply]

/-- The operator of a sign. -/
def BinaryOp.ofSign? (sign : String) : Option BinaryOp :=
  BinaryOp.all.find? (·.sign = sign)

/-- The operators that combine truths and may skip their second operand. -/
def BinaryOp.isLogical : BinaryOp → Bool
  | .and => true
  | .or => true
  | _ => false

/-- The operators on numbers. -/
def BinaryOp.isArithmetic : BinaryOp → Bool
  | .add => true
  | .subtract => true
  | .multiply => true
  | _ => false

/-- The direction of a sort key. -/
inductive Direction where
  | ascending
  | descending
  deriving DecidableEq, Repr

/-- A deferred computation. -/
inductive Expr where
  | read (slot : Placeholder)
  | constant (value : Value)
  | member (target : Expr) (name : String) (shape : Shape)
  | service (capability : Capability) (method : String) (arguments : List Expr) (shape : Shape)
      (answer : ServiceAnswer)
  | binary (op : BinaryOp) (left right : Expr)
  | conditional (test whenTrue whenFalse : Expr)
  | convert (operand : Expr) (kind : ScalarKind)
  | object (name : String) (fields : List (String × Expr))
  | scope (slot : Placeholder) (value body : Expr)
  | map (source : Expr) (slot : Placeholder) (body : Expr)
  | filter (source : Expr) (slot : Placeholder) (test : Expr)
  | find (source : Expr) (slot : Placeholder) (test : Expr)
  | sort (source : Expr) (slot : Placeholder) (keys : List (Expr × Direction))
  | slice (source : Expr) (skip : Nat) (take : Option Nat)

namespace Expr

/-- Where an expression is missing, null stands for it. -/
instance : Inhabited Expr := ⟨.constant .null⟩

mutual

/-- The static shape of the value that an expression evaluates to. -/
def shape : Expr → Shape
  | .read slot => slot.shape
  | .constant value => value.shape
  | .member _ _ shape => shape
  | .service _ _ _ shape _ => shape
  | .binary op left _ => if op.isArithmetic then left.shape else .scalar .boolean
  | .conditional _ whenTrue whenFalse =>
    match whenTrue.shape with
    | .any => whenFalse.shape
    | known => known
  | .convert _ kind => .scalar kind
  | .object name fields => .ofPairs name (fieldShapes fields)
  | .scope _ _ body => body.shape
  | .map _ _ body => .list body.shape
  | .filter source _ _ => source.shape
  | .find source _ _ => source.shape.element?.getD .any
  | .sort source _ _ => source.shape
  | .slice source _ _ => source.shape

/-- The shapes of some named expressions. -/
def fieldShapes : List (String × Expr) → List (String × Shape)
  | [] => []
  | (name, field) :: rest => (name, field.shape) :: fieldShapes rest

end

/-- A member of an expression; its shape is the one that the expression's shape declares. -/
def get (target : Expr) (name : String) : Expr :=
  .member target name ((target.shape.member? name).getD .any)

/-- Draws a placeholder for one item of a list expression. -/
def drawElement (source : Expr) (name : String) : Drawing Placeholder :=
  drawPlaceholder name (source.shape.element?.getD .any)

/-- The direct parts of an expression, in the order of their evaluation. -/
def children : Expr → List Expr
  | .read _ => []
  | .constant _ => []
  | .member target _ _ => [target]
  | .service _ _ arguments _ _ => arguments
  | .binary _ left right => [left, right]
  | .conditional test whenTrue whenFalse => [test, whenTrue, whenFalse]
  | .convert operand _ => [operand]
  | .object _ fields => fields.map Prod.snd
  | .scope _ value body => [value, body]
  | .map source _ body => [source, body]
  | .filter source _ test => [source, test]
  | .find source _ test => [source, test]
  | .sort source _ keys => source :: keys.map Prod.fst
  | .slice source _ _ => [source]

mutual

/-- The nodes of an expression from the root down and from left to right. Below a node
    that `enter` refuses, nothing is visited. -/
def walk (enter : Expr → Bool) : Expr → List Expr
  | .read slot => [.read slot]
  | .constant value => [.constant value]
  | .member target name shape =>
    .member target name shape ::
      if enter (.member target name shape) then walk enter target else []
  | .service capability method arguments shape answer =>
    .service capability method arguments shape answer ::
      if enter (.service capability method arguments shape answer) then walkAll enter arguments
      else []
  | .binary op left right =>
    .binary op left right ::
      if enter (.binary op left right) then walk enter left ++ walk enter right else []
  | .conditional test whenTrue whenFalse =>
    .conditional test whenTrue whenFalse ::
      if enter (.conditional test whenTrue whenFalse) then
        walk enter test ++ walk enter whenTrue ++ walk enter whenFalse
      else []
  | .convert operand kind =>
    .convert operand kind ::
      if enter (.convert operand kind) then walk enter operand else []
  | .object name fields =>
    .object name fields ::
      if enter (.object name fields) then walkFields enter fields else []
  | .scope slot value body =>
    .scope slot value body ::
      if enter (.scope slot value body) then walk enter value ++ walk enter body else []
  | .map source slot body =>
    .map source slot body ::
      if enter (.map source slot body) then walk enter source ++ walk enter body else []
  | .filter source slot test =>
    .filter source slot test ::
      if enter (.filter source slot test) then walk enter source ++ walk enter test else []
  | .find source slot test =>
    .find source slot test ::
      if enter (.find source slot test) then walk enter source ++ walk enter test else []
  | .sort source slot keys =>
    .sort source slot keys ::
      if enter (.sort source slot keys) then walk enter source ++ walkKeys enter keys
      else []
  | .slice source skip take =>
    .slice source skip take ::
      if enter (.slice source skip take) then walk enter source else []

/-- The nodes of some expressions. -/
def walkAll (enter : Expr → Bool) : List Expr → List Expr
  | [] => []
  | node :: rest => walk enter node ++ walkAll enter rest

/-- The nodes of the fields of an object. -/
def walkFields (enter : Expr → Bool) : List (String × Expr) → List Expr
  | [] => []
  | (_, node) :: rest => walk enter node ++ walkFields enter rest

/-- The nodes of sort keys. -/
def walkKeys (enter : Expr → Bool) : List (Expr × Direction) → List Expr
  | [] => []
  | (node, _) :: rest => walk enter node ++ walkKeys enter rest

end

/-- All nodes of an expression, from the root down and from left to right. -/
def nodes (expr : Expr) : List Expr :=
  expr.walk fun _ => true

/-- The capability that a node itself calls. -/
def ownCapability? : Expr → Option Capability
  | .service capability _ _ _ _ => some capability
  | _ => none

/-- Whether a service is called anywhere in an expression. -/
def hasServices (expr : Expr) : Bool :=
  expr.nodes.any fun node => node.ownCapability?.isSome

/-- The capabilities that an expression calls, each once, in order of first occurrence. -/
def capabilities (expr : Expr) : List Capability :=
  (expr.nodes.filterMap ownCapability?).eraseDups

/-- Whether a placeholder occurs in an expression. -/
def references (expr : Expr) (slot : Placeholder) : Bool :=
  expr.nodes.any fun node =>
    match node with
    | .read other => other.is slot
    | _ => false

mutual

/-- Equality of expressions. Placeholders are compared by identity, values by
    `Value.same`, and service calls without what they answer. -/
def same : Expr → Expr → Bool
  | .read left, .read right => left.is right
  | .constant left, .constant right => left == right
  | .member left leftName leftShape, .member right rightName rightShape =>
    left.same right && leftName == rightName && leftShape == rightShape
  | .service leftCapability leftMethod leftArguments leftShape _,
      .service rightCapability rightMethod rightArguments rightShape _ =>
    leftCapability == rightCapability && leftMethod == rightMethod && leftShape == rightShape
      && sameAll leftArguments rightArguments
  | .binary leftOp left leftOther, .binary rightOp right rightOther =>
    leftOp == rightOp && left.same right && leftOther.same rightOther
  | .conditional leftTest left leftOther, .conditional rightTest right rightOther =>
    leftTest.same rightTest && left.same right && leftOther.same rightOther
  | .convert left leftKind, .convert right rightKind => left.same right && leftKind == rightKind
  | .object leftName left, .object rightName right => leftName == rightName && sameFields left right
  | .scope left leftValue leftBody, .scope right rightValue rightBody =>
    left.is right && leftValue.same rightValue && leftBody.same rightBody
  | .map left leftItem leftBody, .map right rightItem rightBody =>
    left.same right && leftItem.is rightItem && leftBody.same rightBody
  | .filter left leftItem leftTest, .filter right rightItem rightTest =>
    left.same right && leftItem.is rightItem && leftTest.same rightTest
  | .find left leftItem leftTest, .find right rightItem rightTest =>
    left.same right && leftItem.is rightItem && leftTest.same rightTest
  | .sort left leftItem leftKeys, .sort right rightItem rightKeys =>
    left.same right && leftItem.is rightItem && sameKeys leftKeys rightKeys
  | .slice left leftSkip leftTake, .slice right rightSkip rightTake =>
    left.same right && leftSkip == rightSkip && leftTake == rightTake
  | _, _ => false

/-- Equality of lists of expressions. -/
def sameAll : List Expr → List Expr → Bool
  | [], [] => true
  | left :: leftRest, right :: rightRest => left.same right && sameAll leftRest rightRest
  | _, _ => false

/-- Equality of the fields of objects, in order. -/
def sameFields : List (String × Expr) → List (String × Expr) → Bool
  | [], [] => true
  | (leftName, left) :: leftRest, (rightName, right) :: rightRest =>
    leftName == rightName && left.same right && sameFields leftRest rightRest
  | _, _ => false

/-- Equality of sort keys. -/
def sameKeys : List (Expr × Direction) → List (Expr × Direction) → Bool
  | [], [] => true
  | (left, leftDirection) :: leftRest, (right, rightDirection) :: rightRest =>
    left.same right && leftDirection == rightDirection && sameKeys leftRest rightRest
  | _, _ => false

end

/-- Expressions are compared node by node. -/
instance : BEq Expr := ⟨same⟩

end Expr

end StagedQuery
