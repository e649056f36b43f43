import StagedQuery.Expr.Chain

/-!
# Substitution in expressions

`transform` replaces nodes from the root down; `substitute` puts an expression in the
place of a placeholder. Where the shape of that expression already carries a chain
under its extracted name, the whole chain becomes a read of that member.
-/

namespace StagedQuery.Expr

mutual

/-- Replaces the nodes for which `replace` answers. Below a replaced node nothing is
    looked at; any other node is rebuilt from its transformed parts. -/
def transform (replace : Expr → Option Expr) : Expr → Expr
  | .read slot => (replace (.read slot)).getD (.read slot)
  | .constant value => (replace (.constant value)).getD (.constant value)
  | .member target name shape =>
    (replace (.member target name shape)).getD (.member (transform replace target) name shape)
  | .service capability method arguments shape answer =>
    (replace (.service capability method arguments shape answer)).getD
      (.service capability method (transformAll replace arguments) shape answer)
  | .binary op left right =>
    (replace (.binary op left right)).getD
      (.binary op (transform replace left) (transform replace right))
  | .conditional test whenTrue whenFalse =>
    (replace (.conditional test whenTrue whenFalse)).getD
      (.conditional (transform replace test) (transform replace whenTrue)
        (transform replace whenFalse))
  | .convert operand kind =>
    (replace (.convert operand kind)).getD (.convert (transform replace operand) kind)
  | .object name fields =>
    (replace (.object name fields)).getD (.object name (transformFields replace fields))
  | .scope slot value body =>
    (replace (.scope slot value body)).getD
      (.scope slot (transform replace value) (transform replace body))
  | .map source slot body =>
    (replace (.map source slot body)).getD
      (.map (transform replace source) slot (transform replace body))
  | .filter source slot test =>
    (replace (.filter source slot test)).getD
      (.filter (transform replace source) slot (transform replace test))
  | .find source slot test =>
    (replace (.find source slot test)).getD
      (.find (transform replace source) slot (transform replace test))
  | .sort source slot keys =>
    (replace (.sort source slot keys)).getD
      (.sort (transform replace source) slot (transformKeys replace keys))
  | .slice source skip take =>
    (replace (.slice source skip take)).getD (.slice (transform replace source) skip take)

/-- Transforms some expressions. -/
def transformAll (replace : Expr → Option Expr) : List Expr → List Expr
  | [] => []
  | expr :: rest => transform replace expr :: transformAll replace rest

/-- Transforms the fields of an object. -/
def transformFields (replace : Expr → Option Expr) : List (String × Expr) → List (String × Expr)
  | [] => []
  | (name, field) :: rest => (name, transform replace field) :: transformFields replace rest

/-- Transforms sort keys. -/
def transformKeys (replace : Expr → Option Expr) :
    List (Expr × Direction) → List (Expr × Direction)
  | [] => []
  | (key, direction) :: rest => (transform replace key, direction) :: transformKeys replace rest

end

/-- What replaces a node when `source` stands for `root`: a read of the member that
    already carries the node's chain, or `source` itself for a bare read of `root`. -/
def replacement? (root : Placeholder) (source node : Expr) : Option Expr :=
  match node.chain? root with
  | none => none
  | some path =>
    match source.shape.member? (extractedName path) with
    | some shape => some (.member source (extractedName path) shape)
    | none => if path.isEmpty then some source else none

/-- Puts `source` in the place of every read of `root`. -/
def substitute (expr : Expr) (root : Placeholder) (source : Expr) : Expr :=
  expr.transform (replacement? root source)

end StagedQuery.Expr
