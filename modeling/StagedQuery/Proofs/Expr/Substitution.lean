import StagedQuery.Expr.Substitution
import StagedQuery.Proofs.Expr.Structure

/-!
# The structure of a transformed expression

A transformation answers for a node or rebuilds it from its transformed parts. A
rebuilt node keeps its form: it calls the same capability and binds the same
placeholder as before.
-/

namespace StagedQuery.Expr

variable {replace : Expr → Option Expr}

/-- A node of the same form with transformed parts. -/
def rebuilt (replace : Expr → Option Expr) : Expr → Expr
  | .read slot => .read slot
  | .constant value => .constant value
  | .member target name shape => .member (target.transform replace) name shape
  | .service capability method arguments shape answer =>
    .service capability method (transformAll replace arguments) shape answer
  | .binary op left right => .binary op (left.transform replace) (right.transform replace)
  | .conditional test whenTrue whenFalse =>
    .conditional (test.transform replace) (whenTrue.transform replace) (whenFalse.transform replace)
  | .convert operand kind => .convert (operand.transform replace) kind
  | .object name fields => .object name (transformFields replace fields)
  | .scope slot value body => .scope slot (value.transform replace) (body.transform replace)
  | .map source slot body => .map (source.transform replace) slot (body.transform replace)
  | .filter source slot test => .filter (source.transform replace) slot (test.transform replace)
  | .find source slot test => .find (source.transform replace) slot (test.transform replace)
  | .sort source slot keys => .sort (source.transform replace) slot (transformKeys replace keys)
  | .slice source skip take => .slice (source.transform replace) skip take

/-- A transformation answers for a node or rebuilds it. -/
theorem transform_eq (expr : Expr) :
    expr.transform replace = (replace expr).getD (expr.rebuilt replace) := by
  cases expr <;> rfl

/-- A replaced node is the answer itself. -/
theorem transform_of_some {expr answer : Expr} (replaced : replace expr = some answer) :
    expr.transform replace = answer := by
  rw [transform_eq, replaced, Option.getD_some]

/-- Any other node is rebuilt. -/
theorem transform_of_none {expr : Expr} (kept : replace expr = none) :
    expr.transform replace = expr.rebuilt replace := by
  rw [transform_eq, kept, Option.getD_none]

/-- A pass over arguments rewrites each of them. -/
theorem transformAll_eq_map (arguments : List Expr) :
    transformAll replace arguments = arguments.map (transform replace) := by
  induction arguments with
  | nil => rfl
  | cons first rest ih => simp [transformAll, ih]

/-- A pass over members rewrites their expressions and keeps their names. -/
theorem transformFields_eq_map (fields : List (String × Expr)) :
    transformFields replace fields =
      fields.map fun field => (field.1, field.2.transform replace) := by
  induction fields with
  | nil => rfl
  | cons first rest ih => simp [transformFields, ih]

/-- A pass over sort keys rewrites each of them and keeps its direction. -/
theorem transformKeys_eq_map (keys : List (Expr × Direction)) :
    transformKeys replace keys = keys.map fun key => (key.1.transform replace, key.2) := by
  induction keys with
  | nil => rfl
  | cons first rest ih => simp [transformKeys, ih]

section Rebuilt

variable {expr : Expr} (kept : replace expr = none)
include kept

/-- The parts of a rebuilt node are the transformed parts of the node. -/
theorem children_transform :
    (expr.transform replace).children = expr.children.map (transform replace) := by
  rw [transform_of_none kept]
  cases expr with
  | service => exact transformAll_eq_map _
  | object =>
    simp only [rebuilt, children, transformFields_eq_map, List.map_map, Function.comp_def]
  | sort =>
    simp only [rebuilt, children, transformKeys_eq_map, List.map_cons, List.map_map,
      Function.comp_def]
  | _ => rfl

/-- A node that is not replaced calls what it called before. -/
theorem ownCapability?_transform :
    (expr.transform replace).ownCapability? = expr.ownCapability? := by
  rw [transform_of_none kept]
  cases expr <;> rfl

/-- A node that is not replaced binds what it bound before. -/
theorem ownBinder?_transform : (expr.transform replace).ownBinder? = expr.ownBinder? := by
  rw [transform_of_none kept]
  cases expr <;> rfl

/-- A pass rewrites the parts outside the binder of a node. -/
theorem outerParts_transform :
    (expr.transform replace).outerParts = expr.outerParts.map (transform replace) := by
  have parts := children_transform kept
  rw [transform_of_none kept] at parts ⊢
  cases expr with
  | service | object => exact parts
  | _ => rfl

/-- A pass rewrites the parts inside the binder of a node. -/
theorem innerParts_transform :
    (expr.transform replace).innerParts = expr.innerParts.map (transform replace) := by
  rw [transform_of_none kept]
  cases expr with
  | sort => simp only [rebuilt, innerParts, transformKeys_eq_map, List.map_map, Function.comp_def]
  | _ => rfl

/-- A rebuilt read is the read that it was. -/
theorem eq_read_of_transform {slot : Placeholder} (same : expr.transform replace = .read slot) :
    expr = .read slot := by
  rw [transform_of_none kept] at same
  cases expr <;> cases same
  rfl

end Rebuilt

/-- A transformation brings no service into an expression beside those that its answers
    bring. -/
theorem callsOnly_transform {known : Capability → Prop} (expr : Expr) (calls : expr.CallsOnly known)
    (answers : ∀ node answer, replace node = some answer → answer.CallsOnly known) :
    (expr.transform replace).CallsOnly known := by
  induction expr using Expr.childInduction with
  | step expr below =>
    cases replaced : replace expr with
    | some answer =>
      rw [transform_of_some replaced]
      exact answers expr answer replaced
    | none =>
      obtain ⟨own, parts⟩ := (callsOnly_iff expr).mp calls
      rw [callsOnly_iff, ownCapability?_transform replaced, children_transform replaced]
      refine ⟨own, ?_⟩
      intro part inside
      obtain ⟨original, found, rfl⟩ := List.mem_map.mp inside
      exact below original found (parts original found)

/-! ## Substitution -/

/-- What stands for a chain is the source itself or a member of it. -/
theorem replacement?_cases {root : Placeholder} {source node answer : Expr}
    (replaced : replacement? root source node = some answer) :
    ∃ path, node.chain? root = some path ∧
      ((∃ shape, source.shape.member? (extractedName path) = some shape ∧
          answer = .member source (extractedName path) shape) ∨
        (source.shape.member? (extractedName path) = none ∧ path = [] ∧ answer = source)) := by
  unfold replacement? at replaced
  split at replaced
  · cases replaced
  · rename_i path chained
    refine ⟨path, chained, ?_⟩
    split at replaced
    · rename_i shape declared
      exact .inl ⟨shape, declared, (Option.some.inj replaced).symm⟩
    · rename_i absent
      split at replaced
      · rename_i empty
        exact .inr ⟨absent, List.isEmpty_iff.mp empty, (Option.some.inj replaced).symm⟩
      · cases replaced

/-- After a substitution the services are called that were called before and those that the
    source calls. -/
theorem callsOnly_substitute {known : Capability → Prop} {expr source : Expr}
    (calls : expr.CallsOnly known) (callsToo : source.CallsOnly known) (root : Placeholder) :
    (expr.substitute root source).CallsOnly known := by
  apply callsOnly_transform expr calls
  intro node answer replaced
  obtain ⟨path, -, ⟨shape, -, rfl⟩ | ⟨-, -, rfl⟩⟩ := replacement?_cases replaced
  · rwa [callsOnly_member]
  · exact callsToo

/-- What is free after a substitution was free before and is not the placeholder that is
    gone, or is free in what has taken its place. -/
theorem free_substitute {expr source : Expr} {root : Placeholder} {number : Nat}
    (inside : number ∈ (expr.substitute root source).free) :
    number ∈ expr.free ∧ number ≠ root.number ∨ number ∈ source.free := by
  induction expr using Expr.childInduction with
  | step expr below =>
    unfold substitute at inside
    cases replaced : replacement? root source expr with
    | some answer =>
      rw [transform_of_some replaced] at inside
      obtain ⟨path, -, ⟨shape, -, rfl⟩ | ⟨-, -, rfl⟩⟩ := replacement?_cases replaced
      · exact .inr inside
      · exact .inr inside
    | none =>
      rw [mem_free_iff, outerParts_transform replaced, innerParts_transform replaced,
        ownBinder?_transform replaced] at inside
      rcases inside with ⟨slot, same, rfl⟩ | ⟨part, listed, free⟩ |
          ⟨slot, binds, other, part, listed, free⟩
      · -- A read of the root would have been replaced.
        obtain rfl := eq_read_of_transform replaced same
        refine .inl ⟨by simp [Expr.free], ?_⟩
        intro isRoot
        have chained : (Expr.read slot).chain? root = some [] := by
          simp [chain?, Placeholder.is, isRoot]
        simp only [replacement?, chained, List.isEmpty_nil, ↓reduceIte] at replaced
        split at replaced <;> cases replaced
      · obtain ⟨original, found, rfl⟩ := List.mem_map.mp listed
        have child : original ∈ expr.children := by simp [children_eq_append, found]
        rcases below original child free with ⟨before, different⟩ | new
        · exact .inl ⟨mem_free_of_outer found before, different⟩
        · exact .inr new
      · obtain ⟨original, found, rfl⟩ := List.mem_map.mp listed
        have child : original ∈ expr.children := by simp [children_eq_append, found]
        rcases below original child free with ⟨before, different⟩ | new
        · exact .inl ⟨mem_free_of_inner binds found before other, different⟩
        · exact .inr new

end StagedQuery.Expr
