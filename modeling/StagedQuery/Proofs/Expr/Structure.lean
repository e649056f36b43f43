import StagedQuery.Expr.Basic

/-!
# The structure of expressions

Expressions hold lists of expressions: service arguments, object fields and sort
keys. The induction principle stated here gives one hypothesis for each such
list, so a proof follows the fourteen forms and needs no companion lists.

A placeholder is free where it is read outside the binders of it, and bound where
a form binds it. Both are listed by number, the identity of a placeholder.
-/

namespace StagedQuery.Expr

/-- Induction over the forms of an expression. The parts of a list are covered by a
    hypothesis about every member of the list. -/
@[elab_as_elim]
theorem induction {motive : Expr → Prop}
    (read : ∀ slot, motive (.read slot))
    (constant : ∀ value, motive (.constant value))
    (member : ∀ target name shape, motive target → motive (.member target name shape))
    (service : ∀ capability method arguments shape answer,
      (∀ argument ∈ arguments, motive argument) →
        motive (.service capability method arguments shape answer))
    (binary : ∀ op left right, motive left → motive right → motive (.binary op left right))
    (conditional : ∀ test whenTrue whenFalse, motive test → motive whenTrue →
      motive whenFalse → motive (.conditional test whenTrue whenFalse))
    (convert : ∀ operand kind, motive operand → motive (.convert operand kind))
    (object : ∀ name fields, (∀ field ∈ fields, motive field.2) →
      motive (.object name fields))
    (scope : ∀ slot value body, motive value → motive body → motive (.scope slot value body))
    (map : ∀ source slot body, motive source → motive body → motive (.map source slot body))
    (filter : ∀ source slot test, motive source → motive test →
      motive (.filter source slot test))
    (find : ∀ source slot test, motive source → motive test → motive (.find source slot test))
    (sort : ∀ source slot keys, motive source → (∀ key ∈ keys, motive key.1) →
      motive (.sort source slot keys))
    (slice : ∀ source skip take, motive source → motive (.slice source skip take))
    (expr : Expr) : motive expr := by
  refine @Expr.rec motive
    (fun arguments => ∀ argument ∈ arguments, motive argument)
    (fun fields => ∀ field ∈ fields, motive field.2)
    (fun keys => ∀ key ∈ keys, motive key.1)
    (fun field => motive field.2)
    (fun key => motive key.1)
    read constant member service binary conditional convert object scope map filter find sort
    slice ?noArguments ?someArguments ?noFields ?someFields ?noKeys ?someKeys
    (fun _ _ part => part) (fun _ _ part => part) expr
  case noArguments | noFields | noKeys => exact List.forall_mem_nil _
  case someArguments | someFields | someKeys =>
    exact fun _ _ first rest => List.forall_mem_cons.mpr ⟨first, rest⟩

/-- Induction that treats all forms alike: a property passes from the parts of an
    expression to the expression. -/
@[elab_as_elim]
theorem childInduction {motive : Expr → Prop}
    (step : ∀ expr : Expr, (∀ part ∈ expr.children, motive part) → motive expr)
    (expr : Expr) : motive expr := by
  induction expr using Expr.induction with
  | read | constant => exact step _ (List.forall_mem_nil _)
  | member _ _ _ part | convert _ _ part | slice _ _ _ part =>
    exact step _ (List.forall_mem_singleton.mpr part)
  | service _ _ arguments _ _ each => exact step _ each
  | binary _ _ _ first second | scope _ _ _ first second | map _ _ _ first second
  | filter _ _ _ first second | find _ _ _ first second =>
    exact step _ (List.forall_mem_cons.mpr ⟨first, List.forall_mem_singleton.mpr second⟩)
  | conditional _ _ _ test whenTrue whenFalse =>
    exact step _ (List.forall_mem_cons.mpr ⟨test, List.forall_mem_cons.mpr
      ⟨whenTrue, List.forall_mem_singleton.mpr whenFalse⟩⟩)
  | object name fields each => exact step _ (List.forall_mem_map.mpr each)
  | sort source slot keys first each =>
    exact step _ (List.forall_mem_cons.mpr ⟨first, List.forall_mem_map.mpr each⟩)

/-! ## Heads -/

/-- What stands for a part that is blanked out. -/
def blank : Expr :=
  .constant .null

/-- What stands for a placeholder that is blanked out. -/
def blankSlot : Placeholder :=
  ⟨0, "", .any⟩

/-- The head of an expression, a node on its own: its parts, the placeholder that it reads or
    binds and the shapes that it states are blanked out. -/
def head : Expr → Expr
  | .read _ => .read blankSlot
  | .constant value => .constant value
  | .member _ name _ => .member blank name .any
  | .service capability method arguments _ answer =>
    .service capability method (arguments.map fun _ => blank) .any answer
  | .binary op _ _ => .binary op blank blank
  | .conditional _ _ _ => .conditional blank blank blank
  | .convert _ kind => .convert blank kind
  | .object _ fields => .object "" (fields.map fun field => (field.1, blank))
  | .scope _ _ _ => .scope blankSlot blank blank
  | .map _ _ _ => .map blank blankSlot blank
  | .filter _ _ _ => .filter blank blankSlot blank
  | .find _ _ _ => .find blank blankSlot blank
  | .sort _ _ keys => .sort blank blankSlot (keys.map fun key => (blank, key.2))
  | .slice _ skip take => .slice blank skip take

/-! ## Visited nodes -/

section Walk

variable (enter : Expr → Bool)

/-- A walk over arguments is the walks over each of them, in order. -/
theorem walkAll_eq_flatMap (arguments : List Expr) :
    walkAll enter arguments = arguments.flatMap (walk enter) := by
  induction arguments with
  | nil => rfl
  | cons first rest ih => simp [walkAll, ih]

/-- A walk over members is the walks over each of their expressions, in order. -/
theorem walkFields_eq_flatMap (fields : List (String × Expr)) :
    walkFields enter fields = fields.flatMap fun field => field.2.walk enter := by
  induction fields with
  | nil => rfl
  | cons first rest ih => simp [walkFields, ih]

/-- A walk over sort keys is the walks over each of them, in order. -/
theorem walkKeys_eq_flatMap (keys : List (Expr × Direction)) :
    walkKeys enter keys = keys.flatMap fun key => key.1.walk enter := by
  induction keys with
  | nil => rfl
  | cons first rest ih => simp [walkKeys, ih]

/-- A walk starts at the root and goes on below it unless the root is refused. -/
theorem walk_eq (expr : Expr) :
    expr.walk enter =
      expr :: if enter expr then expr.children.flatMap (walk enter) else [] := by
  cases expr <;>
    simp [walk, children, walkAll_eq_flatMap, walkFields_eq_flatMap, walkKeys_eq_flatMap,
      List.flatMap_map]

end Walk

/-- The nodes of an expression are its root and the nodes of its parts. -/
theorem nodes_eq (expr : Expr) : expr.nodes = expr :: expr.children.flatMap nodes := by
  rw [nodes, walk_eq]
  rfl

/-- A property of all nodes holds at the root and at the nodes of every part. -/
theorem forall_nodes_iff {property : Expr → Prop} (expr : Expr) :
    (∀ node ∈ expr.nodes, property node) ↔
      property expr ∧ ∀ part ∈ expr.children, ∀ node ∈ part.nodes, property node := by
  rw [nodes_eq]
  simp only [List.mem_cons, List.mem_flatMap]
  constructor
  · intro all
    constructor
    · exact all expr (.inl rfl)
    · intro part inside node found
      exact all node (.inr ⟨part, inside, found⟩)
  · rintro ⟨root, below⟩ node (rfl | ⟨part, inside, found⟩)
    · exact root
    · exact below part inside node found

/-! ## Calls of services -/

/-- An expression calls a service exactly if its root or one of its parts does. -/
theorem hasServices_eq (expr : Expr) :
    expr.hasServices = (expr.ownCapability?.isSome || expr.children.any hasServices) := by
  rw [hasServices, nodes_eq, List.any_cons, List.any_flatMap]
  rfl

/-- Every service that is called in an expression is of a capability among certain ones. -/
def CallsOnly (known : Capability → Prop) (expr : Expr) : Prop :=
  ∀ node ∈ expr.nodes, ∀ capability, node.ownCapability? = some capability → known capability

/-- An expression calls some capabilities only if it calls one of them itself or none, and its
    parts call those only. -/
theorem callsOnly_iff {known : Capability → Prop} (expr : Expr) :
    expr.CallsOnly known ↔
      (∀ capability, expr.ownCapability? = some capability → known capability) ∧
        ∀ part ∈ expr.children, part.CallsOnly known :=
  forall_nodes_iff expr

/-- An expression calls some capabilities only if all that are listed for it are among them. -/
theorem callsOnly_iff_capabilities {known : Capability → Prop} (expr : Expr) :
    expr.CallsOnly known ↔ ∀ capability ∈ expr.capabilities, known capability := by
  simp only [CallsOnly, capabilities, List.mem_eraseDups, List.mem_filterMap]
  grind

/-- An expression that calls no service calls those of no capability. -/
theorem callsOnly_false_iff (expr : Expr) :
    (expr.CallsOnly fun _ => False) ↔ expr.hasServices = false := by
  simp [CallsOnly, hasServices, Option.eq_none_iff_forall_ne_some]

/-- An expression without services calls only what is known, whatever that is. -/
theorem callsOnly_of_silent {known : Capability → Prop} {expr : Expr}
    (silent : expr.hasServices = false) : expr.CallsOnly known := by
  intro node inside capability calls
  exact ((callsOnly_false_iff expr).mpr silent node inside capability calls).elim

section Forms

variable {known : Capability → Prop} (target left right : Expr) (name : String)
  (slot : Placeholder)

/-- A read calls nothing. -/
@[simp] theorem callsOnly_read : (read slot).CallsOnly known := by
  simp [callsOnly_iff (read _), ownCapability?, children]

/-- Taking a member calls what its target does. -/
@[simp] theorem callsOnly_member (shape : Shape) :
    (member target name shape).CallsOnly known ↔ target.CallsOnly known := by
  simp [callsOnly_iff (member _ _ _), ownCapability?, children]

/-- A member with the shape that its target declares calls what the target does. -/
@[simp] theorem callsOnly_get : (target.get name).CallsOnly known ↔ target.CallsOnly known := by
  rw [get, callsOnly_member]

/-- An operator calls what its operands do. -/
@[simp] theorem callsOnly_binary (op : BinaryOp) :
    (binary op left right).CallsOnly known ↔ left.CallsOnly known ∧ right.CallsOnly known := by
  simp [callsOnly_iff (binary _ _ _), ownCapability?, children]

/-- A conversion calls what its target does. -/
@[simp] theorem callsOnly_convert (kind : ScalarKind) :
    (convert target kind).CallsOnly known ↔ target.CallsOnly known := by
  simp [callsOnly_iff (convert _ _), ownCapability?, children]

/-- An object calls what its members do. -/
@[simp] theorem callsOnly_object (fields : List (String × Expr)) :
    (object name fields).CallsOnly known ↔
      ∀ member expr, (member, expr) ∈ fields → expr.CallsOnly known := by
  rw [callsOnly_iff, children, List.forall_mem_map]
  simp [ownCapability?]

/-- A scope calls what its value and its body do. -/
@[simp] theorem callsOnly_scope :
    (scope slot left right).CallsOnly known ↔ left.CallsOnly known ∧ right.CallsOnly known := by
  simp [callsOnly_iff (scope _ _ _), ownCapability?, children]

/-- A map calls what its source and its body do. -/
@[simp] theorem callsOnly_map :
    (map left slot right).CallsOnly known ↔ left.CallsOnly known ∧ right.CallsOnly known := by
  simp [callsOnly_iff (map _ _ _), ownCapability?, children]

/-- A filter calls what its source and its test do. -/
@[simp] theorem callsOnly_filter :
    (filter left slot right).CallsOnly known ↔ left.CallsOnly known ∧ right.CallsOnly known := by
  simp [callsOnly_iff (filter _ _ _), ownCapability?, children]

/-- A sort calls what its source and its keys do. -/
@[simp] theorem callsOnly_sort (keys : List (Expr × Direction)) :
    (sort target slot keys).CallsOnly known ↔
      target.CallsOnly known ∧ ∀ key ∈ keys, key.1.CallsOnly known := by
  simp [callsOnly_iff (sort _ _ _), ownCapability?, children]

/-- A slice calls what its target does. -/
@[simp] theorem callsOnly_slice (skip : Nat) (take : Option Nat) :
    (slice target skip take).CallsOnly known ↔ target.CallsOnly known := by
  simp [callsOnly_iff (slice _ _ _), ownCapability?, children]

/-- A read has no services. -/
@[simp] theorem hasServices_read : (read slot).hasServices = false := rfl

/-- Taking a member adds no service to its target. -/
@[simp] theorem hasServices_member (shape : Shape) :
    (member target name shape).hasServices = target.hasServices := by
  simp [hasServices_eq (member _ _ _), ownCapability?, children]

end Forms

/-! ## Free and bound placeholders -/

mutual

/-- The numbers of the placeholders that an expression reads and does not bind. -/
def free : Expr → List Nat
  | .read slot => [slot.number]
  | .constant _ => []
  | .member target _ _ => free target
  | .service _ _ arguments _ _ => freeAll arguments
  | .binary _ left right => free left ++ free right
  | .conditional test whenTrue whenFalse => free test ++ free whenTrue ++ free whenFalse
  | .convert operand _ => free operand
  | .object _ fields => freeFields fields
  | .scope slot value body => free value ++ (free body).filter (· ≠ slot.number)
  | .map source slot body => free source ++ (free body).filter (· ≠ slot.number)
  | .filter source slot test => free source ++ (free test).filter (· ≠ slot.number)
  | .find source slot test => free source ++ (free test).filter (· ≠ slot.number)
  | .sort source slot keys => free source ++ (freeKeys keys).filter (· ≠ slot.number)
  | .slice source _ _ => free source

/-- The free placeholders of some expressions. -/
def freeAll : List Expr → List Nat
  | [] => []
  | expr :: rest => free expr ++ freeAll rest

/-- The free placeholders of the fields of an object. -/
def freeFields : List (String × Expr) → List Nat
  | [] => []
  | (_, field) :: rest => free field ++ freeFields rest

/-- The free placeholders of sort keys. -/
def freeKeys : List (Expr × Direction) → List Nat
  | [] => []
  | (key, _) :: rest => free key ++ freeKeys rest

end

/-- A number is free in arguments exactly if it is in one of them. -/
theorem mem_freeAll {number : Nat} {arguments : List Expr} :
    number ∈ freeAll arguments ↔ ∃ argument ∈ arguments, number ∈ argument.free := by
  induction arguments with
  | nil => simp [freeAll]
  | cons first rest ih => simp [freeAll, ih]

/-- A number is free in members exactly if it is in the expression of one of them. -/
theorem mem_freeFields {number : Nat} {fields : List (String × Expr)} :
    number ∈ freeFields fields ↔ ∃ field ∈ fields, number ∈ field.2.free := by
  induction fields with
  | nil => simp [freeFields]
  | cons first rest ih => simp [freeFields, ih]

/-- A number is free in sort keys exactly if it is in one of them. -/
theorem mem_freeKeys {number : Nat} {keys : List (Expr × Direction)} :
    number ∈ freeKeys keys ↔ ∃ key ∈ keys, number ∈ key.1.free := by
  induction keys with
  | nil => simp [freeKeys]
  | cons first rest ih => simp [freeKeys, ih]

/-- The placeholder that a form binds in its last part. -/
def ownBinder? : Expr → Option Placeholder
  | .scope slot _ _ => some slot
  | .map _ slot _ => some slot
  | .filter _ slot _ => some slot
  | .find _ slot _ => some slot
  | .sort _ slot _ => some slot
  | _ => none

/-- The parts of a form outside its own binder: all of them if it binds nothing. -/
def outerParts : Expr → List Expr
  | .scope _ value _ => [value]
  | .map source _ _ => [source]
  | .filter source _ _ => [source]
  | .find source _ _ => [source]
  | .sort source _ _ => [source]
  | other => other.children

/-- The parts of a form below its own binder. -/
def innerParts : Expr → List Expr
  | .scope _ _ body => [body]
  | .map _ _ body => [body]
  | .filter _ _ test => [test]
  | .find _ _ test => [test]
  | .sort _ _ keys => keys.map Prod.fst
  | _ => []

/-- An expression and its head call the same capability. -/
theorem ownCapability?_head (expr : Expr) : expr.head.ownCapability? = expr.ownCapability? := by
  cases expr <;> rfl

/-- Either an expression and its head both bind a placeholder or neither does. -/
theorem isSome_ownBinder?_head (expr : Expr) :
    expr.head.ownBinder?.isSome = expr.ownBinder?.isSome := by
  cases expr <;> rfl

/-- An expression and its head have the same number of parts. -/
theorem length_parts_head (expr : Expr) :
    expr.head.outerParts.length = expr.outerParts.length ∧
      expr.head.innerParts.length = expr.innerParts.length := by
  cases expr <;> simp [head, outerParts, innerParts, children]

/-- What binds nothing has no parts below a binder. -/
theorem innerParts_of_ownBinder? {expr : Expr} (binds : expr.ownBinder? = none) :
    expr.innerParts = [] := by
  cases expr <;> cases binds <;> rfl

/-- The parts of an expression are those outside its binder and those inside, in this order. -/
theorem children_eq_append (expr : Expr) : expr.children = expr.outerParts ++ expr.innerParts := by
  cases expr <;> simp [children, outerParts, innerParts]

/-- A placeholder is free in a form if the form reads it itself, if it is free in a part
    outside the binder, or if it is free in a part below the binder of another one. -/
theorem mem_free_iff {expr : Expr} {number : Nat} :
    number ∈ expr.free ↔ (∃ slot, expr = .read slot ∧ number = slot.number) ∨
      (∃ part ∈ expr.outerParts, number ∈ part.free) ∨
      ∃ slot, expr.ownBinder? = some slot ∧ number ≠ slot.number ∧
        ∃ part ∈ expr.innerParts, number ∈ part.free := by
  cases expr with
  | object name fields =>
    simp only [free, outerParts, innerParts, children, ownBinder?, mem_freeFields, List.mem_map]
    grind
  | _ =>
    simp [free, outerParts, innerParts, children, ownBinder?, mem_freeAll, mem_freeKeys, and_comm]

/-- What is free in a part outside the binder is free in the form. -/
theorem mem_free_of_outer {expr part : Expr} (inside : part ∈ expr.outerParts) {number : Nat}
    (free : number ∈ part.free) : number ∈ expr.free :=
  mem_free_iff.mpr (.inr (.inl ⟨part, inside, free⟩))

/-- What is free in a part below the binder is free in the form unless the form binds it. -/
theorem mem_free_of_inner {expr part : Expr} {slot : Placeholder}
    (binds : expr.ownBinder? = some slot) (inside : part ∈ expr.innerParts) {number : Nat}
    (free : number ∈ part.free) (other : number ≠ slot.number) : number ∈ expr.free :=
  mem_free_iff.mpr (.inr (.inr ⟨slot, binds, other, part, inside, free⟩))

/-- Every placeholder that an expression binds satisfies a condition on its number. -/
def Binds (allowed : Nat → Prop) (expr : Expr) : Prop :=
  ∀ node ∈ expr.nodes, ∀ slot, node.ownBinder? = some slot → allowed slot.number

/-- An expression binds allowed numbers only if its own binder is allowed, if it has one, and its
    parts bind allowed numbers only. -/
theorem binds_iff {allowed : Nat → Prop} (expr : Expr) :
    expr.Binds allowed ↔
      (∀ slot, expr.ownBinder? = some slot → allowed slot.number) ∧
        ∀ part ∈ expr.children, part.Binds allowed :=
  forall_nodes_iff expr

/-- A read of a placeholder binds nothing. -/
theorem binds_read (allowed : Nat → Prop) (slot : Placeholder) : (read slot).Binds allowed := by
  rw [binds_iff]
  constructor
  · intro binder own
    cases own
  · intro part inside
    cases inside

/-- What binds allowed numbers only still does if more are allowed. -/
theorem Binds.mono {small large : Nat → Prop} {expr : Expr} (binds : expr.Binds small)
    (wider : ∀ number, small number → large number) : expr.Binds large := by
  intro node inside slot own
  exact wider slot.number (binds node inside slot own)

/-! ## Read placeholders -/

/-- A placeholder does not occur in an expression if the root does not read it and it occurs in
    no part. -/
theorem references_eq_false_iff (expr : Expr) (slot : Placeholder) :
    expr.references slot = false ↔
      (∀ other, expr = .read other → other.number ≠ slot.number) ∧
        ∀ part ∈ expr.children, part.references slot = false := by
  unfold references
  rw [nodes_eq, List.any_cons, List.any_flatMap, Bool.or_eq_false_iff, List.any_eq_false]
  cases expr <;> simp [Placeholder.is]

/-- A placeholder that does not occur in an expression is not free in it. -/
theorem not_mem_free_of_references {expr : Expr} {slot : Placeholder}
    (unread : expr.references slot = false) : slot.number ∉ expr.free := by
  induction expr using Expr.childInduction with
  | step expr below =>
    obtain ⟨own, parts⟩ := (references_eq_false_iff expr slot).mp unread
    intro free
    rcases mem_free_iff.mp free with ⟨other, rfl, same⟩ | ⟨part, inside, deeper⟩ |
        ⟨binder, -, -, part, inside, deeper⟩
    · exact own other rfl same.symm
    · have child : part ∈ expr.children := by simp [children_eq_append, inside]
      exact below part child (parts part child) deeper
    · have child : part ∈ expr.children := by simp [children_eq_append, inside]
      exact below part child (parts part child) deeper

end StagedQuery.Expr
