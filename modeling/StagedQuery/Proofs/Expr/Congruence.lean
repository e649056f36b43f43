import Mathlib.Data.List.Forall2
import StagedQuery.Evaluation
import StagedQuery.Proofs.Expr.Substitution

/-!
# What an outcome depends on

The outcome of an expression depends on the environment only through its free
placeholders and on the provider only through the answers to its calls. Two
providers need not have the same instances: it is enough that what they have
answers every call of the expression alike.
-/

namespace StagedQuery

/-! ## Environments -/

namespace Environment

/-- A placeholder that is bound last hides what was bound to its number before. -/
theorem value?_bind (env : Environment) (slot other : Placeholder) (value : Value) :
    (env.bind slot value).value? other =
      if slot.number = other.number then some value else env.value? other := rfl

/-- A lookup goes by number. -/
theorem value?_congr {env : Environment} {slot other : Placeholder}
    (same : slot.number = other.number) : env.value? slot = env.value? other := by
  induction env with
  | nil => rfl
  | cons head outer ih =>
    obtain ⟨number, value⟩ := head
    simp only [value?, same, ih]

/-- Two environments give the listed placeholders the same values. -/
def AgreeOn (numbers : List Nat) (env env' : Environment) : Prop :=
  ∀ slot : Placeholder, slot.number ∈ numbers → env.value? slot = env'.value? slot

variable {numbers fewer : List Nat} {env env' : Environment}

/-- Environments that agree on some numbers agree on fewer. -/
theorem AgreeOn.mono (agree : AgreeOn numbers env env')
    (subset : ∀ number ∈ fewer, number ∈ numbers) : AgreeOn fewer env env' := by
  intro slot inside
  exact agree slot (subset slot.number inside)

/-- Below a binder the environments agree on one placeholder more. -/
theorem AgreeOn.bind (slot : Placeholder)
    (agree : AgreeOn (numbers.filter (· ≠ slot.number)) env env') (value : Value) :
    AgreeOn numbers (env.bind slot value) (env'.bind slot value) := by
  intro other inside
  rw [value?_bind, value?_bind]
  split
  · rfl
  · rename_i different
    exact agree other (List.mem_filter.mpr ⟨inside, by simpa using Ne.symm different⟩)

end Environment

/-! ## Providers -/

/-- Two providers answer a call alike: neither has an instance, or the instances that they have
    take it to one outcome, whatever its arguments. -/
def Provider.AnswerAlike (P Q : Provider) (capability : Capability) (method : String)
    (answer : ServiceAnswer) : Prop :=
  Option.Rel
    (fun found found' => ∀ values, callService capability method answer found values =
      callService capability method answer found' values)
    (P capability) (Q capability)

/-- Providers that have the same instance answer alike. -/
theorem Provider.AnswerAlike.of_eq {P Q : Provider} {capability : Capability}
    (same : P capability = Q capability) (method : String) (answer : ServiceAnswer) :
    P.AnswerAlike Q capability method answer := by
  unfold AnswerAlike
  rw [same]
  cases Q capability with
  | none => exact .none
  | some found => exact .some fun _ => rfl

namespace Expr

open Environment

variable {P Q : Provider} {env env' : Environment}

/-- Two providers answer the call alike that a node itself makes, if it makes one. -/
def AnsweredAlike (P Q : Provider) : Expr → Prop
  | .service capability method _ _ answer => P.AnswerAlike Q capability method answer
  | _ => True

/-- It is enough that the providers have the same instance. -/
theorem AnsweredAlike.of_eq {expr : Expr}
    (same : ∀ capability, expr.ownCapability? = some capability → P capability = Q capability) :
    AnsweredAlike P Q expr := by
  cases expr with
  | service capability method arguments shape answer =>
    exact Provider.AnswerAlike.of_eq (same capability rfl) method answer
  | _ => trivial

/-! ## Lists of parts -/

/-- Two expressions have the same outcome, each under its own provider and environment. -/
def EvaluateAlike (P Q : Provider) (env env' : Environment) (left right : Expr) : Prop :=
  left.evaluate P env = right.evaluate Q env'

section Parts

/-- Arguments that are evaluated alike one by one have the same values together. -/
theorem evaluateAll_congr {left right : List Expr}
    (each : List.Forall₂ (EvaluateAlike P Q env env') left right) :
    evaluateAll P left env = evaluateAll Q right env' := by
  induction each with
  | nil => rfl
  | cons same _ ih =>
    simp only [evaluateAll]
    rw [same, ih]

/-- Members of the same names that are evaluated alike one by one have the same values together. -/
theorem evaluateFields_congr {left right : List (String × Expr)}
    (names : left.map Prod.fst = right.map Prod.fst)
    (each : List.Forall₂ (EvaluateAlike P Q env env') (left.map Prod.snd) (right.map Prod.snd)) :
    evaluateFields P left env = evaluateFields Q right env' := by
  induction left generalizing right with
  | nil =>
    obtain rfl := List.map_eq_nil_iff.mp names.symm
    rfl
  | cons first rest ih =>
    obtain ⟨other, others, rfl, same, names⟩ := List.map_eq_cons_iff.mp names.symm
    simp only [List.map_cons, List.forall₂_cons] at each
    simp only [evaluateFields]
    rw [each.1, ih names.symm each.2, same]

/-- Sort keys that are evaluated alike one by one have the same values together. Directions are no
    part of it. -/
theorem evaluateKeys_congr {left right : List (Expr × Direction)}
    (each : List.Forall₂ (EvaluateAlike P Q env env') (left.map Prod.fst) (right.map Prod.fst)) :
    evaluateKeys P left env = evaluateKeys Q right env' := by
  induction left generalizing right with
  | nil =>
    obtain rfl := List.map_eq_nil_iff.mp (List.forall₂_nil_left_iff.mp each)
    rfl
  | cons first rest ih =>
    obtain ⟨expr, exprs, same, each, listed⟩ := List.forall₂_cons_left_iff.mp each
    obtain ⟨other, others, rfl, rfl, rfl⟩ := List.map_eq_cons_iff.mp listed
    simp only [evaluateKeys]
    rw [same, ih each]

end Parts

/-! ## Nodes with one head -/

/-- What the evaluations of two nodes agree on: the answer to the call that they make, the
    value that they read, and the outcomes of their parts, below their binders for every value
    that is bound. -/
structure PartsAgree (P Q : Provider) (env env' : Environment) (left right : Expr) : Prop where
  head : left.head = right.head
  own : AnsweredAlike P Q left
  read : ∀ slot slot', left = .read slot → right = .read slot' →
    EvaluateAlike P Q env env' left right
  outer : List.Forall₂ (EvaluateAlike P Q env env') left.outerParts right.outerParts
  inner : ∀ slot slot', left.ownBinder? = some slot → right.ownBinder? = some slot' → ∀ value,
    List.Forall₂ (EvaluateAlike P Q (env.bind slot value) (env'.bind slot' value))
      left.innerParts right.innerParts

/-- Nodes with one head whose parts have the same outcomes have the same outcome.

    Proof: cases over the forms. Each form hands its environment to its outer parts and an
    extended one to its inner parts, and looks at nothing else. -/
theorem evaluate_of_parts {left right : Expr} (agree : PartsAgree P Q env env' left right) :
    left.evaluate P env = right.evaluate Q env' := by
  obtain ⟨head, own, read, outer, inner⟩ := agree
  cases left with
  | read slot =>
    cases right with
    | read slot' => exact read slot slot' rfl rfl
    | _ => cases head
  | constant value =>
    cases right with
    | constant value' =>
      cases head
      rfl
    | _ => cases head
  | member target name shape =>
    cases right with
    | member target' name' shape' =>
      obtain rfl : name = name' := by simpa [Expr.head] using head
      simp only [outerParts, children, List.forall₂_cons, EvaluateAlike] at outer
      simp only [evaluate]
      rw [outer.1]
    | _ => cases head
  | service capability method arguments shape answer =>
    cases right with
    | service capability' method' arguments' shape' answer' =>
      simp only [Expr.head, service.injEq] at head
      obtain ⟨rfl, rfl, -, -, rfl⟩ := head
      have values : evaluateAll P arguments env = evaluateAll Q arguments' env' :=
        evaluateAll_congr outer
      simp only [evaluate, values]
      simp only [AnsweredAlike, Provider.AnswerAlike] at own
      generalize P capability = found, Q capability = found' at own ⊢
      cases own with
      | none => rfl
      | some alike => simp only [alike]
    | _ => cases head
  | binary op first second =>
    cases right with
    | binary op' first' second' =>
      obtain rfl : op = op' := by simpa [Expr.head] using head
      simp only [outerParts, children, List.forall₂_cons, EvaluateAlike] at outer
      simp only [evaluate]
      rw [outer.1, outer.2.1]
    | _ => cases head
  | conditional test whenTrue whenFalse =>
    cases right with
    | conditional test' whenTrue' whenFalse' =>
      simp only [outerParts, children, List.forall₂_cons, EvaluateAlike] at outer
      simp only [evaluate]
      rw [outer.1, outer.2.1, outer.2.2.1]
    | _ => cases head
  | convert operand kind =>
    cases right with
    | convert operand' kind' =>
      obtain rfl : kind = kind' := by simpa [Expr.head] using head
      simp only [outerParts, children, List.forall₂_cons, EvaluateAlike] at outer
      simp only [evaluate]
      rw [outer.1]
    | _ => cases head
  | object name fields =>
    cases right with
    | object name' fields' =>
      simp only [Expr.head, object.injEq] at head
      have names := congrArg (List.map Prod.fst) head.2
      simp only [List.map_map, Function.comp_def] at names
      simp only [evaluate]
      rw [evaluateFields_congr names outer]
    | _ => cases head
  | scope slot value body =>
    cases right with
    | scope slot' value' body' =>
      simp only [outerParts, List.forall₂_cons, EvaluateAlike] at outer
      simp only [innerParts, List.forall₂_cons, EvaluateAlike] at inner
      simp only [evaluate]
      rw [outer.1]
      simp only [(inner slot slot' rfl rfl _).1]
    | _ => cases head
  | map source slot body =>
    cases right with
    | map source' slot' body' =>
      simp only [outerParts, List.forall₂_cons, EvaluateAlike] at outer
      simp only [innerParts, List.forall₂_cons, EvaluateAlike] at inner
      simp only [evaluate]
      rw [outer.1]
      simp only [(inner slot slot' rfl rfl _).1]
    | _ => cases head
  | filter source slot test =>
    cases right with
    | filter source' slot' test' =>
      simp only [outerParts, List.forall₂_cons, EvaluateAlike] at outer
      simp only [innerParts, List.forall₂_cons, EvaluateAlike] at inner
      simp only [evaluate]
      rw [outer.1]
      simp only [(inner slot slot' rfl rfl _).1]
    | _ => cases head
  | find source slot test =>
    cases right with
    | find source' slot' test' =>
      simp only [outerParts, List.forall₂_cons, EvaluateAlike] at outer
      simp only [innerParts, List.forall₂_cons, EvaluateAlike] at inner
      simp only [evaluate]
      rw [outer.1]
      simp only [(inner slot slot' rfl rfl _).1]
    | _ => cases head
  | sort source slot keys =>
    cases right with
    | sort source' slot' keys' =>
      simp only [outerParts, List.forall₂_cons, EvaluateAlike] at outer
      simp only [Expr.head, sort.injEq] at head
      have directions := congrArg (List.map Prod.snd) head.2.2
      simp only [List.map_map, Function.comp_def] at directions
      have within (item : Value) := evaluateKeys_congr (inner slot slot' rfl rfl item)
      simp only [evaluate]
      rw [outer.1, directions]
      simp only [within]
    | _ => cases head
  | slice source skip take =>
    cases right with
    | slice source' skip' take' =>
      simp only [Expr.head, slice.injEq] at head
      obtain ⟨-, rfl, rfl⟩ := head
      simp only [outerParts, children, List.forall₂_cons, EvaluateAlike] at outer
      simp only [evaluate]
      rw [outer.1]
    | _ => cases head

/-- A node that is rebuilt from transformed parts keeps its head. -/
theorem head_transform {replace : Expr → Option Expr} {expr : Expr} (kept : replace expr = none) :
    (expr.transform replace).head = expr.head := by
  rw [transform_of_none kept]
  cases expr with
  | service =>
    simp only [rebuilt, head, transformAll_eq_map, List.map_map, Function.comp_def]
  | object =>
    simp only [rebuilt, head, transformFields_eq_map, List.map_map, Function.comp_def]
  | sort => simp only [rebuilt, head, transformKeys_eq_map, List.map_map, Function.comp_def]
  | _ => rfl

/-- A node that is rebuilt from parts with the same outcomes has the same outcome. -/
theorem evaluate_rebuilt {replace : Expr → Option Expr} {expr : Expr} (kept : replace expr = none)
    (own : AnsweredAlike P Q expr)
    (read : ∀ slot, expr = .read slot → env.value? slot = env'.value? slot)
    (outer : ∀ part ∈ expr.outerParts, EvaluateAlike P Q env env' part (part.transform replace))
    (inner : ∀ slot, expr.ownBinder? = some slot → ∀ part ∈ expr.innerParts, ∀ value,
      EvaluateAlike P Q (env.bind slot value) (env'.bind slot value) part
        (part.transform replace)) :
    expr.evaluate P env = (expr.transform replace).evaluate Q env' := by
  refine evaluate_of_parts ⟨(head_transform kept).symm, own, ?_, ?_, ?_⟩
  · rintro slot slot' rfl same
    rw [EvaluateAlike, same]
    obtain rfl : slot = slot' := by simpa using eq_read_of_transform kept same
    simp only [evaluate, read slot rfl]
  · rw [outerParts_transform kept, List.forall₂_map_right_iff, List.forall₂_same]
    exact outer
  · intro slot slot' binds bindsToo value
    obtain rfl : slot = slot' := by
      rw [ownBinder?_transform kept, binds] at bindsToo
      exact Option.some.inj bindsToo
    rw [innerParts_transform kept, List.forall₂_map_right_iff, List.forall₂_same]
    exact fun part inside => inner slot binds part inside value

/-! ## Congruence -/

/-- Two providers answer all calls of an expression alike. -/
def ProvidersAgree (P Q : Provider) (expr : Expr) : Prop :=
  ∀ node ∈ expr.nodes, AnsweredAlike P Q node

/-- A provider answers as it answers itself. -/
theorem ProvidersAgree.refl (provider : Provider) (expr : Expr) :
    ProvidersAgree provider provider expr :=
  fun _ _ => .of_eq fun _ _ => rfl

/-- Providers that answer the calls of an expression alike do so for each of its parts. -/
theorem ProvidersAgree.part {expr part : Expr} (agree : ProvidersAgree P Q expr)
    (inside : part ∈ expr.children) : ProvidersAgree P Q part :=
  ((forall_nodes_iff expr).mp agree).2 part inside

/-- The outcome of an expression is a function of the values of its free placeholders and of
    the answers to its calls.

    Proof: induction over the parts. A binder extends both environments alike, so below it
    they agree on one placeholder more. -/
theorem evaluate_congr (expr : Expr) (agree : AgreeOn expr.free env env')
    (providers : ProvidersAgree P Q expr) : expr.evaluate P env = expr.evaluate Q env' := by
  induction expr using Expr.childInduction generalizing env env' with
  | step expr below =>
    refine evaluate_of_parts ⟨rfl, ((forall_nodes_iff expr).mp providers).1, ?_, ?_, ?_⟩
    · rintro slot slot' rfl ⟨⟩
      simp only [EvaluateAlike, evaluate, agree slot (by simp [free])]
    · rw [List.forall₂_same]
      intro part inside
      have child : part ∈ expr.children := by simp [children_eq_append, inside]
      exact below part child (agree.mono fun number => mem_free_of_outer inside)
        (providers.part child)
    · intro slot slot' binds bindsToo value
      obtain rfl := Option.some.inj (binds.symm.trans bindsToo)
      rw [List.forall₂_same]
      intro part inside
      have child : part ∈ expr.children := by simp [children_eq_append, inside]
      have outside : AgreeOn (part.free.filter (· ≠ slot.number)) env env' := by
        apply agree.mono
        intro number found
        obtain ⟨free, other⟩ := List.mem_filter.mp found
        exact mem_free_of_inner binds inside free (by simpa using other)
      exact below part child (outside.bind slot value) (providers.part child)

end Expr

end StagedQuery
