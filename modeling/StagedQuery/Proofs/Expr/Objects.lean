import StagedQuery.Proofs.Expr.Rebase
import StagedQuery.Proofs.Outcome

/-!
# Objects of distinct members

An object evaluates to the values of its fields, in order, under their names. If the names
are distinct, then the static shape of the object declares the shape of each field, and each
member of the value is the value of its field. So an object that has chains under the names of
chains carries their values.
-/

namespace StagedQuery

namespace Expr

variable {provider : Provider} {env : Environment}

/-- Members are evaluated in order: first those on the left, then those on the right. -/
theorem evaluateFields_append (left right : List (String × Expr)) :
    evaluateFields provider (left ++ right) env =
      evaluateFields provider left env >>= fun first =>
        evaluateFields provider right env >>= fun others => pure (first ++ others) := by
  induction left with
  | nil => simp [evaluateFields]
  | cons head rest ih =>
    simp only [List.cons_append, evaluateFields, ih, bind_assoc, pure_bind]

/-- The outcome of the object of some members. -/
def evaluateObject (provider : Provider) (members : List (String × Expr)) (env : Environment) :
    Outcome Value :=
  Value.ofPairs <$> evaluateFields provider members env

/-- An object has the outcome of its members, whatever its title. -/
theorem evaluate_object (title : String) (members : List (String × Expr)) :
    (object title members).evaluate provider env = evaluateObject provider members env := by
  simp only [evaluate, evaluateObject, map_eq_pure_bind]

/-- Fields with plain values make a plain object of them. -/
theorem evaluateObject_of_each {members : List (String × Expr)} {valueOf : Expr → Value}
    (each : ∀ member ∈ members, member.2.evaluate provider env = pure (valueOf member.2)) :
    evaluateObject provider members env =
      pure (Value.ofPairs (members.map fun member => (member.1, valueOf member.2))) := by
  have values : evaluateFields provider members env =
      pure (members.map fun member => (member.1, valueOf member.2)) := by
    induction members with
    | nil => rfl
    | cons head rest ih =>
      simp only [evaluateFields, each head (by simp), pure_bind,
        ih fun member inside => each member (by simp [inside]), List.map_cons]
  rw [evaluateObject, values, map_pure]

end Expr

section Objects

variable {provider : Provider} {env : Environment} {members : Members Expr} {stored : Value}

/-- The shape of an object of distinct members declares the shape of each. -/
theorem member?_shape_of_distinct (distinct : members.Distinct) (title name : String) :
    (Shape.ofPairs title (Expr.fieldShapes members)).member? name =
      (members.value? name).map Expr.shape := by
  have shapes : Expr.fieldShapes members =
      members.map fun member => (member.1, member.2.shape) := by
    clear distinct
    induction members with
    | nil => rfl
    | cons first rest ih =>
      obtain ⟨own, expr⟩ := first
      simp [Expr.fieldShapes, ih]
  have apart : Members.Distinct (Expr.fieldShapes members) :=
    shapes ▸ Members.distinct_map Expr.shape distinct
  unfold Shape.ofPairs Shape.member?
  simp only
  rw [Members.ofPairs_of_distinct apart, shapes, Members.value?_map]

/-- The shape of such an object declares exactly the names of its members. -/
theorem hasMember_shape_of_distinct (distinct : members.Distinct) {title name : String} :
    (Expr.object title members).shape.hasMember name = true ↔ name ∈ members.names := by
  rw [Shape.hasMember, Expr.shape, member?_shape_of_distinct distinct, Option.isSome_map,
    Members.value?_isSome_iff]

/-- Named values with distinct names are the members of the object that they make. -/
theorem Value.ofPairs_of_distinct {pairs : List (String × Value)}
    (distinct : (pairs.map Prod.fst).Nodup) : Value.ofPairs pairs = .object pairs :=
  congrArg Value.object (Members.ofPairs_of_distinct distinct)

/-- Such an object has each of them as a member. -/
theorem Value.member_ofPairs {pairs : List (String × Value)}
    (distinct : (pairs.map Prod.fst).Nodup) {name : String} {value : Value}
    (inside : (name, value) ∈ pairs) : (Value.ofPairs pairs).member name = value := by
  rw [Value.ofPairs_of_distinct distinct]
  simp [Value.member, Members.value?_of_mem distinct inside]

/-- Fields that evaluate to plain values keep their names and order. -/
theorem evaluateFields_eq_pure {values : List (String × Value)}
    (evaluated : Expr.evaluateFields provider members env = pure values) :
    values.map Prod.fst = members.map Prod.fst ∧
      ∀ name expr, (name, expr) ∈ members →
        ∃ value, expr.evaluate provider env = pure value ∧ (name, value) ∈ values := by
  induction members generalizing values with
  | nil =>
    obtain rfl := Outcome.pure_inj.mp evaluated
    exact ⟨rfl, by simp⟩
  | cons first rest ih =>
    obtain ⟨own, field⟩ := first
    simp only [Expr.evaluateFields] at evaluated
    obtain ⟨value, head, remaining⟩ := Outcome.bind_eq_pure.mp evaluated
    obtain ⟨others, tail, joined⟩ := Outcome.bind_eq_pure.mp remaining
    obtain rfl := Outcome.pure_inj.mp joined
    obtain ⟨names, each⟩ := ih tail
    constructor
    · simp [names]
    · intro name expr inside
      rcases List.mem_cons.mp inside with same | deeper
      · cases same
        exact ⟨value, head, by simp⟩
      · obtain ⟨found, valued, listed⟩ := each name expr deeper
        exact ⟨found, valued, by simp [listed]⟩

/-- Distinct members that evaluate to an object evaluate to its members. -/
theorem evaluate_of_evaluateObject (distinct : members.Distinct)
    (evaluated : Expr.evaluateObject provider members env = pure stored) {name : String}
    {expr : Expr} (inside : (name, expr) ∈ members) :
    expr.evaluate provider env = pure (stored.member name) := by
  unfold Expr.evaluateObject at evaluated
  rw [map_eq_pure_bind] at evaluated
  obtain ⟨values, fields, object⟩ := Outcome.bind_eq_pure.mp evaluated
  obtain rfl := Outcome.pure_inj.mp object
  obtain ⟨names, each⟩ := evaluateFields_eq_pure fields
  obtain ⟨value, valued, listed⟩ := each name expr inside
  have apart : (values.map Prod.fst).Nodup := by rwa [names]
  rw [valued, Value.member_ofPairs apart listed]

/-- An object whose members under the names of chains have the values of these chains carries
    the chains. -/
theorem carries_of_distinct (distinct : members.Distinct)
    (evaluated : Expr.evaluateObject provider members env = pure stored) {value : Value}
    (chains : ∀ path expr, (extractedName path, expr) ∈ members →
      expr.evaluate provider env = pure (value.along path)) (title : String) :
    Expr.Carries (Expr.object title members).shape stored value := by
  intro path declared
  obtain ⟨⟨name, expr⟩, inside, rfl⟩ :=
    List.mem_map.mp ((hasMember_shape_of_distinct distinct).mp declared)
  have own := evaluate_of_evaluateObject distinct evaluated inside
  exact Outcome.pure_inj.mp (own.symm.trans (chains path expr inside))

end Objects

end StagedQuery
