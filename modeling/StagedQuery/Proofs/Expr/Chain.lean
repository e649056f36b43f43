import StagedQuery.Proofs.Expr.ChainName
import StagedQuery.Proofs.Expr.Congruence
import StagedQuery.Proofs.Members

/-!
# Chains

A chain over a placeholder calls no service, reads nothing else and cannot fail
where the placeholder is bound: its value is the bound value along its members.

The maximal chains of an expression that calls a service are extracted under their
names. All these names begin with two underscores.
-/

namespace StagedQuery

/-! ## Names -/

/-- A name that begins as the names of chains do. -/
def isReserved (name : String) : Bool :=
  ['_', '_'].isPrefixOf name.toList

/-- The name of a chain is reserved. -/
theorem isReserved_extractedName (path : List String) :
    isReserved (extractedName path) = true := by
  simp [isReserved, extractedName]

/-! ## Chains -/

/-- Placeholders are told apart by their numbers alone. -/
theorem Placeholder.is_iff {left right : Placeholder} :
    left.is right = true ↔ left.number = right.number := by
  simp [Placeholder.is]

namespace Expr

variable {root : Placeholder} {expr : Expr} {path : List String}

/-- Induction over the members of a chain, from its placeholder on. -/
theorem chain_induction {motive : Expr → List String → Prop}
    (read : ∀ slot : Placeholder, slot.number = root.number → motive (.read slot) [])
    (member : ∀ target name shape shorter, target.chain? root = some shorter →
      motive target shorter → motive (.member target name shape) (shorter ++ [name]))
    (chained : expr.chain? root = some path) : motive expr path := by
  induction expr using Expr.induction generalizing path with
  | read slot =>
    simp only [chain?] at chained
    split at chained
    · rename_i same
      obtain rfl := Option.some.inj chained
      exact read slot (Placeholder.is_iff.mp same)
    · cases chained
  | member target name shape ih =>
    simp only [chain?, Option.map_eq_some_iff] at chained
    obtain ⟨shorter, found, rfl⟩ := chained
    exact member target name shape shorter found (ih found)
  | _ => cases chained

/-- What is a chain over a placeholder depends on its number alone. -/
theorem chain?_congr {root other : Placeholder} (same : root.number = other.number)
    (expr : Expr) : expr.chain? root = expr.chain? other := by
  induction expr using Expr.induction with
  | read slot => simp [chain?, Placeholder.is, same]
  | member target name shape ih => simp only [chain?, ih]
  | _ => rfl

/-- A member of a placeholder is a chain over it. -/
theorem chain?_member (root : Placeholder) (name : String) (shape : Shape) :
    (Expr.member (.read root) name shape).chain? root = some [name] := by
  simp [chain?, Placeholder.is]

/-- A chain calls no service. -/
theorem hasServices_of_chain? (chained : expr.chain? root = some path) :
    expr.hasServices = false := by
  refine @chain_induction root expr path (fun expr _ => expr.hasServices = false)
    ?_ ?_ chained
  · intro slot same
    rfl
  · intro target name shape shorter found silent
    rwa [hasServices_member]

/-- A chain reads its placeholder and nothing else. -/
theorem free_of_chain? (chained : expr.chain? root = some path) :
    expr.free = [root.number] := by
  refine @chain_induction root expr path (fun expr _ => expr.free = [root.number])
    ?_ ?_ chained
  · intro slot same
    simp [free, same]
  · intro target name shape shorter found single
    simpa [free] using single

/-- A chain binds nothing. -/
theorem binds_of_chain? (chained : expr.chain? root = some path) (allowed : Nat → Prop) :
    expr.Binds allowed := by
  refine @chain_induction root expr path (fun expr _ => expr.Binds allowed)
    ?_ ?_ chained
  · intro slot same
    exact binds_read allowed slot
  · intro target name shape shorter found none
    rw [binds_iff]
    constructor
    · intro binder own
      cases own
    · simpa [children] using none

/-- The value of a chain is the value of its placeholder along its members. -/
theorem evaluate_of_chain? {provider : Provider} {env : Environment} {value : Value}
    (bound : env.value? root = some value) (chained : expr.chain? root = some path) :
    expr.evaluate provider env = pure (value.along path) := by
  refine @chain_induction root expr path
    (fun expr path => expr.evaluate provider env = pure (value.along path))
    ?_ ?_ chained
  · intro slot same
    have found : env.value? slot = some value := by
      rw [← bound]
      exact Environment.value?_congr same
    simp [evaluate, found, Value.along]
  · intro target name shape shorter found valued
    simp only [evaluate, valued]
    simp [Value.along]

/-! ## Extraction -/

/-- The nodes at which a walk meets the maximal chains over a placeholder: it looks at
    nothing below a chain. -/
def chainWalk (expr : Expr) (root : Placeholder) : List Expr :=
  expr.walk fun node => (node.chain? root).isNone

/-- The chains that this walk meets, each under the name of its members. -/
def namedChains (expr : Expr) (root : Placeholder) : List (String × Expr) :=
  (expr.chainWalk root).filterMap fun node =>
    (node.chain? root).map fun path => (extractedName path, node)

/-- What is found with a name is a node that the walk over chains meets, under the name of its
    path. -/
theorem mem_namedChains_iff {name : String} {node : Expr} :
    (name, node) ∈ expr.namedChains root ↔
      ∃ path, node ∈ expr.chainWalk root ∧ node.chain? root = some path ∧
        name = extractedName path := by
  simp only [namedChains, List.mem_filterMap, Option.map_eq_some_iff, Prod.mk.injEq]
  constructor
  · rintro ⟨visited, walked, path, chained, rfl, rfl⟩
    exact ⟨path, walked, chained, rfl⟩
  · rintro ⟨path, walked, chained, rfl⟩
    exact ⟨node, walked, path, chained, rfl, rfl⟩

/-- Something is extracted if a service is called and a chain is met: the first chain of each
    name. -/
theorem extract?_eq_some_iff {found : Members Expr} :
    expr.extract? root = some found ↔ expr.hasServices = true ∧ expr.namedChains root ≠ [] ∧
      Members.firsts (expr.namedChains root) = found := by
  have empty : Members.firsts (expr.namedChains root) = [] ↔ expr.namedChains root = [] := by
    rw [← List.isEmpty_iff, Members.isEmpty_firsts, List.isEmpty_iff]
  have reads : ((expr.walk fun node => (node.chain? root).isNone).filterMap fun node =>
      (node.chain? root).map fun path => (extractedName path, node)) = expr.namedChains root := rfl
  rw [extract?, reads]
  cases calls : expr.hasServices with
  | false => simp
  | true =>
    simp only [Bool.not_true, Bool.false_eq_true, ↓reduceIte, true_and]
    split
    · rename_i none
      simp [empty.mp none]
    · rename_i filled
      have some : expr.namedChains root ≠ [] := fun none => filled (empty.mpr none)
      simp [some]

/-- What is extracted are the maximal chains, each under the name of its members. -/
theorem mem_of_extract? {found : Members Expr} (extracted : expr.extract? root = some found)
    {name : String} {node : Expr} (inside : (name, node) ∈ found) :
    ∃ path, node ∈ expr.chainWalk root ∧ node.chain? root = some path ∧
      name = extractedName path := by
  obtain ⟨-, -, rfl⟩ := extract?_eq_some_iff.mp extracted
  exact mem_namedChains_iff.mp (Members.mem_of_mem_firsts inside)

/-- Every maximal chain of an expression that calls a service is extracted under its
    name. -/
theorem exists_extracted_of_chain {node : Expr} (calls : expr.hasServices = true)
    (visited : node ∈ expr.chainWalk root) (chained : node.chain? root = some path) :
    ∃ found first, expr.extract? root = some found ∧ (extractedName path, first) ∈ found := by
  have offered := mem_namedChains_iff.mpr ⟨path, visited, chained, rfl⟩
  obtain ⟨first, known⟩ := Members.exists_value?_of_mem offered
  rw [← Members.value?_firsts] at known
  exact ⟨_, first, extract?_eq_some_iff.mpr ⟨calls, List.ne_nil_of_mem offered, rfl⟩,
    Members.mem_of_value? known⟩

end Expr

end StagedQuery
