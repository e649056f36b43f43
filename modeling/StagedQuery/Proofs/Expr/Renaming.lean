import Mathlib.Data.List.Zip
import StagedQuery.Proofs.Expr.Congruence

/-!
# Expressions up to the choice of placeholders

Two expressions are the same up to the choice of placeholders if they are built alike and
read corresponding placeholders: those of corresponding binders, or those of a given pair.
What shapes they state is not compared. Such expressions have the same outcome wherever
corresponding placeholders have the same value, and both call services or neither does.
-/

namespace StagedQuery

/-- Two numbers correspond under some pairs, of which the first that has one of them counts.
    What no pair has corresponds to itself. -/
def Paired : List (Nat × Nat) → Nat → Nat → Prop
  | [], number, number' => number = number'
  | pair :: outer, number, number' =>
    number = pair.1 ∧ number' = pair.2 ∨
      number ≠ pair.1 ∧ number' ≠ pair.2 ∧ Paired outer number number'

/-- Correspondence can be read from either side. -/
theorem Paired.swap {pairs : List (Nat × Nat)} {number number' : Nat}
    (paired : Paired pairs number number') : Paired (pairs.map Prod.swap) number' number := by
  induction pairs with
  | nil => exact paired.symm
  | cons pair outer ih =>
    rcases paired with ⟨same, same'⟩ | ⟨other, other', deeper⟩
    · exact .inl ⟨same', same⟩
    · exact .inr ⟨other', other, ih deeper⟩

/-- Corresponding placeholders among the listed ones have one value. -/
def Environment.AgreeUnder (pairs : List (Nat × Nat)) (numbers : List Nat)
    (env env' : Environment) : Prop :=
  ∀ slot slot' : Placeholder, slot.number ∈ numbers → Paired pairs slot.number slot'.number →
    ∃ value, env.value? slot = some value ∧ env'.value? slot' = some value

namespace Environment

variable {pairs : List (Nat × Nat)} {numbers fewer : List Nat} {env env' : Environment}

/-- Environments that agree on some numbers under a renaming agree on fewer. -/
theorem AgreeUnder.mono (agree : AgreeUnder pairs numbers env env')
    (subset : ∀ number ∈ fewer, number ∈ numbers) : AgreeUnder pairs fewer env env' := by
  intro slot slot' inside
  exact agree slot slot' (subset slot.number inside)

/-- Below corresponding binders their placeholders correspond. -/
theorem AgreeUnder.bind (slot slot' : Placeholder)
    (agree : AgreeUnder pairs (numbers.filter (· ≠ slot.number)) env env') (value : Value) :
    AgreeUnder ((slot.number, slot'.number) :: pairs) numbers (env.bind slot value)
      (env'.bind slot' value) := by
  intro read read' inside paired
  rw [value?_bind, value?_bind]
  rcases paired with ⟨same, same'⟩ | ⟨other, other', outside⟩
  · exact ⟨value, if_pos same.symm, if_pos same'.symm⟩
  · rw [if_neg (Ne.symm other), if_neg (Ne.symm other')]
    exact agree read read' (List.mem_filter.mpr ⟨inside, by simpa using other⟩) outside

end Environment

namespace Expr

open Environment

/-- Two expressions are the same up to the choice of placeholders. Reads correspond under the
    pairs; any other node has the same head, and its parts are the same in turn, those below
    its binder with one pair more. -/
inductive Renamed : List (Nat × Nat) → Expr → Expr → Prop where
  | read {pairs : List (Nat × Nat)} {slot slot' : Placeholder}
      (paired : Paired pairs slot.number slot'.number) : Renamed pairs (.read slot) (.read slot')
  | node {pairs : List (Nat × Nat)} {left right : Expr} (head : left.head = right.head)
      (other : left.head ≠ .read blankSlot)
      (outer : ∀ part part', (part, part') ∈ left.outerParts.zip right.outerParts →
        Renamed pairs part part')
      (inner : ∀ slot slot', left.ownBinder? = some slot → right.ownBinder? = some slot' →
        ∀ part part', (part, part') ∈ left.innerParts.zip right.innerParts →
          Renamed ((slot.number, slot'.number) :: pairs) part part') : Renamed pairs left right

variable {pairs : List (Nat × Nat)} {left right : Expr}

/-- What holds pair by pair of the outer parts of two nodes with one head holds of them as
    lists. -/
theorem forall₂_outerParts {related : Expr → Expr → Prop} (head : left.head = right.head)
    (outer : ∀ part part', (part, part') ∈ left.outerParts.zip right.outerParts →
      related part part') : List.Forall₂ related left.outerParts right.outerParts := by
  have lengths := (length_parts_head left).1
  rw [head, (length_parts_head right).1] at lengths
  exact List.forall₂_iff_zip.mpr ⟨lengths.symm, outer _ _⟩

/-- So does what holds of the parts below a binder. Such parts exist only where both nodes
    bind. -/
theorem forall₂_innerParts {below : Expr → Expr → Prop} (head : left.head = right.head)
    (inner : ∀ slot slot', left.ownBinder? = some slot → right.ownBinder? = some slot' →
      ∀ part part', (part, part') ∈ left.innerParts.zip right.innerParts → below part part') :
    List.Forall₂ below left.innerParts right.innerParts := by
  have lengths := (length_parts_head left).2
  have binders := isSome_ownBinder?_head left
  rw [head, (length_parts_head right).2] at lengths
  rw [head, isSome_ownBinder?_head right] at binders
  refine List.forall₂_iff_zip.mpr ⟨lengths.symm, ?_⟩
  intro part part' inside
  cases binds : left.ownBinder? with
  | none => simp [innerParts_of_ownBinder? binds] at inside
  | some slot =>
    rw [binds] at binders
    obtain ⟨slot', bindsToo⟩ := Option.isSome_iff_exists.mp binders
    exact inner slot slot' binds bindsToo part part' inside

/-- Members of the same name are the same if their targets are. -/
theorem Renamed.member (target : Renamed pairs left right) (name : String) (shape shape' : Shape) :
    Renamed pairs (.member left name shape) (.member right name shape') := by
  refine .node rfl Expr.noConfusion ?_ fun _ _ binds => nomatch binds
  intro part part' inside
  obtain ⟨rfl, rfl⟩ : part = left ∧ part' = right := by simpa [outerParts, children] using inside
  exact target

/-- Calls of one service are the same if their arguments are. -/
theorem Renamed.service {capability : Capability} {method : String} {answer : ServiceAnswer}
    {arguments arguments' : List Expr}
    (each : List.Forall₂ (Renamed pairs) arguments arguments') (shape shape' : Shape) :
    Renamed pairs (.service capability method arguments shape answer)
      (.service capability method arguments' shape' answer) := by
  refine .node ?_ Expr.noConfusion ?_ fun _ _ binds => nomatch binds
  · simp [head, each.length_eq]
  · intro part part' inside
    exact (List.forall₂_iff_zip.mp each).2 inside

/-- Sameness up to the choice of placeholders can be read from either side. -/
theorem Renamed.swap (renamed : Renamed pairs left right) :
    Renamed (pairs.map Prod.swap) right left := by
  have turned {parts parts' : List Expr} {part part' : Expr}
      (inside : (part', part) ∈ parts'.zip parts) : (part, part') ∈ parts.zip parts' := by
    rw [← List.zip_swap]
    exact List.mem_map_of_mem inside
  induction renamed with
  | read paired => exact .read paired.swap
  | node head other _ _ outer inner =>
    refine .node head.symm (head ▸ other) ?_ ?_
    · intro part part' inside
      exact outer part' part (turned inside)
    · intro slot slot' binds bindsToo part part' inside
      exact inner slot' slot bindsToo binds part' part (turned inside)

/-- Both expressions call a service or neither does. -/
theorem Renamed.hasServices (renamed : Renamed pairs left right) :
    left.hasServices = right.hasServices := by
  induction renamed with
  | read paired => rfl
  | node head other _ _ outer inner =>
    have any_congr : ∀ {parts parts' : List Expr},
        List.Forall₂ (fun part part' => part.hasServices = part'.hasServices) parts parts' →
        parts.any Expr.hasServices = parts'.any Expr.hasServices := by
      intro parts parts' each
      induction each with
      | nil => rfl
      | cons same _ ih => simp only [List.any_cons, same, ih]
    rw [hasServices_eq, hasServices_eq, children_eq_append, children_eq_append, List.any_append,
      List.any_append, any_congr (forall₂_outerParts head outer),
      any_congr (forall₂_innerParts head inner), ← ownCapability?_head, head, ownCapability?_head]

/-- What the one expression reads has its counterpart among what the other reads. -/
theorem Renamed.exists_free (renamed : Renamed pairs left right) {number : Nat}
    (free : number ∈ left.free) : ∃ number' ∈ right.free, Paired pairs number number' := by
  induction renamed generalizing number with
  | @read pairs slot slot' paired =>
    obtain rfl : number = slot.number := by simpa [Expr.free] using free
    exact ⟨slot'.number, by simp [Expr.free], paired⟩
  | @node pairs left right head other _ _ outer inner =>
    have counterpart {related : Expr → Expr → Prop} {parts parts' : List Expr}
        (each : List.Forall₂ related parts parts') {part : Expr} (inside : part ∈ parts) :
        ∃ part' ∈ parts', related part part' := by
      obtain ⟨index, below, rfl⟩ := List.getElem_of_mem inside
      have belowToo : index < parts'.length := each.length_eq ▸ below
      exact ⟨parts'.get ⟨index, belowToo⟩, List.get_mem _ _, each.get below belowToo⟩
    rcases mem_free_iff.mp free with ⟨slot, rfl, -⟩ | ⟨part, listed, free⟩ |
      ⟨slot, binds, apart, part, listed, free⟩
    · exact absurd rfl other
    · obtain ⟨part', listed', reads⟩ := counterpart
        (@forall₂_outerParts _ _ (fun part part' => ∀ number ∈ part.free,
          ∃ number' ∈ part'.free, Paired pairs number number') head
          fun part part' inside number free => outer part part' inside free) listed
      obtain ⟨number', free', paired⟩ := reads number free
      exact ⟨number', mem_free_of_outer listed' free', paired⟩
    · obtain ⟨slot', bindsToo⟩ : ∃ slot', right.ownBinder? = some slot' := by
        apply Option.isSome_iff_exists.mp
        rw [← isSome_ownBinder?_head, ← head, isSome_ownBinder?_head, binds, Option.isSome_some]
      obtain ⟨part', listed', reads⟩ := counterpart
        (@forall₂_innerParts _ _ (fun part part' => ∀ number ∈ part.free,
          ∃ number' ∈ part'.free, Paired ((slot.number, slot'.number) :: pairs) number number') head
          fun _ _ _ _ part part' inside number free =>
            inner slot slot' binds bindsToo part part' inside free) listed
      obtain ⟨number', free', ⟨same, -⟩ | ⟨-, apart', paired⟩⟩ := reads number free
      · exact absurd same apart
      · exact ⟨number', mem_free_of_inner bindsToo listed' free' apart', paired⟩

/-- The expressions have the same outcome where corresponding placeholders have one value. -/
theorem Renamed.evaluate (renamed : Renamed pairs left right) {provider : Provider}
    {env env' : Environment} (agree : AgreeUnder pairs left.free env env') :
    left.evaluate provider env = right.evaluate provider env' := by
  induction renamed generalizing env env' with
  | @read pairs slot slot' paired =>
    obtain ⟨value, given, given'⟩ := agree slot slot' (by simp [Expr.free]) paired
    simp only [Expr.evaluate, given, given']
  | @node pairs left right head other _ _ outer inner =>
    have unread (slot : Placeholder) : left ≠ .read slot := by
      rintro rfl
      exact other rfl
    refine evaluate_of_parts ⟨head, .of_eq fun _ _ => rfl,
      fun slot _ same => absurd same (unread slot), ?_, ?_⟩
    · apply forall₂_outerParts head
      intro part part' inside
      exact outer part part' inside
        (agree.mono fun number => mem_free_of_outer (List.of_mem_zip inside).1)
    · intro slot slot' binds bindsToo value
      apply forall₂_innerParts head
      intro _ _ _ _ part part' inside
      refine inner slot slot' binds bindsToo part part' inside (AgreeUnder.bind slot slot' ?_ value)
      apply agree.mono
      intro number found
      obtain ⟨free, apart⟩ := List.mem_filter.mp found
      exact mem_free_of_inner binds (List.of_mem_zip inside).1 free (by simpa using apart)

end Expr

end StagedQuery
