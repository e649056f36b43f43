import StagedQuery.Proofs.Expr.Extraction

/-!
# What a substitution leaves as it was

A substitution reaches every read of its placeholder, below binders of it too, and nothing
else. An expression that does not read the placeholder stays as it is, node for node. The
services are called that were called before, in the same order, if the source calls none. The
step from one placeholder to another is undone by the step back, if neither declares a member
under a name that begins as the names of chains do.

Placeholders are the same when their numbers are. The way back reads the placeholder that it
is told to read, so an expression that reads copies of it with another name or shape comes
back with its numbers, and any other expression comes back as it was.
-/

namespace StagedQuery.Expr

variable {replace replace' : Expr → Option Expr} {root other : Placeholder} {source : Expr}

/-! ## Rebuilt nodes -/

/-- Two transformations rebuild a node alike if they transform its parts alike. -/
theorem transform_congr {expr : Expr} (kept : replace expr = none) (kept' : replace' expr = none)
    (parts : ∀ part ∈ expr.children, part.transform replace = part.transform replace') :
    expr.transform replace = expr.transform replace' := by
  cases expr with
  | service capability method arguments shape answer =>
    have alike : transformAll replace arguments = transformAll replace' arguments := by
      simp only [transformAll_eq_map]
      exact List.map_congr_left parts
    simp [transform, kept, kept', alike]
  | object name fields =>
    have alike : transformFields replace fields = transformFields replace' fields := by
      simp only [transformFields_eq_map]
      refine List.map_congr_left fun field inside => ?_
      rw [parts field.2 (List.mem_map_of_mem inside)]
    simp [transform, kept, kept', alike]
  | sort target slot keys =>
    have alike : transformKeys replace keys = transformKeys replace' keys := by
      simp only [transformKeys_eq_map]
      refine List.map_congr_left fun key inside => ?_
      rw [parts key.1 (List.mem_cons_of_mem _ (List.mem_map_of_mem inside))]
    simp [transform, kept, kept', alike, parts target (by simp [children])]
  | _ => simp_all [transform, children]

/-- A transformation without answers rebuilds an expression as it was. -/
theorem transform_none (expr : Expr) : expr.transform (fun _ => none) = expr := by
  induction expr using Expr.induction with
  | service capability method arguments shape answer each =>
    simp [transform, transformAll_eq_map, List.map_congr_left each]
  | object name fields each =>
    have same : fields.map (fun field => (field.1, field.2.transform fun _ => none)) = fields :=
      (List.map_congr_left fun field inside => by rw [each field inside, id]).trans fields.map_id
    simp [transform, transformFields_eq_map, same]
  | sort target slot keys first each =>
    have same : keys.map (fun key => (key.1.transform fun _ => none, key.2)) = keys :=
      (List.map_congr_left fun key inside => by rw [each key inside, id]).trans keys.map_id
    simp [transform, transformKeys_eq_map, first, same]
  | _ => simp_all [transform]

/-- What does not read a placeholder is no chain over it. -/
theorem chain?_of_unread {expr : Expr} (unread : expr.references root = false) :
    expr.chain? root = none := by
  induction expr using Expr.induction with
  | read slot => simpa [references, nodes, walk, chain?] using unread
  | member target name shape ih =>
    have below := ih (((references_eq_false_iff _ root).mp unread).2 target (by simp [children]))
    simp [chain?, below]
  | _ => rfl

/-- A substitution leaves an expression that does not read its placeholder as it was. -/
theorem substitute_of_unread (expr : Expr) (unread : expr.references root = false) :
    expr.substitute root source = expr := by
  conv_rhs => rw [← transform_none expr]
  induction expr using Expr.childInduction with
  | step expr below =>
    have parts := ((references_eq_false_iff expr root).mp unread).2
    refine transform_congr (replacement?_of_not_chain (chain?_of_unread unread)) rfl ?_
    exact fun part inside => below part inside (parts part inside)

/-! ## Calls -/

/-- The capabilities that an expression calls, as often as it calls them, in the order of its
    nodes. -/
def calls (expr : Expr) : List Capability :=
  expr.nodes.filterMap ownCapability?

/-- An expression calls what its root calls, then what its parts call. -/
theorem calls_eq (expr : Expr) :
    expr.calls = expr.ownCapability?.toList ++ expr.children.flatMap calls := by
  rw [calls, nodes_eq, List.filterMap_cons, List.filterMap_flatMap]
  cases expr.ownCapability? <;> rfl

/-- What calls no service calls nothing. -/
theorem calls_eq_nil {expr : Expr} (silent : expr.hasServices = false) : expr.calls = [] := by
  apply List.filterMap_eq_nil_iff.mpr
  intro node inside
  simpa using List.any_eq_false.mp silent node inside

/-- A source without services takes no call away and adds none: chains call no service, and any
    other node is rebuilt. -/
theorem calls_substitute (expr : Expr) (silent : source.hasServices = false) :
    (expr.substitute root source).calls = expr.calls := by
  induction expr using Expr.childInduction with
  | step expr below =>
    unfold substitute at below ⊢
    cases replaced : replacement? root source expr with
    | some answer =>
      rw [transform_of_some replaced]
      obtain ⟨path, chained, same⟩ := replacement?_cases replaced
      have quiet : answer.hasServices = false := by
        obtain ⟨shape, -, rfl⟩ | ⟨-, -, rfl⟩ := same
        · rwa [hasServices_member]
        · exact silent
      rw [calls_eq_nil quiet, calls_eq_nil (hasServices_of_chain? chained)]
    | none =>
      rw [calls_eq, calls_eq expr, ownCapability?_transform replaced, children_transform replaced,
        List.flatMap_map]
      congr 1
      exact List.flatMap_congr below

/-! ## Reads -/

/-- What stands for a node where reads of placeholders are changed. -/
def readAs (change : Placeholder → Placeholder) : Expr → Option Expr
  | .read slot => some (.read (change slot))
  | _ => none

/-- Changes every placeholder that an expression reads. What it binds stays. -/
def mapReads (change : Placeholder → Placeholder) (expr : Expr) : Expr :=
  expr.transform (readAs change)

/-- An expression with the placeholders that it reads known by their numbers only. -/
def numbered (expr : Expr) : Expr :=
  expr.mapReads fun slot => ⟨slot.number, "", .any⟩

section MapReads

variable {change change' : Placeholder → Placeholder}

/-- A node is a read, or no change of reads answers for it. -/
theorem read_or_kept (expr : Expr) :
    (∃ slot, expr = .read slot) ∨ ∀ change, readAs change expr = none := by
  cases expr <;> simp [readAs]

/-- Changes that agree on what an expression reads change it alike. -/
theorem mapReads_congr (expr : Expr)
    (agree : ∀ slot, .read slot ∈ expr.nodes → change slot = change' slot) :
    expr.mapReads change = expr.mapReads change' := by
  induction expr using Expr.childInduction with
  | step expr below =>
    obtain ⟨slot, rfl⟩ | kept := read_or_kept expr
    · simp [mapReads, transform, readAs, agree slot (by simp [nodes, walk])]
    · apply transform_congr (kept _) (kept _)
      intro part inside
      refine below part inside fun slot found => agree slot ?_
      rw [nodes_eq]
      exact List.mem_cons_of_mem _ (List.mem_flatMap.mpr ⟨part, inside, found⟩)

/-- Where every read stays, nothing changes. -/
theorem mapReads_self (expr : Expr) : expr.mapReads id = expr := by
  conv_rhs => rw [← transform_none expr]
  induction expr using Expr.childInduction with
  | step expr below =>
    obtain ⟨slot, rfl⟩ | kept := read_or_kept expr
    · rfl
    · exact transform_congr (kept _) rfl below

/-- Two changes of reads are one. -/
theorem mapReads_mapReads (expr : Expr) :
    (expr.mapReads change).mapReads change' = expr.mapReads (change' ∘ change) := by
  induction expr using Expr.induction with
  | service capability method arguments shape answer each =>
    simpa [mapReads, transform, readAs, transformAll_eq_map] using each
  | object name fields each =>
    simpa [mapReads, transform, readAs, transformFields_eq_map] using each
  | sort target slot keys first each =>
    simpa [mapReads, transform, readAs, transformKeys_eq_map] using
      ⟨first, fun key direction inside => each (key, direction) inside⟩
  | _ => simp_all [mapReads, transform, readAs]

end MapReads

/-! ## From one placeholder to another -/

/-- A shape that declares no member under a name that begins as the names of chains do. -/
def Clear (shape : Shape) : Prop :=
  ∀ name, isReserved name = true → shape.hasMember name = false

/-- Reads of one placeholder become reads of another. -/
def redirect (root other slot : Placeholder) : Placeholder :=
  if slot.is root then other else slot

/-- Over a placeholder that declares no name of a chain, nothing but reads is replaced: a longer
    chain is rebuilt over its read. -/
theorem replacement?_of_clear (clear : Clear other.shape) {node : Expr}
    (kept : ∀ change, readAs change node = none) : replacement? root (.read other) node = none := by
  cases node with
  | read slot => cases kept id
  | member target name shape =>
    cases found : target.chain? root with
    | none => exact replacement?_of_not_chain (by simp [chain?, found])
    | some shorter =>
      have undeclared := clear _ (isReserved_extractedName (shorter ++ [name]))
      have absent : other.shape.member? (extractedName (shorter ++ [name])) = none := by
        simpa [Shape.hasMember] using undeclared
      simp [replacement?, chain?, found, Expr.shape, absent]
  | _ => rfl

/-- A substitution of a placeholder that declares no name of a chain redirects reads. -/
theorem substitute_read_of_clear (clear : Clear other.shape) (expr : Expr) :
    expr.substitute root (.read other) = expr.mapReads (redirect root other) := by
  induction expr using Expr.childInduction with
  | step expr below =>
    obtain ⟨slot, rfl⟩ | kept := read_or_kept expr
    · have redirected : (Expr.read slot).mapReads (redirect root other) =
          .read (redirect root other slot) := rfl
      rw [redirected, redirect]
      split
      · rename_i same
        exact substitute_read_of_undeclared (Placeholder.is_iff.mp same)
          (clear _ (isReserved_extractedName []))
      · rename_i different
        have unchained : (Expr.read slot).chain? root = none := by simp [chain?, different]
        simp [substitute, transform, replacement?_of_not_chain unchained]
    · exact transform_congr (replacement?_of_clear clear kept) (kept _) below

/-- The way to a placeholder that an expression does not read, and back, leaves each of its reads
    as it was, but for copies of the placeholder that the way started from. -/
theorem substitute_substitute_read (expr : Expr) (unread : expr.references other = false)
    (clear : Clear other.shape) (clearToo : Clear root.shape) :
    (expr.substitute root (.read other)).substitute other (.read root) =
      expr.mapReads (redirect root root) := by
  rw [substitute_read_of_clear clear, substitute_read_of_clear clearToo, mapReads_mapReads]
  apply mapReads_congr
  intro slot found
  have apart : slot.is other = false := by
    simpa using List.any_eq_false.mp unread (.read slot) found
  by_cases same : slot.is root = true
  · have itself : other.is other = true := by simp [Placeholder.is]
    simp [redirect, same, itself]
  · simp [redirect, same, apart]

/-- A substitution replaces every read of its placeholder, also where a binder binds it again,
    and touches nothing else. Where the placeholder is not read, every node stays. A source
    without services changes nothing of what is called, or of the order. A placeholder that
    declares no name of a chain can take the place and give it back: each read has its number
    again, and the expression is what it was if it reads no copies of the placeholder. -/
theorem substitution_confined (expr source : Expr) (root : Placeholder) :
    (source.references root = false → (expr.substitute root source).references root = false) ∧
      (expr.references root = false → expr.substitute root source = expr) ∧
      (source.hasServices = false →
        (expr.substitute root source).capabilities = expr.capabilities) ∧
      ∀ other : Placeholder, expr.references other = false →
        Clear other.shape → Clear root.shape →
        ((expr.substitute root (.read other)).substitute other (.read root)).numbered =
            expr.numbered ∧
          ((∀ slot, .read slot ∈ expr.nodes → slot.number = root.number → slot = root) →
            (expr.substitute root (.read other)).substitute other (.read root) = expr) := by
  refine ⟨references_substitute expr, substitute_of_unread expr, ?_, ?_⟩
  · intro silent
    exact congrArg List.eraseDups (calls_substitute expr silent)
  · intro other unread clear clearToo
    rw [substitute_substitute_read expr unread clear clearToo]
    constructor
    · rw [numbered, mapReads_mapReads]
      apply mapReads_congr
      intro slot found
      simp only [Function.comp_apply, redirect]
      split
      · rename_i same
        rw [Placeholder.is_iff.mp same]
      · rfl
    · intro single
      conv_rhs => rw [← mapReads_self expr]
      apply mapReads_congr
      intro slot found
      simp only [redirect, id]
      split
      · rename_i same
        exact (single slot found (Placeholder.is_iff.mp same)).symm
      · rfl

/-- The ratings of what came before a film. The film is bound again for each of them. -/
def prequelRatings (film : Placeholder) : Expr :=
  .map ((read film).get "prequels") film (filmRating film)

/-- The film is replaced below its second binder too, and the ratings are called as before. A
    placeholder that is not read is not replaced, and one that takes the place of the film gives
    it back. -/
theorem substitution_confined_prequelRatings :
    let film : Placeholder := ⟨0, "film", .any⟩
    let other : Placeholder := ⟨2, "other", .any⟩
    let source := (read filmStage).get "film"
    ((prequelRatings film).substitute film source).references film = false ∧
      (prequelRatings film).substitute other source = prequelRatings film ∧
      ((prequelRatings film).substitute film source).capabilities = [⟨"Ratings"⟩] ∧
      ((prequelRatings film).substitute film (.read other)).substitute other (.read film) =
        prequelRatings film := by
  intro film other source
  have clear (slot : Placeholder) (unknown : slot.shape = .any) : Clear slot.shape := by
    intro name reserved
    rw [unknown]
    rfl
  obtain ⟨gone, -, called, back⟩ := substitution_confined (prequelRatings film) source film
  obtain ⟨-, stays, -, -⟩ := substitution_confined (prequelRatings film) source other
  refine ⟨gone rfl, stays rfl, (called rfl).trans rfl, ?_⟩
  refine (back other rfl (clear other rfl) (clear film rfl)).2 ?_
  intro slot found same
  simpa [prequelRatings, filmRating, Expr.get, nodes, walk, walkAll] using found

end StagedQuery.Expr
