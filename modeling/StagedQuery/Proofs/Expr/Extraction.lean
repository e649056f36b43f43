import StagedQuery.Proofs.Expr.Objects

/-!
# Splitting an expression that calls a service

The maximal chains of an expression over a placeholder are extracted under their names. The
object of what was extracted is evaluated first, and it cannot fail. The rest of the
expression reads the chains back from a placeholder that stands for this object: it mentions
the first placeholder no more, reads the second by the names of chains only, and has the
outcome, with the calls, that the whole expression had.
-/

namespace StagedQuery.Expr

variable {expr source : Expr} {root fresh : Placeholder} {entries : Members Expr}
  {provider : Provider} {env : Environment} {value : Value}

/-! ## What is extracted -/

/-- Only from an expression that calls a service chains are extracted. -/
theorem hasServices_of_extract? (extracted : expr.extract? root = some entries) :
    expr.hasServices = true :=
  (extract?_eq_some_iff.mp extracted).1

/-- What is extracted has distinct names. -/
theorem distinct_of_extract? (extracted : expr.extract? root = some entries) :
    entries.Distinct := by
  obtain ⟨-, -, rfl⟩ := extract?_eq_some_iff.mp extracted
  exact Members.distinct_firsts _

/-- The name of every maximal chain is among what is extracted. -/
theorem mem_names_of_extract? (extracted : expr.extract? root = some entries) {node : Expr}
    {path : List String} (visited : node ∈ expr.chainWalk root)
    (chained : node.chain? root = some path) : extractedName path ∈ entries.names := by
  obtain ⟨found, first, same, inside⟩ :=
    exists_extracted_of_chain (hasServices_of_extract? extracted) visited chained
  obtain rfl := Option.some.inj (extracted.symm.trans same)
  exact List.mem_map_of_mem inside

/-- What is extracted are chains with the names that they are extracted under. -/
theorem chain?_of_extract? (extracted : expr.extract? root = some entries) {path : List String}
    {node : Expr} (inside : (extractedName path, node) ∈ entries) :
    node.chain? root = some path := by
  obtain ⟨own, -, chained, same⟩ := mem_of_extract? extracted inside
  rwa [extractedName_inj same]

/-- The object of what is extracted has one value wherever the placeholder has a value. -/
theorem exists_object_of_extract? (extracted : expr.extract? root = some entries)
    (value : Value) :
    ∃ object, ∀ (provider : Provider) (env : Environment), env.value? root = some value →
      evaluateObject provider entries env = pure object := by
  let valueOf (node : Expr) : Value := value.along ((node.chain? root).getD [])
  refine ⟨Value.ofPairs (entries.map fun entry => (entry.1, valueOf entry.2)), ?_⟩
  intro provider env given
  apply evaluateObject_of_each
  rintro ⟨name, node⟩ inside
  obtain ⟨path, -, chained, -⟩ := mem_of_extract? extracted inside
  simpa [valueOf, chained] using evaluate_of_chain? given chained

/-- An expression without chains over a placeholder does not mention it.

    Proof: induction over the parts. A read of the placeholder would be a chain, and the walk
    goes on below what is no chain. -/
theorem references_of_no_chain (expr : Expr)
    (none : ∀ node ∈ expr.chainWalk root, node.chain? root = none) :
    expr.references root = false := by
  induction expr using Expr.childInduction with
  | step expr below =>
    have other : expr.chain? root = Option.none := none expr (self_mem_chainWalk expr)
    refine (references_eq_false_iff expr root).mpr ⟨?_, ?_⟩
    · rintro slot rfl same
      simp [chain?, Placeholder.is_iff.mpr same] at other
    · intro part inside
      exact below part inside fun node visited =>
        none node (mem_chainWalk_of_part other inside visited)

/-- Where nothing is extracted from an expression that calls a service, the placeholder is not
    mentioned. -/
theorem references_of_extract?_eq_none (calls : expr.hasServices = true)
    (nothing : expr.extract? root = none) : expr.references root = false := by
  apply references_of_no_chain
  intro node visited
  cases chained : node.chain? root with
  | none => rfl
  | some path =>
    obtain ⟨found, -, extracted, -⟩ := exists_extracted_of_chain calls visited chained
    rw [nothing] at extracted
    cases extracted

/-! ## What is left -/

/-- A placeholder that is new to an expression over another one: it is neither that one nor
    read or bound in the expression. -/
structure Fresh (fresh root : Placeholder) (expr : Expr) : Prop where
  apart : fresh.number ≠ root.number
  unread : expr.references fresh = false
  unbound : expr.Binds fun number => number ≠ fresh.number

/-- Every read of a placeholder is that of a member with one of some names: no chain over it
    has another member, or further members, or none. -/
def ReadsMembers (expr : Expr) (slot : Placeholder) (names : List String) : Prop :=
  ∀ node ∈ expr.chainWalk slot, ∀ path, node.chain? slot = some path →
    ∃ name ∈ names, path = [name]

/-- A substituted placeholder is gone, unless what takes its place mentions it. -/
theorem references_substitute (expr : Expr) (unread : source.references root = false) :
    (expr.substitute root source).references root = false := by
  induction expr using Expr.childInduction with
  | step expr below =>
    unfold substitute
    cases replaced : replacement? root source expr with
    | some answer =>
      rw [transform_of_some replaced]
      obtain ⟨path, -, ⟨shape, -, rfl⟩ | ⟨-, -, rfl⟩⟩ := replacement?_cases replaced
      · refine (references_eq_false_iff _ _).mpr ⟨?_, by simpa [children] using unread⟩
        intro slot same
        cases same
      · exact unread
    | none =>
      refine (references_eq_false_iff _ _).mpr ⟨?_, ?_⟩
      · intro slot same isRoot
        -- A read of the placeholder would have been replaced.
        obtain rfl := eq_read_of_transform replaced same
        have chained : (Expr.read slot).chain? root = some [] := by
          simp [chain?, Placeholder.is_iff.mpr isRoot]
        simp only [replacement?, chained, List.isEmpty_nil, ↓reduceIte] at replaced
        split at replaced <;> cases replaced
      · intro part inside
        rw [children_transform replaced] at inside
        obtain ⟨original, found, rfl⟩ := List.mem_map.mp inside
        exact below original found

/-- What is bound after a substitution was bound before or is bound in what has taken the
    place. -/
theorem binds_substitute {allowed : Nat → Prop} (binds : expr.Binds allowed)
    (bindsToo : source.Binds allowed) : (expr.substitute root source).Binds allowed := by
  induction expr using Expr.childInduction with
  | step expr below =>
    obtain ⟨own, parts⟩ := (binds_iff expr).mp binds
    unfold substitute
    cases replaced : replacement? root source expr with
    | some answer =>
      rw [transform_of_some replaced]
      obtain ⟨path, -, ⟨shape, -, rfl⟩ | ⟨-, -, rfl⟩⟩ := replacement?_cases replaced
      · refine (binds_iff _).mpr ⟨?_, by simpa [children] using bindsToo⟩
        intro slot own
        cases own
      · exact bindsToo
    | none =>
      refine (binds_iff _).mpr ⟨?_, ?_⟩
      · rwa [ownBinder?_transform replaced]
      · intro part inside
        rw [children_transform replaced] at inside
        obtain ⟨original, found, rfl⟩ := List.mem_map.mp inside
        exact below original found (parts original found)

/-- A substitution makes no chain over a new placeholder of what was no chain before.

    Proof: induction over the members. A rebuilt read is the read that it was, and a rebuilt
    member is a chain only if what it is a member of is one. -/
theorem chain?_substitute_of_not_chain (expr : Expr) (unread : expr.references fresh = false)
    (other : expr.chain? root = none) :
    (expr.substitute root (.read fresh)).chain? fresh = none := by
  have kept := @replacement?_of_not_chain root (.read fresh) expr other
  induction expr using Expr.induction with
  | read slot =>
    have apart := ((references_eq_false_iff _ _).mp unread).1 slot rfl
    simpa [substitute, transform, kept, chain?, Placeholder.is] using apart
  | member target name shape ih =>
    have unreadBelow := ((references_eq_false_iff _ _).mp unread).2 target (by simp [children])
    have otherBelow : target.chain? root = none := by simpa [chain?] using other
    have below := ih unreadBelow otherBelow (replacement?_of_not_chain otherBelow)
    rw [substitute] at below
    simp [substitute, transform, kept, chain?, below]
  | _ => simp [substitute, transform, kept, chain?]

/-- After a substitution of a new placeholder that declares all maximal chains under their
    names, the new placeholder is read by these names only. -/
theorem readsMembers_substitute (expr : Expr) (unread : expr.references fresh = false)
    {names : List String}
    (declares : ∀ node ∈ expr.chainWalk root, ∀ path, node.chain? root = some path →
      extractedName path ∈ names ∧ fresh.shape.hasMember (extractedName path) = true) :
    (expr.substitute root (.read fresh)).ReadsMembers fresh names := by
  induction expr using Expr.childInduction with
  | step expr below =>
    intro node visited path chained
    cases known : expr.chain? root with
    | some own =>
      obtain ⟨listed, declared⟩ := declares expr (self_mem_chainWalk expr) own known
      obtain ⟨shape, replaced⟩ := @replacement?_of_carried root (.read fresh) _ _ known declared
      have single := chain?_member fresh (extractedName own) shape
      rw [substitute, transform_of_some replaced, chainWalk, walk_eq, single] at visited
      obtain rfl := List.mem_singleton.mp visited
      exact ⟨_, listed, Option.some.inj (chained.symm.trans single)⟩
    | none =>
      have kept := @replacement?_of_not_chain root (.read fresh) expr known
      have stays := chain?_substitute_of_not_chain expr unread known
      rw [chainWalk, walk_eq, stays, substitute, children_transform kept] at visited
      rcases List.mem_cons.mp visited with rfl | deeper
      · rw [substitute] at stays
        rw [stays] at chained
        cases chained
      · obtain ⟨part, inside, walked⟩ := List.mem_flatMap.mp deeper
        obtain ⟨original, found, rfl⟩ := List.mem_map.mp inside
        refine below original found (((references_eq_false_iff _ _).mp unread).2 original found)
          ?_ node walked path chained
        intro node visited
        exact declares node (mem_chainWalk_of_part known found visited)

/-- What a split leaves of an expression: it has the outcome of the expression wherever the new
    placeholder has the object of what was extracted; it mentions the first placeholder no
    more, and the new one only to read members with extracted names. -/
structure LeftOver (expr rest : Expr) (root fresh : Placeholder) (entries : Members Expr)
    (value object : Value) : Prop where
  outcome : ∀ (provider : Provider) (env : Environment),
    rest.evaluate provider (env.bind fresh object) = expr.evaluate provider (env.bind root value)
  unread : rest.references root = false
  unbound : rest.Binds fun number => number ≠ root.number
  members : rest.ReadsMembers fresh entries.names
  names : ∀ name ∈ entries.names, ∃ path, name = extractedName path

/-- To split an expression that calls a service and never rebinds a placeholder loses nothing.
    If chains are extracted, then the object of them has a value, the same in every environment
    and under every provider, and the substitution of a new placeholder with the shape of the
    object leaves the rest of the expression. If none is extracted, the expression does not
    mention the placeholder. -/
theorem extraction_lossless (expr : Expr) (root : Placeholder) (calls : expr.hasServices = true)
    (binders : expr.Binds fun number => number ≠ root.number) :
    (∀ entries, expr.extract? root = some entries → ∀ value, ∃ object, ∀ title,
      (∀ (provider : Provider) (env : Environment),
        (Expr.object title entries).evaluate provider (env.bind root value) = pure object) ∧
      ∀ fresh : Placeholder, fresh.shape = (Expr.object title entries).shape →
        Fresh fresh root expr →
        LeftOver expr (expr.substitute root (.read fresh)) root fresh entries value object) ∧
    (expr.extract? root = none → expr.references root = false) := by
  refine ⟨?_, references_of_extract?_eq_none calls⟩
  intro entries extracted value
  obtain ⟨object, evaluated⟩ := exists_object_of_extract? extracted value
  have rooted (env : Environment) : (env.bind root value).value? root = some value := by
    simp [Environment.value?_bind]
  have distinct := distinct_of_extract? extracted
  refine ⟨object, fun title => ⟨?_, ?_⟩⟩
  · intro provider env
    rw [evaluate_object]
    exact evaluated provider _ (rooted env)
  · intro fresh shape isFresh
    have declares : ∀ node ∈ expr.chainWalk root, ∀ path, node.chain? root = some path →
        extractedName path ∈ entries.names ∧
          fresh.shape.hasMember (extractedName path) = true := by
      intro node visited path chained
      have listed := mem_names_of_extract? extracted visited chained
      exact ⟨listed, by rwa [shape, hasMember_shape_of_distinct distinct]⟩
    have apart : root.number ≠ fresh.number := Ne.symm isFresh.apart
    refine ⟨?_, ?_, binds_substitute binders (binds_read _ fresh),
      readsMembers_substitute expr isFresh.unread declares, ?_⟩
    · intro provider env
      have carries : Carries fresh.shape object value := by
        rw [shape]
        refine carries_of_distinct distinct (evaluated provider _ (rooted env)) ?_ title
        intro path node inside
        exact evaluate_of_chain? (rooted env) (chain?_of_extract? extracted inside)
      refine evaluate_substitute_read expr ?_ (rooted env) (by simp [Environment.value?_bind]) ?_
        carries fun node visited path chained => .inl (declares node visited path chained).2
      · intro node inside slot own
        exact ⟨binders node inside slot own, isFresh.unbound node inside slot own⟩
      · intro slot free different
        have other : fresh.number ≠ slot.number := fun same =>
          not_mem_free_of_references isFresh.unread (same ▸ free)
        rw [Environment.value?_bind, Environment.value?_bind, if_neg (Ne.symm different),
          if_neg other]
    · apply references_substitute
      simpa [references, nodes, walk, Placeholder.is] using isFresh.apart
    · intro name listed
      obtain ⟨⟨own, node⟩, inside, rfl⟩ := List.mem_map.mp listed
      obtain ⟨path, -, -, named⟩ := mem_of_extract? extracted inside
      exact ⟨path, named⟩

/-- Of a rating that reads the identity, the studio and its name, and the title of a film, all
    four are extracted, and the rest reads them from the object of them. -/
theorem extraction_lossless_filmRating :
    let film : Placeholder := ⟨0, "film", .any⟩
    let studio := (read film).get "studio"
    let entries : Members Expr := [("__id", (read film).get "id"), ("__studio", studio),
      ("__studio.name", studio.get "name"), ("__title", (read film).get "title")]
    let stored : Placeholder := ⟨1, "stored", (Expr.object "Film" entries).shape⟩
    (filmRating film).extract? film = some entries ∧
      ∀ value, ∃ object, LeftOver (filmRating film)
        ((filmRating film).substitute film (.read stored)) film stored entries value object := by
  intro film studio entries stored
  have extracted : (filmRating film).extract? film = some entries := by rfl
  have binders : (filmRating film).Binds fun number => number ≠ film.number := by
    simp [Binds, filmRating, nodes, walk, walkAll, ownBinder?, Expr.get]
  have isFresh : Fresh stored film (filmRating film) := by
    refine ⟨by decide, by decide, ?_⟩
    simp [Binds, filmRating, nodes, walk, walkAll, ownBinder?, Expr.get]
  refine ⟨extracted, fun value => ?_⟩
  obtain ⟨object, split⟩ :=
    (extraction_lossless (filmRating film) film rfl binders).1 entries extracted value
  exact ⟨object, (split "Film").2 stored rfl isFresh⟩

end StagedQuery.Expr
