import StagedQuery.Proofs.Expr.Chain

/-!
# Putting an expression in the place of a placeholder

An expression over one placeholder is rewritten over a source that stands in its place. Its
chains become reads of members that carry them, or the same chains over the source. The
outcome stays what it was if every carried member has the value of its chain, and every
maximal chain of which no part is carried has over the source the value that it had over the
placeholder.

Where the source is another placeholder, the expression is moved from one to the other.
-/

namespace StagedQuery.Expr

open Environment

variable {root base : Placeholder} {source : Expr} {provider : Provider}
  {env env' : Environment} {value moved : Value}

/-- The members of a value that a shape declares under the names of chains have the values
    of these chains over another value. -/
def Carries (shape : Shape) (moved value : Value) : Prop :=
  ∀ path, shape.hasMember (extractedName path) = true →
    moved.member (extractedName path) = value.along path

/-- A chain is carried under its name or begins at a placeholder with the same value. -/
def Reachable (shape : Shape) (moved value : Value) (path : List String) : Prop :=
  shape.hasMember (extractedName path) = true ∨ moved = value

/-- A part of a chain, from its placeholder on, is carried under its name. -/
def Covered (shape : Shape) (path : List String) : Prop :=
  ∃ shorter, shorter <+: path ∧ shape.hasMember (extractedName shorter) = true

/-- Of a chain without members only the placeholder can be carried. -/
theorem covered_nil {shape : Shape} :
    Covered shape [] ↔ shape.hasMember (extractedName []) = true := by
  simp [Covered]

/-- A longer chain is covered if it is carried itself or a shorter one is covered. -/
theorem covered_concat {shape : Shape} {path : List String} {name : String} :
    Covered shape (path ++ [name]) ↔
      shape.hasMember (extractedName (path ++ [name])) = true ∨ Covered shape path := by
  simp only [Covered, List.prefix_concat_iff]
  constructor
  · rintro ⟨shorter, rfl | part, declared⟩
    · exact .inl declared
    · exact .inr ⟨shorter, part, declared⟩
  · rintro (declared | ⟨shorter, part, declared⟩)
    · exact ⟨_, .inl rfl, declared⟩
    · exact ⟨shorter, .inr part, declared⟩

/-! ## Chains -/

/-- What is no chain is rebuilt. -/
theorem replacement?_of_not_chain {node : Expr} (other : node.chain? root = none) :
    replacement? root source node = none := by
  simp [replacement?, other]

/-- A chain that is carried is replaced by a read of the member that carries it. -/
theorem replacement?_of_carried {node : Expr} {path : List String}
    (chained : node.chain? root = some path)
    (declared : source.shape.hasMember (extractedName path) = true) :
    ∃ shape, replacement? root source node =
      some (.member source (extractedName path) shape) := by
  obtain ⟨shape, known⟩ := Option.isSome_iff_exists.mp declared
  exact ⟨shape, by simp [replacement?, chained, known]⟩

/-- The placeholder itself is replaced by the source if nothing carries it. -/
theorem substitute_read_of_undeclared {slot : Placeholder} (same : slot.number = root.number)
    (undeclared : source.shape.hasMember (extractedName []) = false) :
    (Expr.read slot).substitute root source = source := by
  have absent : source.shape.member? (extractedName []) = none := by
    simpa [Shape.hasMember] using undeclared
  apply transform_of_some
  simp [replacement?, chain?, Placeholder.is_iff.mpr same, absent]

/-- A chain that nothing carries is rewritten by rewriting what it is a member of. -/
theorem substitute_member_of_undeclared {target : Expr} {name : String} {shape : Shape}
    {shorter : List String} (found : target.chain? root = some shorter)
    (undeclared : source.shape.hasMember (extractedName (shorter ++ [name])) = false) :
    (Expr.member target name shape).substitute root source =
      .member (target.substitute root source) name shape := by
  have absent : source.shape.member? (extractedName (shorter ++ [name])) = none := by
    simpa [Shape.hasMember] using undeclared
  have kept : replacement? root source (.member target name shape) = none := by
    simp [replacement?, chain?, found, absent]
  simp [substitute, transform, kept]

/-- A chain whose value is carried keeps its value. -/
theorem evaluate_moved_of_carried (valued : source.evaluate provider env = pure moved)
    {node : Expr} {path : List String} (chained : node.chain? root = some path)
    (declared : source.shape.hasMember (extractedName path) = true)
    (carried : moved.member (extractedName path) = value.along path) :
    (node.substitute root source).evaluate provider env = pure (value.along path) := by
  obtain ⟨shape, replaced⟩ := replacement?_of_carried chained declared
  rw [substitute, transform_of_some replaced]
  simp only [evaluate, valued, pure_bind]
  rw [carried]

/-- A chain of which a part is carried keeps its value, and any other chain has the value that
    it has over the source.

    Proof: induction over the members of the chain. The longest part that is carried is found
    first, and the members after it are read from what carries it. -/
theorem evaluate_moved_chain (valued : source.evaluate provider env = pure moved)
    (carries : Carries source.shape moved value) {node : Expr} {path : List String}
    (chained : node.chain? root = some path) :
    (Covered source.shape path →
      (node.substitute root source).evaluate provider env = pure (value.along path)) ∧
    (¬Covered source.shape path →
      (node.substitute root source).evaluate provider env = pure (moved.along path)) := by
  refine @chain_induction root node path (fun node path =>
    (Covered source.shape path →
      (node.substitute root source).evaluate provider env = pure (value.along path)) ∧
    (¬Covered source.shape path →
      (node.substitute root source).evaluate provider env = pure (moved.along path)))
    ?_ ?_ chained
  · intro slot same
    have empty : (Expr.read slot).chain? root = some [] := by
      simp [chain?, Placeholder.is_iff.mpr same]
    rw [covered_nil]
    constructor
    · intro declared
      exact evaluate_moved_of_carried valued empty declared (carries _ declared)
    · intro undeclared
      rw [substitute_read_of_undeclared same (Bool.eq_false_iff.mpr undeclared), valued]
      simp [Value.along]
  · intro target name shape shorter found below
    obtain ⟨whenCovered, whenBare⟩ := below
    rw [covered_concat]
    by_cases declared : source.shape.hasMember (extractedName (shorter ++ [name])) = true
    · have whole : (Expr.member target name shape).chain? root = some (shorter ++ [name]) := by
        simp [chain?, found]
      constructor
      · intro covered
        exact evaluate_moved_of_carried valued whole declared (carries _ declared)
      · intro bare
        exact absurd (.inl declared) bare
    · rw [substitute_member_of_undeclared found (Bool.eq_false_iff.mpr declared)]
      simp only [declared, Bool.false_eq_true, false_or, evaluate]
      constructor
      · intro covered
        rw [whenCovered covered]
        simp [Value.along]
      · intro bare
        rw [whenBare bare]
        simp [Value.along]

/-- A chain that is moved to a placeholder is the same chain over it, if the placeholder
    declares no member under the name of a part of the chain.

    Proof: induction over the members of the chain. -/
theorem chain?_substitute {expr : Expr} {path : List String}
    (chained : expr.chain? root = some path)
    (clear : ∀ shorter, shorter <+: path →
      base.shape.hasMember (extractedName shorter) = false) :
    (expr.substitute root (.read base)).chain? base = some path := by
  refine @chain_induction root expr path
    (fun node shorter => shorter <+: path →
      (node.substitute root (.read base)).chain? base = some shorter)
    ?_ ?_ chained (List.prefix_refl path)
  · intro slot same part
    have undeclared : (Expr.read base).shape.hasMember (extractedName []) = false := clear [] part
    rw [substitute_read_of_undeclared same undeclared]
    simp [chain?, Placeholder.is]
  · intro target name shape shorter found moved part
    have below := moved ((List.prefix_append shorter [name]).trans part)
    have undeclared : (Expr.read base).shape.hasMember (extractedName (shorter ++ [name])) =
        false := clear _ part
    rw [substitute_member_of_undeclared found undeclared]
    simp [chain?, below]

/-! ## Expressions -/

/-- The maximal chains of a part are maximal chains of a form that is no chain itself. -/
theorem mem_chainWalk_of_part {expr part : Expr} (other : expr.chain? root = none)
    (inside : part ∈ expr.children) {node : Expr} (visited : node ∈ part.chainWalk root) :
    node ∈ expr.chainWalk root := by
  rw [chainWalk, walk_eq]
  simp only [other, Option.isNone_none, ↓reduceIte, List.mem_cons]
  exact .inr (List.mem_flatMap.mpr ⟨part, inside, visited⟩)

/-- A chain is a maximal chain of itself. -/
theorem self_mem_chainWalk (expr : Expr) : expr ∈ expr.chainWalk root := by
  rw [chainWalk, walk_eq]
  exact List.mem_cons_self

/-- An expression keeps its outcome when a source is put in the place of a placeholder, if its
    maximal chains keep their values wherever the source has its own.

    Proof: induction over the parts. What is no chain is rebuilt from its rewritten parts; the
    binders are neither the placeholder nor free in the source, so below them the placeholder
    keeps its value and the source its outcome. -/
theorem evaluate_substitute_of_chains (expr : Expr)
    (binders : expr.Binds fun number => number ≠ root.number ∧ number ∉ source.free)
    (rooted : env.value? root = some value)
    (agree : ∀ slot : Placeholder, slot.number ∈ expr.free → slot.number ≠ root.number →
      env.value? slot = env'.value? slot)
    (chains : ∀ node ∈ expr.chainWalk root, ∀ path, node.chain? root = some path →
      ∀ later : Environment, AgreeOn source.free env' later →
        (node.substitute root source).evaluate provider later = pure (value.along path)) :
    (expr.substitute root source).evaluate provider env' = expr.evaluate provider env := by
  induction expr using Expr.childInduction generalizing env env' with
  | step expr below =>
    cases chained : expr.chain? root with
    | some path =>
      rw [evaluate_of_chain? rooted chained]
      exact chains expr (self_mem_chainWalk expr) path chained env' fun _ _ => rfl
    | none =>
      obtain ⟨own, deeper⟩ := (binds_iff expr).mp binders
      symm
      refine evaluate_rebuilt (replacement?_of_not_chain chained) (.of_eq fun _ _ => rfl) ?_ ?_ ?_
      · rintro slot rfl
        have different : slot.number ≠ root.number := by
          simpa [chain?, Placeholder.is_iff] using chained
        exact agree slot (by simp [free]) different
      · intro part inside
        have child : part ∈ expr.children := by simp [children_eq_append, inside]
        exact (below part child (deeper part child) rooted
          (fun slot free => agree slot (mem_free_of_outer inside free))
          (fun node visited => chains node (mem_chainWalk_of_part chained child visited))).symm
      · intro slot binds part inside bound
        have child : part ∈ expr.children := by simp [children_eq_append, inside]
        obtain ⟨notRoot, notFree⟩ := own slot binds
        refine (below part child (deeper part child) ?_ ?_ ?_).symm
        · rw [value?_bind, if_neg notRoot, rooted]
        · intro other free different
          rw [value?_bind, value?_bind]
          split
          · rfl
          · rename_i apart
            exact agree other (mem_free_of_inner binds inside free (Ne.symm apart)) different
        · intro node visited path chain later same
          refine chains node (mem_chainWalk_of_part chained child visited) path chain later ?_
          intro other free
          have apart : slot.number ≠ other.number := fun bindsIt => notFree (bindsIt ▸ free)
          rw [← same other free, value?_bind, if_neg apart]

/-- An expression keeps its outcome when a source is put in the place of a placeholder, if each
    of its maximal chains is covered or has over the source the value that it has. -/
theorem evaluate_substitute_of_covered (expr : Expr)
    (binders : expr.Binds fun number => number ≠ root.number ∧ number ∉ source.free)
    (rooted : env.value? root = some value) (valued : source.evaluate provider env' = pure moved)
    (agree : ∀ slot : Placeholder, slot.number ∈ expr.free → slot.number ≠ root.number →
      env.value? slot = env'.value? slot)
    (carries : Carries source.shape moved value)
    (covered : ∀ node ∈ expr.chainWalk root, ∀ path, node.chain? root = some path →
      Covered source.shape path ∨ moved.along path = value.along path) :
    (expr.substitute root source).evaluate provider env' = expr.evaluate provider env := by
  refine evaluate_substitute_of_chains expr binders rooted agree ?_
  intro node visited path chained later same
  have valuedLater : source.evaluate provider later = pure moved := by
    rw [← valued]
    exact (evaluate_congr source same (.refl _ source)).symm
  obtain ⟨whenCovered, whenBare⟩ := evaluate_moved_chain valuedLater carries chained
  by_cases part : Covered source.shape path
  · exact whenCovered part
  · rw [whenBare part, (covered node visited path chained).resolve_left part]

/-- To put a source in the place of a placeholder changes no outcome. The source has a value
    of its own and reads nothing that the expression binds; the expression never rebinds the
    placeholder; the members that the source declares under names of chains have the values
    of these chains, and every maximal chain of which no part is declared has the same value
    over both. -/
theorem evaluate_substitute (expr source : Expr) (root : Placeholder) (value moved : Value)
    (binders : expr.Binds fun number => number ≠ root.number ∧ number ∉ source.free)
    (carries : Carries source.shape moved value)
    (covered : ∀ node ∈ expr.chainWalk root, ∀ path, node.chain? root = some path →
      Covered source.shape path ∨ moved.along path = value.along path) :
    ∀ (provider : Provider) (env : Environment), source.evaluate provider env = pure moved →
      (expr.substitute root source).evaluate provider env =
        expr.evaluate provider (env.bind root value) := by
  intro provider env valued
  have rooted : (env.bind root value).value? root = some value := by simp [value?_bind]
  refine evaluate_substitute_of_covered expr binders rooted valued ?_ carries covered
  intro slot free different
  rw [value?_bind, if_neg (Ne.symm different)]

/-- A film that is stored with its identity and its studio, and with its title as it was. -/
def storedFilm : Shape :=
  .object "Film" [("__id", .scalar .id), ("__studio", .any), ("title", .scalar .string)]

/-- The placeholder of a first stage that stores a film. -/
def filmStage : Placeholder :=
  ⟨1, "stage1", .object "Stage1" [("film", storedFilm)]⟩

/-- The rating of a film, asked for with the identity, the studio and its name, and the title
    of the film. -/
def filmRating (film : Placeholder) : Expr :=
  .service ⟨"Ratings"⟩ "rating"
    [(read film).get "id", (read film).get "studio", ((read film).get "studio").get "name",
      (read film).get "title"]
    (.scalar .int) fun state _ => .ok state

/-- Of a rating, the identity is found under its name and the name of the studio in the member
    that carries the studio. The title is where it was, though no chain has its name. -/
theorem evaluate_substitute_filmRating :
    let film : Placeholder := ⟨0, "film", .any⟩
    let studio := Value.object [("name", .string "Ladd")]
    let value :=
      Value.object [("id", .string "f1"), ("studio", studio), ("title", .string "Runner")]
    let moved :=
      Value.object [("__id", .string "f1"), ("__studio", studio), ("title", .string "Runner")]
    let env : Environment := [(1, .object [("film", moved)])]
    ∀ provider : Provider,
      ((filmRating film).substitute film ((read filmStage).get "film")).evaluate provider env =
        (filmRating film).evaluate provider (env.bind film value) := by
  intro film studio value moved env provider
  have binders : (filmRating film).Binds fun number =>
      number ≠ film.number ∧ number ∉ ((read filmStage).get "film").free := by
    simp [Binds, filmRating, nodes, walk, walkAll, ownBinder?, Expr.get]
  have carries : Carries ((read filmStage).get "film").shape moved value := by
    intro path declared
    have named : extractedName path = extractedName ["id"] ∨
        extractedName path = extractedName ["studio"] := by
      have names : extractedName path = "__id" ∨ extractedName path = "__studio" ∨
          extractedName path = "title" := by
        simpa [Members.names] using (Members.value?_isSome_iff _ _).mp declared
      have reserved := isReserved_extractedName path
      rcases names with same | same | same
      · exact .inl (same.trans (by decide +kernel))
      · exact .inr (same.trans (by decide +kernel))
      · rw [same] at reserved
        exact absurd reserved (by decide +kernel)
    rcases named with same | same <;> obtain rfl := extractedName_inj same <;> rfl
  refine evaluate_substitute (filmRating film) _ film value moved binders carries ?_ provider env
    rfl
  intro node visited path chained
  have known : node = filmRating film ∨ node = (read film).get "id" ∨
      node = (read film).get "studio" ∨ node = ((read film).get "studio").get "name" ∨
      node = (read film).get "title" := by
    simpa [film, chainWalk, filmRating, walk, walkAll, chain?, Expr.get, Placeholder.is]
      using visited
  rcases known with rfl | rfl | rfl | rfl | rfl <;> cases chained
  · exact .inl ⟨["id"], List.prefix_refl _, by decide +kernel⟩
  · exact .inl ⟨["studio"], List.prefix_refl _, by decide +kernel⟩
  · exact .inl ⟨["studio"], ⟨["name"], rfl⟩, by decide +kernel⟩
  · exact .inr rfl

/-- A placeholder reads the value that it is given. -/
theorem evaluate_read (given : env.value? base = some value) :
    (read base).evaluate provider env = pure value := by
  simp only [evaluate, given]

/-- An expression keeps its outcome when it is moved to a placeholder that carries its chains
    or has the same value. -/
theorem evaluate_substitute_read (expr : Expr)
    (binders : expr.Binds fun number => number ≠ root.number ∧ number ≠ base.number)
    (rooted : env.value? root = some value) (based : env'.value? base = some moved)
    (agree : ∀ slot : Placeholder, slot.number ∈ expr.free → slot.number ≠ root.number →
      env.value? slot = env'.value? slot)
    (carries : Carries base.shape moved value)
    (reachable : ∀ node ∈ expr.chainWalk root, ∀ path, node.chain? root = some path →
      Reachable base.shape moved value path) :
    (expr.substitute root (.read base)).evaluate provider env' = expr.evaluate provider env := by
  refine evaluate_substitute_of_covered expr ?_ rooted (evaluate_read based) agree carries ?_
  · simpa only [free, List.mem_singleton] using binders
  · intro node visited path chained
    rcases reachable node visited path chained with declared | rfl
    · exact .inl ⟨path, List.prefix_refl path, declared⟩
    · exact .inr rfl

end StagedQuery.Expr
