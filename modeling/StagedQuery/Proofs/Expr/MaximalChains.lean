import StagedQuery.Proofs.Expr.Extraction

/-!
# The maximal chains of an expression

A chain is maximal where it occurs if no member of it is accessed there. All nodes of an
expression are listed with whether they are the target of a member access, so a chain that
occurs both on its own and inside a longer one is told apart by its occurrences.

The walk that extracts chains stops at the first chain it meets on its way down. That chain is
maximal, and below it nothing is: the target of a member that is no chain is none either.
Names determine chains, so to keep one entry for each name is to keep one for each list of
members.
-/

namespace StagedQuery.Expr

variable {expr node : Expr} {root : Placeholder} {path : List String}

/-! ## Occurrences -/

/-- A chain over a placeholder with its members: the placeholder itself, or a member of a
    chain. -/
inductive ChainOver (root : Placeholder) : List String → Expr → Prop
  | bare (slot : Placeholder) : slot.number = root.number → ChainOver root [] (.read slot)
  | member (target : Expr) (path : List String) (name : String) (shape : Shape) :
      ChainOver root path target → ChainOver root (path ++ [name]) (.member target name shape)

/-- An expression is a chain over a root with a path exactly if it takes the members of the path
    from a read of the root, one after the other. -/
theorem chain?_eq_some_iff : expr.chain? root = some path ↔ ChainOver root path expr := by
  constructor
  · intro chained
    refine @chain_induction root expr path (fun expr path => ChainOver root path expr)
      ?_ ?_ chained
    · intro slot same
      exact .bare slot same
    · intro target name shape shorter found below
      exact .member target shorter name shape below
  · intro chained
    induction chained with
    | bare slot same => simp [chain?, Placeholder.is_iff.mpr same]
    | member target path name shape below ih => simp [chain?, ih]

/-- Whether an expression is a member access. -/
def isMember : Expr → Bool
  | .member _ _ _ => true
  | _ => false

/-- A part of an expression is smaller than the expression. -/
theorem sizeOf_lt_of_mem_children {part : Expr} (inside : part ∈ expr.children) :
    sizeOf part < sizeOf expr := by
  cases expr with
  | service capability method arguments shape answer =>
    have smaller := List.sizeOf_lt_of_mem inside
    simp only [children, service.sizeOf_spec] at smaller ⊢
    omega
  | object name fields =>
    obtain ⟨⟨own, field⟩, listed, rfl⟩ := List.mem_map.mp inside
    have smaller := List.sizeOf_lt_of_mem listed
    simp only [Prod.mk.sizeOf_spec, object.sizeOf_spec] at smaller ⊢
    omega
  | sort source slot keys =>
    rcases List.mem_cons.mp inside with rfl | later
    · simp only [sort.sizeOf_spec]
      omega
    · obtain ⟨⟨key, direction⟩, listed, rfl⟩ := List.mem_map.mp later
      have smaller := List.sizeOf_lt_of_mem listed
      simp only [Prod.mk.sizeOf_spec, sort.sizeOf_spec] at smaller ⊢
      omega
  | _ => simp only [children, List.mem_cons, List.not_mem_nil, or_false] at inside <;> grind

/-- The nodes of an expression in order, each with whether it is the target of a member access
    there; `targeted` tells it of the expression itself. -/
def occurrences (targeted : Bool) (expr : Expr) : List (Expr × Bool) :=
  (expr, targeted) :: expr.children.attach.flatMap fun part => occurrences expr.isMember part.1
termination_by sizeOf expr
decreasing_by exact sizeOf_lt_of_mem_children part.2

/-- The nodes of an expression are itself and the nodes of its parts, which are targets of member
    access if the expression is one. -/
theorem occurrences_eq (targeted : Bool) (expr : Expr) :
    occurrences targeted expr =
      (expr, targeted) :: expr.children.flatMap (occurrences expr.isMember) := by
  rw [occurrences, ← List.flatMap_map Subtype.val (occurrences expr.isMember),
    List.attach_map_subtype_val]

/-- The occurrences are those of the nodes, in their order. -/
theorem map_fst_occurrences (targeted : Bool) (expr : Expr) :
    (occurrences targeted expr).map Prod.fst = expr.nodes := by
  induction expr using Expr.childInduction generalizing targeted with
  | step expr below =>
    rw [occurrences_eq, nodes_eq, List.map_cons, List.map_flatMap]
    congr 1
    exact List.flatMap_congr fun part inside => below part inside _

/-- An occurrence that is a chain and not the target of a member access, with its members. -/
def maximal? (root : Placeholder) (occurrence : Expr × Bool) : Option (List String × Expr) :=
  if occurrence.2 then none else (occurrence.1.chain? root).map fun path => (path, occurrence.1)

/-- The maximal chains of an expression over a placeholder, once for each occurrence. -/
def maximalChains (expr : Expr) (root : Placeholder) : List (List String × Expr) :=
  (occurrences false expr).filterMap (maximal? root)

/-- A maximal chain is a node that is a chain over the root and from which no member is taken. -/
theorem mem_maximalChains_iff :
    (path, node) ∈ expr.maximalChains root ↔
      (node, false) ∈ occurrences false expr ∧ ChainOver root path node := by
  simp only [maximalChains, List.mem_filterMap, ← chain?_eq_some_iff]
  constructor
  · rintro ⟨⟨visited, targeted⟩, listed, answer⟩
    cases targeted with
    | true => cases answer
    | false =>
      obtain ⟨own, chained, pair⟩ := Option.map_eq_some_iff.mp answer
      cases pair
      exact ⟨listed, chained⟩
  · rintro ⟨listed, chained⟩
    exact ⟨(node, false), listed, by simp [maximal?, chained]⟩

/-! ## Where the walk stops -/

/-- Below a chain everything is the target of a member access. -/
theorem maximal?_below_chain (chained : ChainOver root path expr) :
    ∀ occurrence ∈ expr.children.flatMap (occurrences expr.isMember),
      maximal? root occurrence = none := by
  induction chained with
  | bare slot same => simp [children]
  | member target path name shape below ih =>
    intro occurrence inside
    simp only [children, List.flatMap_singleton, occurrences_eq true target, isMember,
      List.mem_cons] at inside
    rcases inside with rfl | deeper
    · rfl
    · exact ih occurrence deeper

/-- The target of a member that is no chain is none either. -/
theorem chain?_target {part : Expr} (other : expr.chain? root = none)
    (member : expr.isMember = true) (inside : part ∈ expr.children) :
    part.chain? root = none := by
  cases expr with
  | member target name shape =>
    obtain rfl := List.mem_singleton.mp inside
    simpa [chain?] using other
  | _ => cases member

/-- The chains that are met by a walk that goes no deeper than a chain are the maximal ones,
    unless the expression is itself a chain and the target of a member access.

    Proof: induction over the parts. That a part is the target of a member access matters only
    if the part is a chain, and then the expression is one as well. -/
theorem filterMap_occurrences (expr : Expr) (targeted : Bool)
    (apart : targeted = true → expr.chain? root = none) :
    (occurrences targeted expr).filterMap (maximal? root) =
      (expr.chainWalk root).filterMap fun node => maximal? root (node, false) := by
  induction expr using Expr.childInduction generalizing targeted with
  | step expr below =>
    rw [occurrences_eq, chainWalk, walk_eq, List.filterMap_cons, List.filterMap_cons]
    cases known : expr.chain? root with
    | some path =>
      obtain rfl : targeted = false := by
        cases targeted with
        | true => rw [apart rfl] at known; cases known
        | false => rfl
      have nothing := List.filterMap_eq_nil_iff.mpr
        (maximal?_below_chain (chain?_eq_some_iff.mp known))
      rw [nothing]
      simp
    | none =>
      have same : (maximal? root (expr, targeted)) = none ∧ maximal? root (expr, false) = none := by
        simp [maximal?, known]
      have parts : (expr.children.flatMap (occurrences expr.isMember)).filterMap (maximal? root) =
          (expr.children.flatMap fun part => part.chainWalk root).filterMap fun node =>
            maximal? root (node, false) := by
        rw [List.filterMap_flatMap, List.filterMap_flatMap]
        refine List.flatMap_congr fun part inside => below part inside _ ?_
        intro member
        exact chain?_target known member inside
      rw [same.1, same.2]
      exact parts

/-- The chains that the walk for them meets are the maximal ones. -/
theorem maximalChains_eq (expr : Expr) (root : Placeholder) :
    expr.maximalChains root =
      (expr.chainWalk root).filterMap fun node => (node.chain? root).map fun path => (path, node) :=
  filterMap_occurrences expr false (by simp)

/-- A chain reads its placeholder, so an expression that does not mention a placeholder has no
    chain over it among its nodes. -/
theorem chain?_of_not_references (expr : Expr) (unread : expr.references root = false) :
    ∀ node ∈ expr.nodes, node.chain? root = none := by
  induction expr using Expr.childInduction with
  | step expr below =>
    refine (forall_nodes_iff expr).mpr ⟨?_, fun part inside =>
      below part inside (((references_eq_false_iff _ _).mp unread).2 part inside)⟩
    cases chained : expr.chain? root with
    | none => rfl
    | some path =>
      have reads : root.number ∈ expr.free := by
        rw [free_of_chain? chained]
        exact List.mem_singleton_self _
      exact absurd reads (not_mem_free_of_references unread)

/-- An expression mentions a placeholder exactly if it has a maximal chain over it. -/
theorem references_iff_maximalChains (expr : Expr) (root : Placeholder) :
    expr.references root = true ↔ expr.maximalChains root ≠ [] := by
  rw [← not_iff_not, not_not, Bool.not_eq_true]
  constructor
  · intro unread
    refine List.eq_nil_iff_forall_not_mem.mpr ?_
    rintro ⟨path, node⟩ listed
    obtain ⟨occurs, chained⟩ := mem_maximalChains_iff.mp listed
    have inside : node ∈ expr.nodes :=
      map_fst_occurrences false expr ▸ List.mem_map_of_mem occurs
    have none := chain?_of_not_references expr unread node inside
    rw [chain?_eq_some_iff.mpr chained] at none
    cases none
  · intro none
    refine references_of_no_chain expr fun node visited => ?_
    rw [maximalChains_eq, List.filterMap_eq_nil_iff] at none
    exact Option.map_eq_none_iff.mp (none node visited)

/-! ## Extraction -/

/-- Under a function that tells values apart, values are repeated where their images are. -/
theorem eraseDups_map {α β : Type} [BEq α] [LawfulBEq α] [BEq β] [LawfulBEq β] {image : α → β}
    (apart : ∀ left right, image left = image right → left = right) (values : List α) :
    (values.map image).eraseDups = values.eraseDups.map image := by
  match values with
  | [] => rfl
  | first :: rest =>
    have others : (rest.map image).filter (fun value => !value == image first) =
        (rest.filter fun value => !value == first).map image := by
      rw [List.filter_map]
      congr 1
      refine List.filter_congr fun value _ => ?_
      have same : (image value == image first) = (value == first) := by
        rw [Bool.eq_iff_iff, beq_iff_eq, beq_iff_eq]
        exact ⟨apart _ _, congrArg image⟩
      simp [same]
    rw [List.map_cons, List.eraseDups_cons, others, eraseDups_map apart, List.eraseDups_cons,
      List.map_cons]
termination_by values.length
decreasing_by exact Nat.lt_succ_of_le (List.length_filter_le _ _)

/-- The first of each list of members among some chains, under the names of these members. -/
def firstChains (chains : List (List String × Expr)) : Members Expr :=
  Members.firsts (chains.map fun chain => (extractedName chain.1, chain.2))

/-- Names are taken once, and so are the lists of members that they determine. -/
theorem names_firstChains (chains : List (List String × Expr)) :
    (firstChains chains).names = (chains.map Prod.fst).eraseDups.map extractedName := by
  rw [firstChains, Members.names_firsts, List.map_map,
    ← eraseDups_map (fun _ _ same => extractedName_inj same), List.map_map]
  rfl

/-- A chain that is kept is the first one with its members. -/
theorem find?_of_mem_firstChains {chains : List (List String × Expr)} {name : String}
    (inside : (name, node) ∈ firstChains chains) :
    ∃ path, name = extractedName path ∧
      chains.find? (fun chain => chain.1 = path) = some (path, node) := by
  have found := Members.value?_of_mem (Members.distinct_firsts _) inside
  rw [Members.value?_firsts, Members.value?_eq_find?, List.find?_map, Option.map_map,
    Option.map_eq_some_iff] at found
  obtain ⟨⟨path, first⟩, found, rfl⟩ := found
  obtain rfl : extractedName path = name := by simpa using List.find?_some found
  have same (chain : List String × Expr) :
      extractedName chain.1 = extractedName path ↔ chain.1 = path :=
    ⟨extractedName_inj, congrArg extractedName⟩
  exact ⟨path, rfl, by simpa [Function.comp_def, same] using found⟩

/-- The chains that the walk meets, under their names, are the maximal ones under theirs. -/
theorem namedChains_eq (expr : Expr) (root : Placeholder) :
    expr.namedChains root =
      (expr.maximalChains root).map fun chain => (extractedName chain.1, chain.2) := by
  rw [maximalChains_eq, List.map_filterMap, namedChains]
  simp [Function.comp_def]

/-- From an expression that calls a service and mentions the placeholder the first maximal chain
    of each list of members is extracted. -/
theorem extract?_eq_some_iff_firstChains {found : Members Expr} :
    expr.extract? root = some found ↔ (expr.hasServices = true ∧ expr.references root = true) ∧
      firstChains (expr.maximalChains root) = found := by
  rw [extract?_eq_some_iff, references_iff_maximalChains, namedChains_eq, firstChains, and_assoc,
    ne_eq, List.map_eq_nil_iff]

/-- Some entries are the maximal chains over a placeholder, the first of each list of members
    under the name of these. -/
structure FirstChains (expr : Expr) (root : Placeholder) (entries : Members Expr) : Prop where
  distinct : entries.Distinct
  paths : entries.map (fun entry => entry.2.chain? root) =
    ((expr.maximalChains root).map Prod.fst).eraseDups.map some
  chains : ∀ name node, (name, node) ∈ entries → ∃ path, name = extractedName path ∧
    ChainOver root path node ∧ node.hasServices = false ∧
    (expr.maximalChains root).find? (fun chain => chain.1 = path) = some (path, node)

/-- The first of the maximal chains under each name are what the walk over chains finds first. -/
theorem firstChains_maximalChains (expr : Expr) (root : Placeholder) :
    FirstChains expr root (firstChains (expr.maximalChains root)) := by
  have first {name : String} {node : Expr}
      (inside : (name, node) ∈ firstChains (expr.maximalChains root)) :
      ∃ path, name = extractedName path ∧ ChainOver root path node ∧
        (expr.maximalChains root).find? (fun chain => chain.1 = path) = some (path, node) := by
    obtain ⟨path, named, found⟩ := find?_of_mem_firstChains inside
    exact ⟨path, named, (mem_maximalChains_iff.mp (List.mem_of_find?_eq_some found)).2, found⟩
  refine ⟨Members.distinct_firsts _, ?_, ?_⟩
  · -- The members of an entry are those that its name is read as.
    have read : ∀ entry ∈ firstChains (expr.maximalChains root),
        entry.2.chain? root = pathOfName? entry.1 := by
      rintro ⟨name, node⟩ inside
      obtain ⟨path, rfl, chained, -⟩ := first inside
      rw [pathOfName?_extractedName]
      exact chain?_eq_some_iff.mpr chained
    have named := names_firstChains (expr.maximalChains root)
    calc (firstChains (expr.maximalChains root)).map (fun entry => entry.2.chain? root)
        = (firstChains (expr.maximalChains root)).names.map pathOfName? := by
          rw [Members.names, List.map_map]
          exact List.map_congr_left read
      _ = ((expr.maximalChains root).map Prod.fst).eraseDups.map some := by
          rw [named, List.map_map]
          exact List.map_congr_left fun path _ => pathOfName?_extractedName path
  · intro name node inside
    obtain ⟨path, named, chained, found⟩ := first inside
    exact ⟨path, named, chained, hasServices_of_chain? (chain?_eq_some_iff.mpr chained), found⟩

/-- Extraction answers exactly for the expressions that call a service and mention the
    placeholder, and its answer are the maximal chains, the first of each list of members. -/
theorem extract?_maximal (expr : Expr) (root : Placeholder) :
    ((expr.extract? root).isSome = true ↔
      expr.hasServices = true ∧ expr.references root = true) ∧
      ∀ entries, expr.extract? root = some entries → FirstChains expr root entries := by
  constructor
  · rw [Option.isSome_iff_exists]
    simp only [extract?_eq_some_iff_firstChains, exists_and_left, exists_eq', and_true]
  · intro entries extracted
    obtain ⟨-, rfl⟩ := extract?_eq_some_iff_firstChains.mp extracted
    exact firstChains_maximalChains expr root

/-- The rating of a film beside the film, the name of its studio and the studio. -/
def ratedFilm (film : Placeholder) : Expr :=
  .object "RatedFilm" [("rating", filmRating film), ("film", read film),
    ("name", ((read film).get "studio").get "name"), ("studio", (read film).get "studio")]

/-- Of a rated film the chains of the rating and the film itself are extracted, and the name
    and the studio no second time. -/
theorem extract?_maximal_ratedFilm :
    let film : Placeholder := ⟨0, "film", .any⟩
    ∃ entries, (ratedFilm film).extract? film = some entries ∧
      FirstChains (ratedFilm film) film entries ∧
      ((ratedFilm film).maximalChains film).map Prod.fst =
        [["id"], ["studio"], ["studio", "name"], ["title"], [], ["studio", "name"], ["studio"]] ∧
      entries.names = ["__id", "__studio", "__studio.name", "__title", "__"] := by
  intro film
  have maximal : ((ratedFilm film).maximalChains film).map Prod.fst =
      [["id"], ["studio"], ["studio", "name"], ["title"], [], ["studio", "name"],
        ["studio"]] := by
    rw [maximalChains_eq]
    rfl
  have answers : ((ratedFilm film).extract? film).isSome = true := by rfl
  obtain ⟨entries, extracted⟩ := Option.isSome_iff_exists.mp answers
  refine ⟨entries, extracted, (extract?_maximal (ratedFilm film) film).2 entries extracted,
    maximal, ?_⟩
  obtain rfl := Option.some.inj extracted
  rfl

end StagedQuery.Expr
