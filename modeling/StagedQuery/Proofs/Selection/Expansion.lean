import StagedQuery.Proofs.Selection.Cycles

/-!
# When the expansion of fragments ends

On a built tree three things are the same: no way leads from an owner back to it, no
fragment reaches itself, and every outline comes to an end. Which spreads keep a tree
acyclic is known exactly, and so is which spreads the operation refuses. The second set
is the smaller one, so there are runs of accepted operations after which no compilation
ends.
-/

namespace StagedQuery.SelectionTree

open Relation

variable {practice : Practice} {tree grown : SelectionTree} {supply : Nat} {owner : Owner}
  {address : Address}

/-! ## Cycles pass fragments -/

/-- A way from a field that passes no fragment leads to a later field. -/
theorem Placed.lt_or_passes (placed : tree.Placed) {start : Address} {finish : Owner}
    (way : TransGen tree.Leads (.field start) finish) :
    (∃ later, finish = .field later ∧ start.index < later.index) ∨
      ∃ fragment, TransGen tree.Leads (.field start) (.fragment fragment) ∧
        ReflTransGen tree.Leads (.fragment fragment) finish := by
  induction way with
  | single leads =>
    cases leads with
    | field listed => exact .inl ⟨_, rfl, placed.increasing listed⟩
    | spread stored kind => exact .inr ⟨_, .single (.spread stored kind), .refl⟩
  | tail way leads ih =>
    rcases ih with ⟨later, rfl, after⟩ | ⟨fragment, into, onward⟩
    · cases leads with
      | field listed => exact .inl ⟨_, rfl, Nat.lt_trans after (placed.increasing listed)⟩
      | spread stored kind => exact .inr ⟨_, way.tail (.spread stored kind), .refl⟩
    · exact .inr ⟨fragment, into, onward.tail leads⟩

/-- A placed tree is acyclic exactly when no fragment reaches itself. -/
theorem Placed.acyclic_iff_fragments (placed : tree.Placed) :
    tree.Acyclic ↔
      ∀ fragment, ¬TransGen tree.Leads (.fragment fragment) (.fragment fragment) := by
  constructor
  · intro acyclic fragment
    exact acyclic (.fragment fragment)
  · intro apart owner cycle
    cases owner with
    | operation =>
      obtain ⟨last, -, into⟩ := TransGen.tail'_iff.mp cycle
      cases into
    | field address =>
      rcases placed.lt_or_passes cycle with ⟨later, same, after⟩ | ⟨fragment, into, onward⟩
      · obtain rfl := Owner.field.inj same
        exact Nat.lt_irrefl _ after
      · exact apart fragment (.trans_right onward into)
    | fragment fragment => exact apart fragment cycle

/-! ## Outlines that end -/

/-- What is known of an owner that was met in an outline that comes to an end. -/
def Explored (tree : SelectionTree) (bound : Nat) (opened : List Address) : Owner → Prop
  | .operation => False
  | .field address => ∃ outline, tree.outlineWithin bound opened address = some outline ∧
      outline.isFinite false = true
  | .fragment fragment => ∀ next ∈ tree.fragmentFields fragment, ∃ outline,
      tree.outlineWithin bound opened next = some outline ∧ outline.isFinite false = true

/-- An address that leads anywhere holds a field. -/
theorem Leads.exists_field {next : Owner} (leads : tree.Leads (.field address) next) :
    ∃ field, tree.field? address = some field := by
  cases leads with
  | field listed =>
    cases stored : tree.field? address with
    | none => simp [ownerFields, stored] at listed
    | some field => exact ⟨field, rfl⟩
  | spread stored kind => exact ⟨_, stored⟩

/-- If the outline of a field ends then the field was not open, and whatever the field leads
    to was explored while the field was open. -/
theorem Placed.explored_of_leads (placed : tree.Placed) {bound : Nat} {opened : List Address}
    {next : Owner} (explored : tree.Explored bound opened (.field address))
    (leads : tree.Leads (.field address) next) :
    address ∉ opened ∧ ∃ less, tree.Explored less (address :: opened) next := by
  obtain ⟨outline, outlined, finite⟩ := explored
  cases bound with
  | zero =>
    obtain rfl := Option.some.inj outlined
    cases finite
  | succ bound =>
    simp only [outlineWithin, Option.map_eq_some_iff] at outlined
    obtain ⟨field, stored, made⟩ := outlined
    split at made
    · subst made
      cases finite
    · rename_i fresh
      refine ⟨by simpa using fresh, bound, ?_⟩
      -- The outlines below a field whose outline ends are those of stored fields and end.
      have below (addresses : List Address) (listing : Owner)
          (listed : ∀ child ∈ addresses, child ∈ (tree.ownerFields listing).2)
          (ends : Outline.allFinite false
            (addresses.filterMap (tree.outlineWithin bound (address :: opened))) = true)
          (child : Address) (inside : child ∈ addresses) :
          tree.Explored bound (address :: opened) (.field child) := by
        obtain ⟨found, -, known, -⟩ := placed.listed (listed child inside)
        obtain ⟨deeper, deep⟩ := exists_outlineWithin known bound (address :: opened)
        exact ⟨deeper, deep,
          Outline.allFinite_iff.mp ends deeper (List.mem_filterMap.mpr ⟨child, inside, deep⟩)⟩
      cases leads with
      | field listed =>
        obtain ⟨-, context, -, owned, -⟩ := placed.listed listed
        have children : ∀ child ∈ field.children,
            child ∈ (tree.ownerFields (.field address)).2 := by
          simp [ownerFields, stored]
        simp only [ownerContext, stored] at owned
        simp only [ownerFields, stored] at listed
        cases element : field.element? with
        | none => simp [element] at owned
        | some slot =>
          rw [element] at made
          split at made
          · rename_i kind
            simp [Field.element?, kind] at element
          · subst made
            simp only [Outline.isFinite, Bool.false_and, Bool.false_or] at finite
            exact below field.children _ children finite _ listed
          · simp_all
      | spread known kind =>
        obtain rfl := Option.some.inj (stored.symm.trans known)
        simp only [kind] at made
        subst made
        simp only [Outline.isFinite] at finite
        exact below _ _ (fun child inside => by rwa [← fragmentFields_eq]) finite

/-- What is open stays known along a way. -/
theorem Placed.explored_of_transGen (placed : tree.Placed) {bound : Nat} {opened : List Address}
    {finish : Owner} (explored : tree.Explored bound opened (.field address))
    (way : TransGen tree.Leads (.field address) finish) :
    ∃ less more, address ∈ more ∧ tree.Explored less more finish := by
  induction way with
  | single leads =>
    obtain ⟨-, less, found⟩ := placed.explored_of_leads explored leads
    exact ⟨less, _, List.mem_cons_self, found⟩
  | @tail middle next _ leads ih =>
    obtain ⟨less, more, inside, found⟩ := ih
    cases middle with
    | operation => exact found.elim
    | field address =>
      obtain ⟨-, lesser, further⟩ := placed.explored_of_leads found leads
      exact ⟨lesser, _, List.mem_cons_of_mem _ inside, further⟩
    | fragment fragment =>
      cases leads with
      | field listed =>
        rw [← fragmentFields_eq] at listed
        exact ⟨less, more, inside, found _ listed⟩

/-- A placed tree is acyclic exactly when every outline comes to an end.

    Proof: on a cycle there is a field. If its outline ended, then following the cycle
    within the outline would meet the field while it is open, where outlines do not end. -/
theorem Placed.acyclic_iff_outlines (placed : tree.Placed) :
    tree.Acyclic ↔ ∀ address outline, tree.outline? address = some outline →
      outline.isFinite false = true := by
  constructor
  · intro acyclic address outline outlined
    exact acyclic.isFinite_outline outlined
  · intro ends
    have noField (address : Address) : ¬TransGen tree.Leads (.field address) (.field address) := by
      intro cycle
      obtain ⟨next, leads, -⟩ := TransGen.head'_iff.mp cycle
      obtain ⟨field, stored⟩ := leads.exists_field
      obtain ⟨outline, outlined⟩ := exists_outlineWithin stored (tree.fields.size + 1) []
      obtain ⟨less, more, inside, found⟩ :=
        placed.explored_of_transGen ⟨outline, outlined, ends address outline outlined⟩ cycle
      exact (placed.explored_of_leads found leads).1 inside
    apply placed.acyclic_iff_fragments.mpr
    intro fragment cycle
    obtain ⟨next, leads, way⟩ := TransGen.head'_iff.mp cycle
    cases leads with
    | field listed => exact noField _ (.tail' way (.field listed))

/-! ## What the check for cycles sees -/

/-- A fragment has a spread of another among its own fields. -/
def SpreadsDirectly (tree : SelectionTree) (spreading fragment : Address) : Prop :=
  ∃ address ∈ tree.fragmentFields spreading, ∃ field, tree.field? address = some field ∧
    field.kind = .spread fragment

/-- A fragment with a spread is declared. -/
theorem SpreadsDirectly.lt_size {spreading fragment : Address}
    (step : tree.SpreadsDirectly spreading fragment) :
    spreading.index < tree.fragments.size := by
  obtain ⟨address, listed, -⟩ := step
  cases found : tree.fragment? spreading with
  | none => simp [fragmentFields, found] at listed
  | some fragment => exact Arena.lt_size_of_item? found

/-- A way in a relation can leave its start for good. -/
theorem reflTransGen_leaving {α : Type} {relation : α → α → Prop} {start finish : α}
    (way : ReflTransGen relation start finish) :
    start = finish ∨ ∃ next, relation start next ∧
      ReflTransGen (fun left right => relation left right ∧ left ≠ start) next finish := by
  induction way with
  | refl => exact .inl rfl
  | @tail middle finish _ step ih =>
    by_cases back : middle = start
    · exact .inr ⟨finish, back ▸ step, .refl⟩
    · rcases ih with same | ⟨next, first, later⟩
      · exact absurd same.symm back
      · exact .inr ⟨next, first, later.tail ⟨step, back⟩⟩

/-- With one more step, a fragment is reached that is the start itself or that is reached from one
    spread there. -/
theorem reachesWithin_succ (target start : Address) (bound : Nat) :
    tree.reachesWithin target (bound + 1) start = true ↔
      start = target ∨ ∃ fragment, tree.SpreadsDirectly start fragment ∧
        tree.reachesWithin target bound fragment = true := by
  rw [reachesWithin, Bool.or_eq_true, beq_iff_eq, List.any_eq_true]
  refine or_congr_right ⟨?_, ?_⟩
  · rintro ⟨address, listed, found⟩
    cases stored : tree.field? address with
    | none => simp [stored] at found
    | some field =>
      simp only [stored, Option.map_some] at found
      split at found
      · rename_i fragment kind
        exact ⟨fragment, ⟨address, listed, field, stored, Option.some.inj kind⟩, found⟩
      · cases found
  · rintro ⟨fragment, ⟨address, listed, field, stored, kind⟩, found⟩
    exact ⟨address, listed, by simpa [stored, kind] using found⟩

/-- What is found within a bound is reached by direct spreads. -/
theorem reflTransGen_of_reachesWithin {target start : Address} {bound : Nat}
    (found : tree.reachesWithin target bound start = true) :
    ReflTransGen tree.SpreadsDirectly start target := by
  induction bound generalizing start with
  | zero =>
    obtain rfl : start = target := by simpa [reachesWithin] using found
    exact .refl
  | succ bound ih =>
    rcases (reachesWithin_succ _ _ _).mp found with rfl | ⟨fragment, step, later⟩
    · exact .refl
    · exact .head step (ih later)

/-- A way by direct spreads is found within any bound that exceeds the fragments which the
    way does not pass.

    Proof: induction on the bound. A way that is not at its end leaves its first fragment
    for good; that fragment is declared, so it is one more of those that are passed. -/
theorem reachesWithin_of_reflTransGen {target start : Address} {bound : Nat}
    {passed : List Address} (distinct : passed.Nodup)
    (declared : ∀ fragment ∈ passed, fragment.index < tree.fragments.size)
    (enough : tree.fragments.size ≤ bound + passed.length)
    (way : ReflTransGen (fun left right => tree.SpreadsDirectly left right ∧ left ∉ passed)
      start target) : tree.reachesWithin target bound start = true := by
  induction bound generalizing start passed with
  | zero =>
    rcases reflTransGen_leaving way with rfl | ⟨next, ⟨step, fresh⟩, -⟩
    · simp [reachesWithin]
    · -- All declared fragments are passed, and the start is declared.
      have more := length_le_of_index_lt (List.nodup_cons.mpr ⟨fresh, distinct⟩)
        (List.forall_mem_cons.mpr ⟨step.lt_size, declared⟩)
      simp only [List.length_cons] at more
      omega
  | succ bound ih =>
    apply (reachesWithin_succ _ _ _).mpr
    rcases reflTransGen_leaving way with rfl | ⟨next, ⟨step, fresh⟩, later⟩
    · exact .inl rfl
    · have enoughLeft : tree.fragments.size ≤ bound + (start :: passed).length := by
        simp only [List.length_cons]
        omega
      have onward : ReflTransGen
          (fun left right => tree.SpreadsDirectly left right ∧ left ∉ start :: passed)
          next target := by
        refine ReflTransGen.mono ?_ _ _ later
        rintro left right ⟨⟨direct, old⟩, gone⟩
        exact ⟨direct, by simpa [gone] using old⟩
      have found := ih (List.nodup_cons.mpr ⟨fresh, distinct⟩)
        (List.forall_mem_cons.mpr ⟨step.lt_size, declared⟩) enoughLeft onward
      exact .inr ⟨next, step, found⟩

/-- The check follows exactly the direct spreads. -/
theorem reaches_iff {start target : Address} :
    tree.reaches start target = true ↔ ReflTransGen tree.SpreadsDirectly start target := by
  constructor
  · exact reflTransGen_of_reachesWithin
  · intro way
    apply reachesWithin_of_reflTransGen List.nodup_nil (List.forall_mem_nil _) (by simp)
    simpa using way

/-- An owner without a placeholder is no matter of cycles. -/
theorem ownerContext_ne_fragmentCycle (owner : Owner) (name : String) :
    tree.ownerContext owner ≠ .error (.fragmentCycle name) := by
  unfold ownerContext
  split
  · simp
  · split <;> simp
  · split
    · split <;> simp
    · simp

/-- A spread is refused as a cycle exactly when the owner is a fragment to which the
    fragment leads by direct spreads alone. -/
theorem spread_refused_iff {name : String} :
    tree.spread owner name = .error (.fragmentCycle name) ↔
      ∃ fragment spreading, tree.fragmentNamed? name = some fragment ∧
        owner = .fragment spreading ∧
        ReflTransGen tree.SpreadsDirectly fragment spreading := by
  unfold spread
  cases named : tree.fragmentNamed? name with
  | none => simp
  | some fragment =>
    simp only [Option.some.injEq]
    cases closes : tree.closesCycle owner fragment with
    | true =>
      simp only [↓reduceIte, true_iff]
      cases owner with
      | operation => cases closes
      | field address => cases closes
      | fragment spreading => exact ⟨fragment, spreading, rfl, rfl, reaches_iff.mp closes⟩
    | false =>
      simp only [Bool.false_eq_true, ↓reduceIte]
      constructor
      · intro refused
        cases owned : tree.ownerContext owner with
        | error fault =>
          simp only [owned, Except.error.injEq] at refused
          exact absurd (refused ▸ owned) (ownerContext_ne_fragmentCycle owner name)
        | ok context =>
          simp only [owned, insertField] at refused
          split at refused <;> cases refused
      · rintro ⟨_, spreading, rfl, rfl, way⟩
        rw [closesCycle, reaches_iff.mpr way] at closes
        cases closes

/-! ## Runs -/

/-- The same callers, who spread no fragment under an owner that it leads to. -/
def Practice.shunningCycles (practice : Practice) : Practice where
  offers := practice.offers
  admits tree owner fragment :=
    practice.admits tree owner fragment ∧ ¬ReflTransGen tree.Leads (.fragment fragment) owner

/-- Callers who shun cycles build acyclic trees. -/
theorem Built.acyclic (built : tree.Built practice supply)
    (shut : ∀ tree owner fragment, practice.admits tree owner fragment →
      ¬ReflTransGen tree.Leads (.fragment fragment) owner) : tree.Acyclic := by
  induction built with
  | start shape supply => exact acyclic_drawSelectionTree shape supply
  | later _ _ ih => exact ih
  | select before _ selected ih => exact (acyclic_select_iff before.placed selected).mpr ih
  | spread before named admitted spreads ih =>
    exact (acyclic_spread_iff before.placed named spreads).mpr ⟨ih, shut _ _ _ admitted⟩
  | declareFragment _ _ _ ih => exact (acyclic_declareFragment_iff _ _ _ _).mpr ih
  | selectMutation before selected ih =>
    exact (acyclic_selectMutation_iff before.placed selected).mpr ih

/-- Any acyclic tree is one that callers build who shun cycles.

    Proof: induction on the run. Every operation keeps the cycles of a tree, so no earlier
    tree of the run had any, and each spread of the run was one that closes no cycle. -/
theorem Built.acyclic_iff (built : tree.Built practice supply) :
    tree.Acyclic ↔ tree.Built practice.shunningCycles supply := by
  constructor
  · intro acyclic
    induction built with
    | start shape supply => exact .start shape supply
    | later _ passed ih => exact .later (ih acyclic) passed
    | select before known selected ih =>
      exact .select (ih ((acyclic_select_iff before.placed selected).mp acyclic)) known selected
    | spread before named admitted spreads ih =>
      obtain ⟨earlier, shut⟩ := (acyclic_spread_iff before.placed named spreads).mp acyclic
      exact .spread (ih earlier) named ⟨admitted, shut⟩ spreads
    | declareFragment _ name shape ih =>
      exact .declareFragment (ih ((acyclic_declareFragment_iff _ _ _ _).mp acyclic)) name shape
    | selectMutation before selected ih =>
      exact .selectMutation
        (ih ((acyclic_selectMutation_iff before.placed selected).mp acyclic)) selected
  · intro shunning
    apply shunning.acyclic
    intro earlier owner fragment admitted
    exact admitted.2

/-- When the expansion of fragments ends, for every tree that is built.

    A tree is acyclic exactly if no spread of its run closed a cycle; that is, if no fragment
    reaches itself, or if every outline comes to an end. All questions and compilations are
    then defined. A spread closes a cycle exactly if its fragment leads to the owner, but it
    is refused only if the owner is a fragment to which direct spreads alone lead. -/
theorem Built.expansion_ends_iff (built : tree.Built practice supply) :
    (tree.Acyclic ↔ tree.Built practice.shunningCycles supply) ∧
    (tree.Acyclic ↔
      ∀ fragment, ¬TransGen tree.Leads (.fragment fragment) (.fragment fragment)) ∧
    (tree.Acyclic ↔ ∀ address outline, tree.outline? address = some outline →
      outline.isFinite false = true) ∧
    (tree.Acyclic →
      (∀ address, (tree.hasServices? address).isSome = true) ∧
      ∀ noExecution, (tree.compile? noExecution).isSome = true ∧
        ∀ address, (tree.compileMutation? address noExecution).isSome = true) ∧
    ∀ owner name fragment, tree.fragmentNamed? name = some fragment →
      (∀ address grown, tree.spread owner name = .ok (address, grown) →
        (grown.Acyclic ↔
          tree.Acyclic ∧ ¬ReflTransGen tree.Leads (.fragment fragment) owner)) ∧
      (tree.spread owner name = .error (.fragmentCycle name) ↔
        ∃ spreading, owner = .fragment spreading ∧
          ReflTransGen tree.SpreadsDirectly fragment spreading) := by
  refine ⟨built.acyclic_iff, built.placed.acyclic_iff_fragments,
    built.placed.acyclic_iff_outlines, ?_, ?_⟩
  · intro acyclic
    refine ⟨acyclic.hasServices?_isSome, ?_⟩
    intro noExecution
    constructor
    · rw [acyclic.compile? noExecution]
      rfl
    · intro address
      rw [acyclic.compileMutation? address noExecution]
      rfl
  · intro owner name fragment named
    constructor
    · intro address grown spreads
      exact acyclic_spread_iff built.placed named spreads
    · rw [spread_refused_iff]
      simp [named]

/-! ## A run that closes a cycle -/

/-- The shape of a film. -/
def filmShape : Shape :=
  .object "Movie" [("id", .scalar .id)]

/-- An operation that declares a fragment over films and selects one field in it. -/
def beforeCycle : SelectionTree where
  root := ⟨0, "ctx", .any⟩
  variablesSlot := ⟨1, "vars", .any⟩
  bound := .empty
  fields := ⟨#[
    { name := "sequel"
      kind := .object ⟨3, "sequel", filmShape⟩
      expr := .member (.read ⟨2, "F", filmShape⟩) "sequel" filmShape
      context := ⟨2, "F", filmShape⟩
      arguments := ArgumentSet.empty.readVariablesFrom ⟨1, "vars", .any⟩ }]⟩
  roots := []
  fragments := ⟨#[{ name := "F", slot := ⟨2, "F", filmShape⟩, fields := [⟨0⟩] }]⟩

/-- The same operation after the fragment was spread below its own field. -/
def afterCycle : SelectionTree :=
  ({ beforeCycle with
      fields := beforeCycle.fields.push
        { spreadField "F" ⟨0⟩ ⟨3, "sequel", filmShape⟩ with parent? := some ⟨0⟩ } }).attach
    (.field ⟨0⟩) ⟨1⟩

/-- The fragment may be spread below its own field. -/
theorem spread_beforeCycle : beforeCycle.spread (.field ⟨0⟩) "F" = .ok (⟨1⟩, afterCycle) := by
  rfl

/-- Accepted operations lead to a tree on which the expansion does not end: the field of the
    fragment is met again below itself. -/
theorem afterCycle_not_acyclic : afterCycle.Built {} 4 ∧ ¬afterCycle.Acyclic := by
  have declared : ((drawSelectionTree .any 0).1.declareFragment "F" filmShape 2).1.2.Built {} 3 :=
    (Built.start .any 0).declareFragment "F" filmShape
  have selected : beforeCycle.Built {} 4 :=
    @Built.select _ _ _ _ (.fragment ⟨0⟩) (.ofMember "sequel" filmShape) .empty none ⟨0⟩
      declared trivial rfl
  have named : beforeCycle.fragmentNamed? "F" = some ⟨0⟩ := by decide +kernel
  have built : afterCycle.Built {} 4 := .spread selected named trivial spread_beforeCycle
  refine ⟨built, ?_⟩
  intro acyclic
  have ends := built.expansion_ends_iff.2.2.1.mp acyclic ⟨0⟩ _ rfl
  exact absurd ends (by decide)

end StagedQuery.SelectionTree
