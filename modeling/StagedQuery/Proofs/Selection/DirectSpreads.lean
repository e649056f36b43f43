import StagedQuery.Proofs.Selection.Expansion
import StagedQuery.Proofs.Selection.Upkeep

/-!
# The search along direct spreads

A fragment is searched for from another one through the spreads that stand directly in
fragments, with no record of the fragments that were passed. So the search need not end, and
where it does, it has found out whether there is a way.

On a built tree it ends: a spread that is placed directly in a fragment was checked by this
very search, so direct spreads never lead from a fragment back to it, and a search passes no
fragment twice. One more direct spread closes a cycle exactly if the spread fragment leads back
to the spreading one, and the operation refuses it for a cycle exactly then.
-/

namespace StagedQuery

open Relation

/-! ## One more edge in a relation -/

section Edge

variable {α : Type} {before after : α → α → Prop} {source target : α}
  (edges : ∀ left right, after left right ↔
    before left right ∨ (left = source ∧ right = target))
include edges

/-- A way that is not an old one enters the new edge by an old way and leaves it by one. -/
theorem transGen_avoids_or_crosses {start finish : α} (way : TransGen after start finish) :
    TransGen before start finish ∨
      (ReflTransGen before start source ∧ ReflTransGen before target finish) := by
  induction way with
  | single step =>
    rcases (edges _ _).mp step with old | ⟨rfl, rfl⟩
    · exact .inl (.single old)
    · exact .inr ⟨.refl, .refl⟩
  | tail way step ih =>
    rcases (edges _ _).mp step with old | ⟨rfl, rfl⟩
    · exact ih.imp (·.tail old) fun crossed => ⟨crossed.1, crossed.2.tail old⟩
    · exact .inr ⟨ih.elim TransGen.to_reflTransGen And.left, .refl⟩

/-- In a relation without cycles, an edge closes one exactly if its end leads to its start. -/
theorem exists_cycle_iff (acyclic : ∀ node, ¬TransGen before node node) :
    (∃ node, TransGen after node node) ↔ ReflTransGen before target source := by
  constructor
  · rintro ⟨node, cycle⟩
    rcases transGen_avoids_or_crosses edges cycle with old | ⟨into, out⟩
    · exact absurd old (acyclic node)
    · exact out.trans into
  · intro back
    have kept : ReflTransGen after target source :=
      ReflTransGen.mono (fun left right old => (edges left right).mpr (.inl old)) _ _ back
    exact ⟨target, .tail' kept ((edges source target).mpr (.inr ⟨rfl, rfl⟩))⟩

end Edge

namespace SelectionTree

variable {practice : Practice} {tree grown : SelectionTree} {supply : Nat} {owner : Owner}
  {field : Field} {address start target : Address}

/-! ## The search -/

/-- The fragment that is spread at an address. -/
def spreadAt? (tree : SelectionTree) (address : Address) : Option Address :=
  match (tree.field? address).map Field.kind with
  | some (.spread fragment) => some fragment
  | _ => none

/-- How a search for a fragment ends that is started from another one: at the fragment itself,
    after the first spread behind which it is found, or after all spreads of the fragment that
    the search has come to. No rule bounds how deep the search goes. -/
inductive Searches (tree : SelectionTree) (target : Address) : Address → Bool → Prop where
  | here : Searches tree target target true
  | through {start address fragment : Address} {earlier later : List Address}
      (apart : start ≠ target) (fields : tree.fragmentFields start = earlier ++ address :: later)
      (passed : ∀ sibling ∈ earlier, ∀ other, tree.spreadAt? sibling = some other →
        Searches tree target other false)
      (spreads : tree.spreadAt? address = some fragment)
      (found : Searches tree target fragment true) : Searches tree target start true
  | nowhere {start : Address} (apart : start ≠ target)
      (passed : ∀ sibling ∈ tree.fragmentFields start, ∀ other,
        tree.spreadAt? sibling = some other → Searches tree target other false) :
      Searches tree target start false

/-- A fragment is spread at an address if the field there is a spread of it. -/
theorem spreadAt?_eq_some_iff {fragment : Address} :
    tree.spreadAt? address = some fragment ↔
      ∃ field, tree.field? address = some field ∧ field.kind = .spread fragment := by
  unfold spreadAt?
  cases tree.field? address with
  | none => simp
  | some field => cases kind : field.kind <;> simp [kind]

/-- A fragment spreads another directly if one of its own fields is a spread of the other. -/
theorem spreadsDirectly_iff {spreading fragment : Address} :
    tree.SpreadsDirectly spreading fragment ↔
      ∃ address ∈ tree.fragmentFields spreading, tree.spreadAt? address = some fragment := by
  simp only [SpreadsDirectly, spreadAt?_eq_some_iff]

/-- A search that ends has found out whether there is a way by direct spreads. -/
theorem Searches.iff {answer : Bool} (searched : tree.Searches target start answer) :
    answer = true ↔ ReflTransGen tree.SpreadsDirectly start target := by
  induction searched with
  | here => exact iff_of_true rfl .refl
  | @through start address fragment earlier later apart fields passed spreads found _ ih =>
    have step : tree.SpreadsDirectly start fragment :=
      spreadsDirectly_iff.mpr ⟨address, by simp [fields], spreads⟩
    exact iff_of_true rfl (.head step (ih.mp rfl))
  | nowhere apart passed ih =>
    refine iff_of_false Bool.false_ne_true fun way => ?_
    rcases ReflTransGen.cases_head way with same | ⟨fragment, step, onward⟩
    · exact apart same
    · obtain ⟨address, listed, spreads⟩ := spreadsDirectly_iff.mp step
      exact Bool.false_ne_true ((ih address listed fragment spreads).mpr onward)

/-- The bounded search answers as any search does that ends. -/
theorem Searches.eq_reaches {answer : Bool} (searched : tree.Searches target start answer) :
    tree.reaches start target = answer := by
  rw [Bool.eq_iff_iff, reaches_iff, searched.iff]

/-- Whether a fragment that leads to the target is spread at an address. -/
def spreadReaches (tree : SelectionTree) (target address : Address) : Bool :=
  (tree.spreadAt? address).any (tree.reaches · target)

/-- A search ends if it does so from every fragment that is spread where it starts. -/
theorem exists_searches (ends : ∀ fragment, tree.SpreadsDirectly start fragment →
    ∃ answer, tree.Searches target fragment answer) :
    ∃ answer, tree.Searches target start answer := by
  by_cases apart : start = target
  · exact ⟨true, apart ▸ .here⟩
  have below : ∀ address ∈ tree.fragmentFields start, ∀ fragment,
      tree.spreadAt? address = some fragment →
        tree.Searches target fragment (tree.reaches fragment target) := by
    intro address listed fragment spreads
    obtain ⟨answer, searched⟩ := ends fragment (spreadsDirectly_iff.mpr ⟨address, listed, spreads⟩)
    rwa [searched.eq_reaches]
  have missed {address : Address} (listed : address ∈ tree.fragmentFields start)
      (none : tree.spreadReaches target address = false) (other : Address)
      (spreads : tree.spreadAt? address = some other) : tree.Searches target other false := by
    have answer : tree.reaches other target = false := by
      simpa [spreadReaches, spreads] using none
    exact answer ▸ below address listed other spreads
  -- The search stops at the first spread behind which the fragment is, if there is one.
  cases first : (tree.fragmentFields start).find? (tree.spreadReaches target) with
  | none =>
    refine ⟨false, .nowhere apart fun sibling listed => missed listed ?_⟩
    simpa using List.find?_eq_none.mp first sibling listed
  | some address =>
    obtain ⟨here, earlier, later, fields, before⟩ := List.find?_eq_some_iff_append.mp first
    obtain ⟨fragment, spreads, reached⟩ := (Option.any_eq_true _ _).mp here
    have listed : address ∈ tree.fragmentFields start := by simp [fields]
    refine ⟨true, .through apart fields ?_ spreads ?_⟩
    · intro sibling inside
      exact missed (by simp [fields, inside]) (by simpa using before sibling inside)
    · exact reached ▸ below address listed fragment spreads

/-- Where direct spreads lead from no fragment back to it, every search ends.

    Proof: recursion on the number of fragments that are not yet passed. Those that were passed
    are declared and distinct and lead to the start, so the start is none of them. -/
theorem exists_searches_of_acyclic
    (acyclic : ∀ fragment, ¬TransGen tree.SpreadsDirectly fragment fragment)
    (start : Address) {passed : List Address} (distinct : passed.Nodup)
    (declared : ∀ fragment ∈ passed, fragment.index < tree.fragments.size)
    (leading : ∀ fragment ∈ passed, TransGen tree.SpreadsDirectly fragment start) :
    ∃ answer, tree.Searches target start answer := by
  refine exists_searches fun fragment step => ?_
  have fresh : start ∉ passed := fun inside => acyclic start (leading start inside)
  have distinctNow := List.nodup_cons.mpr ⟨fresh, distinct⟩
  have declaredNow : ∀ earlier ∈ start :: passed, earlier.index < tree.fragments.size :=
    List.forall_mem_cons.mpr ⟨step.lt_size, declared⟩
  have fewer : passed.length < tree.fragments.size := length_le_of_index_lt distinctNow declaredNow
  have leadingNow : ∀ earlier ∈ start :: passed, TransGen tree.SpreadsDirectly earlier fragment :=
    List.forall_mem_cons.mpr
      ⟨.single step, fun earlier inside => (leading earlier inside).tail step⟩
  exact exists_searches_of_acyclic acyclic fragment distinctNow declaredNow leadingNow
termination_by tree.fragments.size - passed.length
decreasing_by
  simp only [List.length_cons]
  omega

/-! ## The direct spreads of a built tree -/

/-- The direct spreads of a grown tree are the old ones and the new field, if it is a spread in
    a fragment. -/
theorem GrownBy.spreadsDirectly_iff (growth : tree.GrownBy grown owner field address)
    (placed : tree.Placed) (childless : field.children = []) {left right : Address} :
    grown.SpreadsDirectly left right ↔ tree.SpreadsDirectly left right ∨
      (owner = .fragment left ∧ field.kind = .spread right) := by
  simp only [SpreadsDirectly, fragmentFields_eq]
  constructor
  · rintro ⟨place, listed, found, stored, kind⟩
    rcases (growth.mem_ownerFields childless).mp listed with old | ⟨rfl, rfl⟩
    · obtain ⟨before, -, known, -⟩ := placed.listed old
      obtain ⟨children, after⟩ := growth.stored_after known
      obtain rfl := Option.some.inj (after.symm.trans stored)
      exact .inl ⟨place, old, before, known, kind⟩
    · obtain rfl := Option.some.inj (growth.field?_new.symm.trans stored)
      exact .inr ⟨rfl, kind⟩
  · rintro (⟨place, listed, found, stored, kind⟩ | ⟨rfl, kind⟩)
    · obtain ⟨children, after⟩ := growth.stored_after stored
      exact ⟨place, (growth.mem_ownerFields childless).mpr (.inl listed), _, after, kind⟩
    · exact ⟨address, (growth.mem_ownerFields childless).mpr (.inr ⟨rfl, rfl⟩), _,
        growth.field?_new, kind⟩

/-- A field that is no spread leaves the direct spreads as they are. -/
theorem GrownBy.spreadsDirectly_eq (growth : tree.GrownBy grown owner field address)
    (placed : tree.Placed) (childless : field.children = [])
    (plain : ∀ fragment, field.kind ≠ .spread fragment) :
    grown.SpreadsDirectly = tree.SpreadsDirectly := by
  funext left right
  simp [growth.spreadsDirectly_iff placed childless, plain]

/-- Declaring a fragment leaves the direct spreads as they are. -/
theorem spreadsDirectly_declareFragment (tree : SelectionTree) (name : String) (shape : Shape)
    (supply : Nat) :
    (tree.declareFragment name shape supply).1.2.SpreadsDirectly = tree.SpreadsDirectly := by
  funext left right
  simp only [SpreadsDirectly, fragmentFields_eq, ownerFields_declareFragment,
    field?_declareFragment]

/-- The direct spreads of a tree and one more, of a fragment in another one. -/
def SpreadsWith (tree : SelectionTree) (spreading fragment left right : Address) : Prop :=
  tree.SpreadsDirectly left right ∨ (left = spreading ∧ right = fragment)

/-- A spread of a fragment in another one would close a cycle of direct spreads. -/
def ClosesDirectCycle (tree : SelectionTree) (spreading fragment : Address) : Prop :=
  ∃ node, TransGen (tree.SpreadsWith spreading fragment) node node

/-- A spread that is placed in a fragment adds one direct spread. -/
theorem spreadsDirectly_spread_iff (placed : tree.Placed) {name : String}
    {spreading fragment : Address} (named : tree.fragmentNamed? name = some fragment)
    (spreads : tree.spread (.fragment spreading) name = .ok (address, grown))
    (left right : Address) :
    grown.SpreadsDirectly left right ↔ tree.SpreadsWith spreading fragment left right := by
  obtain ⟨found, context, same, -, -, growth⟩ := spread_grownBy spreads
  obtain rfl : found = fragment := Option.some.inj (same.symm.trans named)
  rw [growth.spreadsDirectly_iff placed rfl, SpreadsWith]
  simp [spreadField, eq_comm]

/-- Direct spreads lead from no fragment of a built tree back to it.

    Proof: induction on the run. Only spreads in fragments count, and the check refuses those
    whose fragment leads back. -/
theorem Built.directSpreads_acyclic (built : tree.Built practice supply) :
    ∀ fragment, ¬TransGen tree.SpreadsDirectly fragment fragment := by
  induction built with
  | start shape supply =>
    intro fragment cycle
    obtain ⟨next, step, -⟩ := TransGen.head'_iff.mp cycle
    exact Nat.not_lt_zero _ step.lt_size
  | later _ _ ih => exact ih
  | select before _ selected ih =>
    obtain ⟨context, arguments, -, -, growth, -⟩ := select_grownBy selected
    rwa [growth.spreadsDirectly_eq before.placed rfl (drawKind_plain _ _ _).1]
  | @spread tree grown supply owner name address fragment before named _ spreads ih =>
    obtain ⟨found, context, same, passed, -, growth⟩ := spread_grownBy spreads
    obtain rfl : found = fragment := Option.some.inj (same.symm.trans named)
    intro node cycle
    cases owner with
    | operation | field parent =>
      have kept : grown.SpreadsDirectly = tree.SpreadsDirectly := by
        funext left right
        simp [growth.spreadsDirectly_iff before.placed rfl]
      exact ih node (kept ▸ cycle)
    | fragment spreading =>
      have edges := spreadsDirectly_spread_iff before.placed named spreads
      have back := (exists_cycle_iff edges ih).mp ⟨node, cycle⟩
      rw [closesCycle, reaches_iff.mpr back] at passed
      cases passed
  | declareFragment _ name shape ih => rwa [spreadsDirectly_declareFragment]
  | selectMutation before selected ih =>
    have growth := (selectMutation_grownBy selected).1
    obtain ⟨result, element?, drawn, -⟩ := drawMutation_spec _ _ _ _
    rw [drawn] at growth
    rwa [growth.spreadsDirectly_eq before.placed rfl (by simp)]

/-- On a built tree the check is for the cycles that a spread in a fragment would close. -/
theorem Built.closesCycle_iff (built : tree.Built practice supply) (spreading fragment : Address) :
    tree.closesCycle (.fragment spreading) fragment = true ↔
      tree.ClosesDirectCycle spreading fragment := by
  have edges (left right : Address) : tree.SpreadsWith spreading fragment left right ↔
      tree.SpreadsDirectly left right ∨ (left = spreading ∧ right = fragment) := Iff.rfl
  rw [closesCycle, reaches_iff, ClosesDirectCycle,
    exists_cycle_iff edges built.directSpreads_acyclic]

/-- A spread in a fragment that passes the check is accepted if its name is free there, and a
    duplicate otherwise. -/
theorem spread_of_passed {name : String} {spreading fragment : Address} {declared : Fragment}
    (named : tree.fragmentNamed? name = some fragment)
    (known : tree.fragment? spreading = some declared)
    (passed : tree.closesCycle (.fragment spreading) fragment = false) :
    (tree.Free (.fragment spreading) ("..." ++ name) →
        ∃ address grown, tree.spread (.fragment spreading) name = .ok (address, grown)) ∧
      (¬tree.Free (.fragment spreading) ("..." ++ name) →
        tree.spread (.fragment spreading) name =
          .error (.duplicateField declared.name ("..." ++ name))) := by
  let field := spreadField name fragment declared.slot
  have inserts : tree.spread (.fragment spreading) name =
      tree.insertField (.fragment spreading) field := by
    simp [spread, named, passed, ownerContext, known, field, spreadField]
  rw [inserts]
  rcases tree.insertField_cases (.fragment spreading) field with
    ⟨free, grown, inserted⟩ | ⟨taken, refused⟩
  · exact ⟨fun _ => ⟨_, grown, inserted⟩, fun taken => absurd free taken⟩
  · refine ⟨fun free => absurd free taken, fun _ => ?_⟩
    simpa [ownerFields, known, field, spreadField] using refused

/-- The search decides reachability, and spreads are refused as cycles if they are such, in
    every tree that is built.

    The search ends, however deep it goes, with the answer of the bounded one, and this tells
    whether direct spreads lead from the start to the target. A spread of an existing fragment
    in a fragment is refused as a cycle exactly if it would close one of direct spreads. No other
    one is: it is accepted and adds itself to the direct spreads, unless the fragment has a field
    of its name already, of which it is reported as a duplicate. -/
theorem Built.reaches_decides (built : tree.Built practice supply) :
    (∀ start target answer,
      tree.Searches target start answer ↔ tree.reaches start target = answer) ∧
    (∀ start target,
      tree.reaches start target = true ↔ ReflTransGen tree.SpreadsDirectly start target) ∧
    ∀ spreading name fragment, tree.fragmentNamed? name = some fragment →
      (tree.spread (.fragment spreading) name = .error (.fragmentCycle name) ↔
        tree.ClosesDirectCycle spreading fragment) ∧
      ∀ declared, tree.fragment? spreading = some declared →
        ¬tree.ClosesDirectCycle spreading fragment →
        (tree.Free (.fragment spreading) ("..." ++ name) → ∃ address grown,
          tree.spread (.fragment spreading) name = .ok (address, grown) ∧
            ∀ left right, grown.SpreadsDirectly left right ↔
              tree.SpreadsWith spreading fragment left right) ∧
        (¬tree.Free (.fragment spreading) ("..." ++ name) →
          tree.spread (.fragment spreading) name =
            .error (.duplicateField declared.name ("..." ++ name))) := by
  refine ⟨?_, fun _ _ => reaches_iff, ?_⟩
  · intro start target answer
    obtain ⟨found, searched⟩ := @exists_searches_of_acyclic tree target
      built.directSpreads_acyclic start [] List.nodup_nil (List.forall_mem_nil _)
      (List.forall_mem_nil _)
    constructor
    · exact Searches.eq_reaches
    · rintro rfl
      rwa [searched.eq_reaches]
  · intro spreading name fragment named
    constructor
    · rw [spread_refused_iff, ← built.closesCycle_iff, closesCycle, reaches_iff]
      simp [named]
    · intro declared known closes
      rw [← built.closesCycle_iff, Bool.not_eq_true] at closes
      obtain ⟨accepted, duplicate⟩ := spread_of_passed named known closes
      refine ⟨fun free => ?_, duplicate⟩
      obtain ⟨address, grown, spreads⟩ := accepted free
      exact ⟨address, grown, spreads, spreadsDirectly_spread_iff built.placed named spreads⟩

/-- An operation with three fragments, of which the first spreads the second. -/
def chainedFragments : SelectionTree where
  root := ⟨0, "ctx", .any⟩
  variablesSlot := ⟨1, "vars", .any⟩
  bound := .empty
  fields := ⟨#[spreadField "second" ⟨1⟩ ⟨2, "first", filmShape⟩]⟩
  roots := []
  fragments := ⟨#[{ name := "first", slot := ⟨2, "first", filmShape⟩, fields := [⟨0⟩] },
    { name := "second", slot := ⟨3, "second", filmShape⟩ },
    { name := "third", slot := ⟨4, "third", filmShape⟩ }]⟩

/-- The second fragment can spread the third but not the first, which closes a cycle; the first
    one can spread the second no second time. -/
theorem reaches_decides_chainedFragments :
    chainedFragments.Built {} 5 ∧
      chainedFragments.Searches ⟨1⟩ ⟨0⟩ true ∧ chainedFragments.Searches ⟨0⟩ ⟨1⟩ false ∧
      chainedFragments.spread (.fragment ⟨1⟩) "first" = .error (.fragmentCycle "first") ∧
      chainedFragments.ClosesDirectCycle ⟨1⟩ ⟨0⟩ ∧
      (∃ address grown, chainedFragments.spread (.fragment ⟨1⟩) "third" = .ok (address, grown) ∧
        grown.SpreadsDirectly ⟨1⟩ ⟨2⟩) ∧
      chainedFragments.spread (.fragment ⟨0⟩) "second" =
        .error (.duplicateField "first" "...second") := by
  let declared := ((((drawSelectionTree .any 0).1.declareFragment "first" filmShape 2).1.2
    |>.declareFragment "second" filmShape 3).1.2 |>.declareFragment "third" filmShape 4).1.2
  have start : declared.Built {} 5 :=
    (((Built.start .any 0).declareFragment "first" filmShape).declareFragment "second"
      filmShape).declareFragment "third" filmShape
  have named : declared.fragmentNamed? "second" = some ⟨1⟩ := by decide +kernel
  have built : chainedFragments.Built {} 5 :=
    @Built.spread _ _ _ _ (.fragment ⟨0⟩) "second" ⟨0⟩ ⟨1⟩ start named trivial rfl
  obtain ⟨search, -, spreads⟩ := built.reaches_decides
  have back := (spreads ⟨1⟩ "first" ⟨0⟩ (by decide +kernel)).1
  have refused : chainedFragments.spread (.fragment ⟨1⟩) "first" =
      .error (.fragmentCycle "first") := rfl
  have onward := spreads ⟨1⟩ "third" ⟨2⟩ (by decide +kernel)
  have passed : ¬chainedFragments.ClosesDirectCycle ⟨1⟩ ⟨2⟩ := by
    rw [← onward.1]
    rintro ⟨⟩
  have free : chainedFragments.Free (.fragment ⟨1⟩) "...third" := by
    simp [Free, chainedFragments, ownerFields, fragment?, Arena.item?]
  obtain ⟨address, grown, accepted, direct⟩ := (onward.2 _ rfl passed).1 free
  exact ⟨built, (search _ _ _).mpr rfl, (search _ _ _).mpr rfl, refused, back.mp refused,
    ⟨address, grown, accepted, (direct _ _).mpr (.inr ⟨rfl, rfl⟩)⟩, rfl⟩

end SelectionTree

end StagedQuery
