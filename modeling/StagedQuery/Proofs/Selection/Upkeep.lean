import Mathlib.Data.List.Nodup
import Mathlib.Data.List.Perm.Basic
import StagedQuery.Proofs.Selection.Script

/-!
# What the operations keep

However a tree is grown, every field is listed exactly once: at the top, among the children
of its parent or in a fragment. Names are distinct in each list, children are stored after
their parents, and every field is written over the placeholder of its owner. An operation
that passes its checks appends one field to one list, or declares one fragment without
fields; one that fails a check leaves the tree as it was.

Nothing is assumed of resolvers, extensions or the supply: a refused selection may have
drawn placeholders, which no tree shows.
-/

namespace StagedQuery

namespace Arena

variable {α : Type}

/-- The addresses of the stored items, in order. -/
def addresses (arena : Arena α) : List Address :=
  (List.range arena.size).map Address.mk

/-- Something is stored at the addresses below the size and nowhere else. -/
theorem isSome_item? (arena : Arena α) (address : Address) :
    (arena.item? address).isSome = true ↔ address.index < arena.size := by
  simp [item?, size]

/-- The addresses are those at which something is stored. -/
theorem mem_addresses {arena : Arena α} {address : Address} :
    address ∈ arena.addresses ↔ (arena.item? address).isSome = true := by
  rw [isSome_item?]
  simp only [addresses, List.mem_map, List.mem_range]
  exact ⟨fun ⟨_, below, same⟩ => same ▸ below, fun below => ⟨_, below, rfl⟩⟩

/-- No address is listed twice. -/
theorem nodup_addresses (arena : Arena α) : arena.addresses.Nodup :=
  List.nodup_range.map fun _ _ same => congrArg Address.index same

/-- Storages that hold items at the same addresses are of one size. -/
theorem addresses_congr {β : Type} {first : Arena α} {second : Arena β}
    (same : ∀ address, (first.item? address).isSome = (second.item? address).isSome) :
    first.addresses = second.addresses := by
  have sizes (index : Nat) : index < first.size ↔ index < second.size := by
    rw [← isSome_item? first ⟨index⟩, ← isSome_item? second ⟨index⟩, same]
  have bounded := sizes first.size
  have bounds := sizes second.size
  have equal : first.size = second.size := by omega
  rw [addresses, addresses, equal]

/-- A new item adds its address behind the others. -/
theorem addresses_push (arena : Arena α) (item : α) :
    (arena.push item).addresses = arena.addresses ++ [arena.nextAddress] := by
  simp only [addresses, size_push, List.range_succ, List.map_append, List.map_singleton,
    nextAddress]

end Arena

namespace SelectionTree

variable {tree grown : SelectionTree} {owner : Owner} {field : Field} {address : Address}
  {supply : Nat}

/-! ## All lists of a tree -/

/-- Everything under which a tree lists fields. -/
def owners (tree : SelectionTree) : List Owner :=
  .operation :: (tree.fields.addresses.map .field ++ tree.fragments.addresses.map .fragment)

/-- What a tree lists, owner by owner. -/
def listing (tree : SelectionTree) : List Address :=
  tree.owners.flatMap fun owner => (tree.ownerFields owner).2

/-- No owner is listed twice. -/
theorem nodup_owners (tree : SelectionTree) : tree.owners.Nodup := by
  have fields := tree.fields.nodup_addresses.map fun _ _ => Owner.field.inj
  have fragments := tree.fragments.nodup_addresses.map fun _ _ => Owner.fragment.inj
  refine List.nodup_cons.mpr ⟨by simp, List.nodup_append.mpr ⟨fields, fragments, ?_⟩⟩
  intro first inFields second inFragments same
  obtain ⟨_, -, rfl⟩ := List.mem_map.mp inFields
  obtain ⟨_, -, other⟩ := List.mem_map.mp inFragments
  rw [← same] at other
  cases other

/-- An owner with a placeholder is one of the tree. -/
theorem mem_owners {context : Placeholder} (owned : tree.ownerContext owner = .ok context) :
    owner ∈ tree.owners := by
  cases owner with
  | operation => exact List.mem_cons_self
  | field address =>
    simp only [ownerContext] at owned
    cases stored : tree.field? address with
    | none => simp [stored] at owned
    | some found =>
      have known : address ∈ tree.fields.addresses :=
        Arena.mem_addresses.mpr (Option.isSome_iff_exists.mpr ⟨found, stored⟩)
      simp [owners, known]
  | fragment address =>
    simp only [ownerContext] at owned
    cases stored : tree.fragment? address with
    | none => simp [stored] at owned
    | some found =>
      have known : address ∈ tree.fragments.addresses :=
        Arena.mem_addresses.mpr (Option.isSome_iff_exists.mpr ⟨found, stored⟩)
      simp [owners, known]

/-- What is put under one member of a list without repetitions is put there once. -/
theorem flatMap_single {α β : Type} [DecidableEq α] {items : List α} {item : α} {result : β}
    (distinct : items.Nodup) (inside : item ∈ items) :
    (items.flatMap fun other => if other = item then [result] else []) = [result] := by
  induction items with
  | nil => cases inside
  | cons first rest ih =>
    obtain ⟨fresh, later⟩ := List.nodup_cons.mp distinct
    rw [List.flatMap_cons]
    by_cases same : first = item
    · subst same
      have none : (rest.flatMap fun other => if other = first then [result] else []) = [] := by
        refine List.flatMap_eq_nil_iff.mpr fun other listed => if_neg ?_
        rintro rfl
        exact fresh listed
      rw [if_pos rfl, none, List.append_nil]
    · have deeper := (List.mem_cons.mp inside).resolve_left (Ne.symm same)
      rw [if_neg same, List.nil_append, ih later deeper]

namespace GrownBy

variable (growth : tree.GrownBy grown owner field address)
include growth

/-- The tree holds one field more, at the new address. -/
theorem fields_addresses : grown.fields.addresses = tree.fields.addresses ++ [address] := by
  rw [growth.next, ← Arena.addresses_push _ field]
  refine Arena.addresses_congr fun other => ?_
  change (grown.field? other).isSome = _
  rw [Arena.item?_push]
  by_cases same : other = address
  · rw [same, growth.field?_new, growth.next, if_pos rfl]
    rfl
  · rw [growth.field?_old other same, if_neg (growth.next ▸ same), Option.isSome_map]
    rfl

/-- The tree holds fragments where it held them before. -/
theorem fragments_addresses : grown.fragments.addresses = tree.fragments.addresses := by
  refine Arena.addresses_congr fun other => ?_
  change (grown.fragment? other).isSome = (tree.fragment? other).isSome
  rw [growth.fragment? other, Option.isSome_map]

/-- The new address is listed once; the rest is listed as before. -/
theorem listing_perm (childless : field.children = []) :
    grown.listing.Perm (tree.listing ++ [address]) := by
  obtain ⟨context, owned⟩ := growth.owned
  have new : grown.owners.Perm (tree.owners ++ [.field address]) := by
    simp only [owners, growth.fields_addresses, growth.fragments_addresses, List.map_append,
      List.map_singleton, List.append_assoc, List.cons_append, List.nil_append]
    exact ((List.perm_append_singleton _ _).symm.append_left _).cons _
  have nothing : (grown.ownerFields (.field address)).2 = [] := by
    simp only [ownerFields, growth.field?_new, childless]
  have old : (tree.owners.flatMap fun other => (grown.ownerFields other).2).Perm
      (tree.listing ++ [address]) := by
    simp only [growth.ownerFields_eq childless]
    refine (List.flatMap_append_perm _ _ _).symm.trans ?_
    rw [flatMap_single tree.nodup_owners (mem_owners owned)]
    rfl
  refine (new.flatMap_right _).trans ?_
  rw [List.flatMap_append, List.flatMap_singleton, nothing, List.append_nil]
  exact old

end GrownBy

/-! ## Names and parents -/

/-- No field of an owner has a name yet. -/
def Free (tree : SelectionTree) (owner : Owner) (name : String) : Prop :=
  ∀ sibling ∈ (tree.ownerFields owner).2, ∀ found, tree.field? sibling = some found →
    found.name ≠ name

/-- A field is stored if its name is free, and refused as a duplicate otherwise. -/
theorem insertField_cases (tree : SelectionTree) (owner : Owner) (field : Field) :
    (tree.Free owner field.name ∧
        ∃ grown, tree.insertField owner field = .ok (tree.fields.nextAddress, grown)) ∨
      ¬ tree.Free owner field.name ∧ tree.insertField owner field =
        .error (.duplicateField (tree.ownerFields owner).1 field.name) := by
  have taken : ((tree.ownerFields owner).2.any fun sibling =>
      (tree.field? sibling).any (·.name = field.name)) = true ↔
        ¬ tree.Free owner field.name := by
    simp only [Free, List.any_eq_true, Option.any_eq_true, decide_eq_true_eq, ne_eq, not_forall,
      not_not, exists_prop]
  by_cases free : tree.Free owner field.name
  · refine .inl ⟨free, _, if_neg fun any => taken.mp any free⟩
  · exact .inr ⟨free, if_pos (taken.mpr free)⟩

/-- A field is stored exactly if its name is free. -/
theorem insertField_isOk_iff :
    (∃ added, tree.insertField owner field = .ok added) ↔ tree.Free owner field.name := by
  rcases insertField_cases tree owner field with ⟨free, grown, inserted⟩ | ⟨taken, refused⟩
  · exact ⟨fun _ => free, fun _ => ⟨_, inserted⟩⟩
  · refine ⟨fun ⟨added, inserted⟩ => ?_, fun free => absurd free taken⟩
    rw [refused] at inserted
    cases inserted

/-- A tree whose lists hold every field exactly once and in its place. -/
structure Tidy (tree : SelectionTree) : Prop extends Placed tree where
  /-- All lists together are the addresses of all fields, each of them once. -/
  once : tree.listing.Perm tree.fields.addresses
  /-- The parent of a field is the field that lists it. -/
  parents : ∀ {address parent : Address} {field : Field}, tree.field? address = some field →
    (field.parent? = some parent ↔ address ∈ (tree.ownerFields (.field parent)).2)
  /-- The names in a list are distinct. -/
  names : ∀ owner, ((tree.ownerFields owner).2.map fun address =>
    (tree.field? address).map Field.name).Nodup
  /-- A mutation is written over its own result. -/
  results : ∀ {address : Address} {field : Field} {selection : MutationSelection},
    tree.field? address = some field → field.kind = .mutation selection →
    field.context = selection.result

/-- A field with a free name that stands right under its owner grows a tidy tree into a tidy
    tree. -/
theorem Tidy.grow (tidy : tree.Tidy) (growth : tree.GrownBy grown owner field address)
    (childless : field.children = []) (free : tree.Free owner field.name)
    (right : field.isMutation = false ∧ tree.ownerContext owner = .ok field.context ∨
      field.isMutation = true ∧ owner = .operation)
    (result : ∀ selection, field.kind = .mutation selection → field.context = selection.result) :
    grown.Tidy where
  toPlaced := tidy.toPlaced.grow growth childless right
  once := by
    rw [growth.fields_addresses]
    exact (growth.listing_perm childless).trans (tidy.once.append_right _)
  parents := by
    intro other parent found stored
    rw [growth.mem_ownerFields childless]
    rcases growth.field?_cases stored with ⟨rfl, rfl⟩ | ⟨different, before, known, same⟩
    · -- The new address was listed nowhere, since what is listed is stored.
      have unlisted : other ∉ (tree.ownerFields (.field parent)).2 := fun listed => by
        obtain ⟨_, _, stored, -⟩ := tidy.listed listed
        exact growth.ne_of_stored stored rfl
      cases owner <;> simp [unlisted, Owner.parent?, eq_comm]
    · rw [same]
      simpa [different] using tidy.parents known
  names := by
    intro other
    have kept : ((tree.ownerFields other).2.map fun listed =>
          (grown.field? listed).map Field.name) =
        (tree.ownerFields other).2.map fun listed => (tree.field? listed).map Field.name := by
      refine List.map_congr_left fun listed inside => ?_
      obtain ⟨found, _, stored, -⟩ := tidy.listed inside
      obtain ⟨children, after⟩ := growth.stored_after stored
      rw [stored, after]
      rfl
    rw [growth.ownerFields_eq childless, List.map_append, kept]
    by_cases owns : other = owner
    · subst owns
      rw [if_pos rfl, List.map_singleton, growth.field?_new]
      refine List.Nodup.append (tidy.names other) (List.nodup_singleton _) ?_
      intro name before new
      obtain ⟨sibling, inside, named⟩ := List.mem_map.mp before
      obtain ⟨found, stored, called⟩ :=
        Option.map_eq_some_iff.mp (named.trans (List.mem_singleton.mp new))
      exact free sibling inside found stored called
    · simpa [owns] using tidy.names other
  results := by
    intro other found selection stored kind
    rcases growth.field?_cases stored with ⟨-, rfl⟩ | ⟨-, before, known, same⟩
    · exact result selection kind
    · rw [same] at kind ⊢
      exact @Tidy.results _ tidy _ before _ known kind

/-- A declared fragment lists nothing, so the lists stay tidy. -/
theorem Tidy.declareFragment (tidy : tree.Tidy) (name : String) (shape : Shape) (supply : Nat) :
    (tree.declareFragment name shape supply).1.2.Tidy where
  toPlaced := tidy.toPlaced.declareFragment name shape supply
  once := by
    have owners : (tree.declareFragment name shape supply).1.2.owners =
        tree.owners ++ [.fragment tree.fragments.nextAddress] := by
      simp only [declareFragment_eq, SelectionTree.owners, Arena.addresses_push, List.map_append,
        List.map_singleton, List.append_assoc, List.cons_append]
    have unknown : (tree.ownerFields (.fragment tree.fragments.nextAddress)).2 = [] := by
      simp [ownerFields, fragment?, Arena.item?_nextAddress]
    simp only [listing, owners, ownerFields_declareFragment, List.flatMap_append,
      List.flatMap_singleton, unknown, List.append_nil]
    exact tidy.once
  parents := by
    intro address parent field stored
    rw [field?_declareFragment] at stored
    rw [ownerFields_declareFragment]
    exact tidy.parents stored
  names := by
    intro owner
    simp only [ownerFields_declareFragment, field?_declareFragment]
    exact tidy.names owner
  results := by
    intro address field selection stored kind
    rw [field?_declareFragment] at stored
    exact tidy.results stored kind

/-- A tree without fields is tidy. -/
theorem tidy_drawSelectionTree (shape : Shape) (supply : Nat) :
    (drawSelectionTree shape supply).1.Tidy where
  listed := by
    intro owner address inside
    cases owner <;> cases inside
  increasing := nofun
  once := .nil
  parents := nofun
  names := by
    intro owner
    cases owner <;> exact .nil
  results := nofun

/-! ## Calls -/

/-- An operation with the variables that it is performed with, if any. -/
structure Call where
  step : Step
  supplied : Option Variables

/-- The owner and the name of the field that a step adds; a declaration adds no field. -/
def Step.adds? : Step → Option (Owner × String)
  | .select owner definition _ => some (owner, definition.name)
  | .spread owner name => some (owner, "..." ++ name)
  | .declareFragment _ _ => none
  | .selectMutation mutation _ => some (.operation, mutation.name)

namespace Call

variable {call : Call}

/-- Performs a call. -/
def perform (tree : SelectionTree) (call : Call) :
    Drawing (Except CompileFault (Address × SelectionTree)) :=
  match call.step with
  | .select owner definition request => tree.select owner definition request call.supplied
  | .spread owner name => pure (tree.spread owner name)
  | .declareFragment name shape => .ok <$> tree.declareFragment name shape
  | .selectMutation mutation request => tree.selectMutation mutation request call.supplied

/-- The tree after a call: a call that is refused leaves the tree as it was. -/
def after (tree : SelectionTree) (call : Call) : Drawing SelectionTree :=
  (fun result => (result.map Prod.snd).toOption.getD tree) <$> call.perform tree

/-- What is checked before the owner is looked at: the arguments of a selected field, and the
    fragment of a spread. -/
def Prepared (tree : SelectionTree) (call : Call) : Prop :=
  match call.step with
  | .select _ definition request =>
    ∃ arguments, tree.bindArguments definition request call.supplied = .ok arguments
  | .spread owner name =>
    ∃ fragment, tree.fragmentNamed? name = some fragment ∧ tree.closesCycle owner fragment = false
  | .declareFragment _ _ => True
  | .selectMutation _ _ => True

/-- No check of a call fails: its arguments bind or its fragment may be spread, its owner can
    have fields, and the name is free. -/
def Passes (tree : SelectionTree) (call : Call) : Prop :=
  call.Prepared tree ∧ ∀ owner name, call.step.adds? = some (owner, name) →
    (∃ context, tree.ownerContext owner = .ok context) ∧ tree.Free owner name

/-- The variables of a tree after a call that passes: those that a field is selected with are
    added. -/
def bound (tree : SelectionTree) (call : Call) : Variables :=
  if call.step.selects?.isSome then (call.supplied.map tree.bound.merge).getD tree.bound
  else tree.bound

end Call

/-- A tree has grown by a field without children, which is listed last under its owner; no
    other list has changed. -/
structure Appends (tree grown : SelectionTree) (owner : Owner) (field : Field)
    (address : Address) : Prop extends GrownBy tree grown owner field address where
  childless : field.children = []
  lists : ∀ other, (grown.ownerFields other).2 =
    (tree.ownerFields other).2 ++ if other = owner then [address] else []

/-- A tree that has grown by a field without children lists it last under its owner. -/
theorem GrownBy.appends (growth : tree.GrownBy grown owner field address)
    (childless : field.children = []) : tree.Appends grown owner field address :=
  ⟨growth, childless, growth.ownerFields_eq childless⟩

/-- What a call does to a tree, with the tree that it leaves. -/
inductive Call.Effect (tree : SelectionTree) (call : Call) :
    Except CompileFault (Address × SelectionTree) → SelectionTree → Prop where
  /-- A call of which a check fails leaves the tree as it was. -/
  | refused (fault : CompileFault) (fails : ¬ call.Passes tree) :
      Effect tree call (.error fault) tree
  /-- A call that adds a field appends it to one list. -/
  | appended {grown : SelectionTree} {owner : Owner} {field : Field} {address : Address}
      (passes : call.Passes tree) (adds : call.step.adds? = some (owner, field.name))
      (appends : tree.Appends grown owner field address) (bound : grown.bound = call.bound tree) :
      Effect tree call (.ok (address, grown)) grown
  /-- A declaration appends one fragment without fields. -/
  | declared {fragment : Fragment} (passes : call.Passes tree) (adds : call.step.adds? = none)
      (empty : fragment.fields = []) :
      Effect tree call
        (.ok (tree.fragments.nextAddress, { tree with fragments := tree.fragments.push fragment }))
        { tree with fragments := tree.fragments.push fragment }

/-- A stored field comes with what its call has to show for it. -/
theorem appends_of_insertField {context : Placeholder} {stored : SelectionTree}
    (owned : tree.ownerContext owner = .ok context) (childless : field.children = [])
    (inserted : tree.insertField owner field = .ok (address, stored)) (values : Option Variables) :
    let grown := { stored with bound := (values.map stored.bound.merge).getD stored.bound }
    tree.Free owner field.name ∧ tree.Appends grown owner field address ∧
      grown.bound = (values.map tree.bound.merge).getD tree.bound := by
  have growth := grownBy_of_insertField owned inserted
  have unchanged := bound_insertField inserted
  refine ⟨insertField_isOk_iff.mp ⟨_, inserted⟩, GrownBy.appends { growth with } childless, ?_⟩
  rw [unchanged]

/-- What is drawn for a mutation is called after it, has no children and is written over its
    result. -/
theorem drawMutation_stands (mutation : Mutation) (request : Request)
    (supplied : Option Variables) (supply : Nat) :
    let field := (drawMutation mutation request supplied supply).1
    field.name = mutation.name ∧ field.children = [] ∧ field.isMutation = true ∧
      ∀ selection, field.kind = .mutation selection → field.context = selection.result := by
  intro field
  obtain ⟨result, element?, drawn, -⟩ := drawMutation_spec mutation request supplied supply
  have same : field = _ := drawn
  rw [same]
  refine ⟨rfl, rfl, rfl, fun selection kind => ?_⟩
  cases kind
  rfl

namespace Call

variable {call : Call}

/-- A call that is not refused has passed its checks, adds what it is called for and keeps a
    tidy tree tidy. -/
theorem effect_of_ok (performed : (call.perform tree supply).1 = .ok (address, grown)) :
    call.Effect tree (.ok (address, grown)) grown ∧ (tree.Tidy → grown.Tidy) := by
  obtain ⟨step, supplied⟩ := call
  cases step with
  | select owner definition request =>
    obtain ⟨context, arguments, stored, owned, bound, inserted, rfl, -⟩ := select_ok performed
    obtain ⟨free, appends, merged⟩ := appends_of_insertField owned rfl inserted supplied
    refine ⟨.appended ⟨⟨arguments, bound⟩, ?_⟩ rfl appends merged, fun tidy => ?_⟩
    · rintro _ _ ⟨⟩
      exact ⟨⟨context, owned⟩, free⟩
    · have plain := drawSelected_plain definition context arguments supply
      refine tidy.grow appends.toGrownBy rfl free (.inl ⟨plain, owned⟩) fun selection kind => ?_
      simp [Field.isMutation, kind] at plain
  | spread owner name =>
    obtain ⟨fragment, context, named, passed, owned, inserted⟩ := spread_ok performed
    obtain ⟨free, appends, unchanged⟩ := appends_of_insertField owned rfl inserted none
    refine ⟨.appended ⟨⟨fragment, named, passed⟩, ?_⟩ rfl appends unchanged, fun tidy => ?_⟩
    · rintro _ _ ⟨⟩
      exact ⟨⟨context, owned⟩, free⟩
    · refine tidy.grow appends.toGrownBy rfl free (.inl ⟨rfl, owned⟩) fun selection kind => ?_
      cases kind
  | declareFragment name shape =>
    cases performed
    refine ⟨.declared ⟨trivial, ?_⟩ rfl rfl, fun tidy => tidy.declareFragment name shape supply⟩
    rintro _ _ ⟨⟩
  | selectMutation mutation request =>
    simp only [perform, selectMutation_eq, Drawing.run_map] at performed
    obtain ⟨named, childless, mutates, result⟩ :=
      drawMutation_stands mutation request supplied supply
    obtain ⟨free, appends, unchanged⟩ := appends_of_insertField rfl childless performed none
    refine ⟨.appended ⟨trivial, ?_⟩ (by rw [named]; rfl) appends unchanged, fun tidy => ?_⟩
    · rintro _ _ ⟨⟩
      exact ⟨⟨_, rfl⟩, named ▸ free⟩
    · exact tidy.grow appends.toGrownBy childless free (.inr ⟨mutates, rfl⟩) result

/-- A call that passes its checks is not refused. -/
theorem ok_of_passes (passes : call.Passes tree) :
    ∃ added, (call.perform tree supply).1 = .ok added := by
  obtain ⟨step, supplied⟩ := call
  obtain ⟨prepared, fits⟩ := passes
  cases step with
  | select owner definition request =>
    obtain ⟨arguments, bound⟩ := prepared
    obtain ⟨⟨context, owned⟩, free⟩ := fits _ _ rfl
    obtain ⟨⟨place, stored⟩, inserted⟩ :=
      (@insertField_isOk_iff tree owner (drawSelected definition context arguments supply).1).mpr
        free
    simp only [drawSelected, Drawing.run_bind, Drawing.run_pure] at inserted
    simp only [perform, select, owned, bound, Drawing.run_bind, Drawing.run_pure, inserted]
    exact ⟨_, rfl⟩
  | spread owner name =>
    obtain ⟨fragment, named, passed⟩ := prepared
    obtain ⟨⟨context, owned⟩, free⟩ := fits _ _ rfl
    obtain ⟨added, inserted⟩ :=
      (@insertField_isOk_iff tree owner (spreadField name fragment context)).mpr free
    refine ⟨added, ?_⟩
    simp only [perform, spread, named, passed, owned, Drawing.run_pure]
    exact inserted
  | declareFragment name shape => exact ⟨_, rfl⟩
  | selectMutation mutation request =>
    obtain ⟨-, free⟩ := fits _ _ rfl
    obtain ⟨named, -⟩ := drawMutation_stands mutation request supplied supply
    rw [← named] at free
    obtain ⟨added, inserted⟩ := insertField_isOk_iff.mpr free
    refine ⟨added, ?_⟩
    simp only [perform, selectMutation_eq, Drawing.run_map, inserted]

/-- Every call has its effect on every tree. -/
theorem effect (call : Call) (tree : SelectionTree) (supply : Nat) :
    call.Effect tree (call.perform tree supply).1 (call.after tree supply).1 := by
  simp only [after, Drawing.run_map]
  cases performed : (call.perform tree supply).1 with
  | error fault =>
    refine .refused fault fun passes => ?_
    obtain ⟨added, passed⟩ := @ok_of_passes tree supply call passes
    cases performed.symm.trans passed
  | ok added => exact (effect_of_ok performed).1

end Call

/-! ## Runs of calls -/

/-- Performs calls one after the other; a call that is refused is skipped. -/
def runCalls (calls : List Call) (tree : SelectionTree) : Drawing SelectionTree :=
  calls.foldlM Call.after tree

/-- A call keeps a tidy tree tidy, whether or not it is refused. -/
theorem Tidy.after (tidy : tree.Tidy) (call : Call) : (call.after tree supply).1.Tidy := by
  simp only [Call.after, Drawing.run_map]
  cases performed : (call.perform tree supply).1 with
  | error fault => exact tidy
  | ok added => exact (Call.effect_of_ok performed).2 tidy

/-- Calls keep a tidy tree tidy. -/
theorem Tidy.runCalls (tidy : tree.Tidy) (calls : List Call) :
    (runCalls calls tree supply).1.Tidy := by
  induction calls generalizing tree supply with
  | nil => exact tidy
  | cons call rest ih =>
    simp only [SelectionTree.runCalls, List.foldlM_cons, Drawing.run_bind] at ih ⊢
    exact ih (tidy.after call)

/-- However calls have grown a tree, it is tidy: every field is listed exactly once, under its
    parent if it has one and after it, over the placeholder of its owner, with a name that no
    field beside it has. The next call, whatever it is, either fails a check and leaves the tree
    as it was, or appends one field without children to one list, or declares one fragment
    without fields.

    Proof: what a call stores is taken apart once, and a tree that was tidy before is tidy with
    what is stored. -/
theorem tidy_atomic_runCalls (shape : Shape) (start : Nat) (calls : List Call) :
    let empty := drawSelectionTree shape start
    let reached := (runCalls calls empty.1 empty.2).1
    reached.Tidy ∧ ∀ (call : Call) (supply : Nat),
      call.Effect reached (call.perform reached supply).1 (call.after reached supply).1 :=
  ⟨(tidy_drawSelectionTree shape start).runCalls calls, fun call supply => call.effect _ supply⟩

end SelectionTree

end StagedQuery
