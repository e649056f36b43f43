import StagedQuery.Proofs.Argument.Binding
import StagedQuery.Proofs.Argument.Conformance
import StagedQuery.Proofs.ListOperations
import StagedQuery.Proofs.Paging

/-!
# What the list hooks do to items

With arguments that are written out, each built-in hook around the selection of a list does
one thing to the items, whatever else the expression, the supply and the environment are: a
filter keeps the items that have what is wanted, a sort puts them in their stable order, a
page cuts them. Hooks that are applied one after the other do these things one after the
other.

Of the items only what the hooks look at has to be known: that a sort can compare them.
-/

namespace StagedQuery

open Outcome

/-! ## Arguments that are written out -/

/-- Every argument of a request is written out. -/
def Request.Literal (request : Request) : Prop :=
  ∀ entry ∈ request.entries, ∃ value, entry.2 = .literal value

/-- An object that fits a type has distinct names. -/
theorem ArgumentType.distinct_of_coerce? {type : ArgumentType} {value : Value}
    {members : Members Value} (coerced : type.coerce? value = some (.object members)) :
    members.Distinct := by
  cases coerce?_iff.mp coerced with
  | object fits => exact fits.distinct (by simp [Members.Distinct, Members.names])
  | scalar fits =>
    unfold coerceScalar? at fits
    split at fits <;> cases fits
  | listed fits =>
    obtain ⟨_, -, same⟩ := exists_name_of_coerceName? fits
    cases same

namespace ArgumentSet

variable {field : String} {table : List Binding} {request : Request}
  {supplied : Option Variables} {arguments : ArgumentSet} {member : String}

/-- Nothing that is written out comes from a variable. -/
theorem source?_of_literal (literal : request.Literal)
    (bound : bind field table request supplied = .ok arguments) (member : String) :
    arguments.sources.value? member = none := by
  refine (source?_of_unread ?_ (bind_ok bound).2).trans rfl
  rintro binding - - ⟨name, before, after, listed, -⟩
  obtain ⟨value, written⟩ := literal (binding.schemaName, .fromVariable name) (by simp [listed])
  cases written

/-- A bound object has distinct names. -/
theorem distinct_of_bind (bound : bind field table request supplied = .ok arguments)
    {members : Members Value} (held : arguments.value? member = some (.object members)) :
    members.Distinct := by
  revert held
  refine foldlM_bindOne_induction
    (fun current => current.value? member = some (.object members) → members.Distinct)
    (by simp [value?, empty]) ?_ (bind_ok bound).2
  intro binding _ current next before step
  rcases bindOne_eq_ok step with ⟨value, origin, fitted, -, coerced, rfl⟩ | ⟨-, rfl⟩
  · by_cases same : member = binding.member
    · subst same
      rw [value?_take_self]
      rintro ⟨⟩
      exact ArgumentType.distinct_of_coerce? coerced
    · rwa [value?_take_of_ne same]
  · exact before

/-- A member of an object that does not come from a variable is written out. -/
theorem memberExpr_of_source?_eq_none (known : arguments.sources.value? member = none)
    (name : String) :
    arguments.memberExpr member name =
      .constant (((arguments.value? member).map (·.member name)).getD .null) := by
  have unread : arguments.variableRead? member = none := by
    simp only [variableRead?, known]
    split <;> simp_all
  rw [memberExpr, unread]

end ArgumentSet

/-! ## Acting on the items of a list -/

/-- An adjustment acts on lists whose items are usable: it turns an expression that results in
    such a list into one that results in the list that the action makes of it. -/
def ActsOnItems (adjust : Expr → Drawing Expr) (usable : Value → Prop)
    (action : List Value → List Value) : Prop :=
  ∀ expr supply provider env items,
    (expr.evaluate provider env).result = .ok (.list items) → (∀ item ∈ items, usable item) →
      ((adjust expr supply).1.evaluate provider env).result = .ok (.list (action items))

variable {field : String} {arguments : ArgumentSet} {usable : Value → Prop} {provider : Provider}
  {env : Environment} {items : List Value}

/-- The adjustment that changes nothing leaves every list as it is. -/
theorem actsOnItems_none (field : String) (arguments : ArgumentSet) :
    ActsOnItems (Adjustment.none field arguments) usable id :=
  fun _ _ _ _ _ listed _ => listed

/-- Adjustments that drop and move items only act in turn, if each of them acts. -/
theorem actsOnItems_adjustAll {pick : Extension → Adjustment} {extensions : List Extension}
    {actions : List (List Value → List Value)}
    (each : List.Forall₂ (fun extension action =>
      ActsOnItems (pick extension field arguments) usable action ∧ ∀ items, action items ⊆ items)
      extensions actions) :
    ActsOnItems (Extension.adjustAll pick field arguments extensions) usable
      fun items => actions.foldl (fun left action => action left) items := by
  induction each with
  | nil => exact fun _ _ _ _ _ listed _ => listed
  | cons head _ ih =>
    obtain ⟨acts, keeps⟩ := head
    intro expr supply provider env items listed all
    exact ih _ _ provider env _ (acts expr supply provider env items listed all)
      fun item inside => all item (keeps items inside)

namespace Extension

/-! ## Filters -/

/-- The bound members of an argument have distinct names. -/
theorem distinct_boundMembers {table : List Binding} {request : Request}
    {supplied : Option Variables}
    (bound : ArgumentSet.bind field table request supplied = .ok arguments) (member : String) :
    (boundMembers arguments member).Distinct := by
  unfold boundMembers
  cases held : arguments.value? member with
  | none => simp [Members.Distinct, Members.names]
  | some value =>
    cases value with
    | object members => exact ArgumentSet.distinct_of_bind bound held
    | _ => simp [Value.members?, Members.Distinct, Members.names]

/-- Whether an item has what is wanted: each of its members loosely equals the wanted value,
    unless that is null. -/
def hasWanted (wanted : Members Value) (item : Value) : Bool :=
  wanted.all fun (name, value) => value.isNull || (item.member name).looseSame value

/-- A conjunction of tests that result in truth values results in whether all of them hold. -/
theorem evaluate_conjunction {α : Type} {test : α → Expr} {holds : α → Bool} {names : List α}
    (each : ∀ name ∈ names, (test name).evaluate provider env = pure (.bool (holds name))) :
    (conjunction (names.map test)).evaluate provider env = pure (.bool (names.all holds)) := by
  have joined (rest : List α) (first : Expr) (truth : Bool)
      (begins : first.evaluate provider env = pure (.bool truth))
      (each : ∀ name ∈ rest, (test name).evaluate provider env = pure (.bool (holds name))) :
      ((rest.map test).foldl (.binary .and) first).evaluate provider env =
        pure (.bool (truth && rest.all holds)) := by
    induction rest generalizing first truth with
    | nil => simpa using begins
    | cons name rest ih =>
      have both : (Expr.binary .and first (test name)).evaluate provider env =
          pure (.bool (truth && holds name)) := by
        simp only [Expr.evaluate, begins, each name (by simp), pure_bind]
        cases truth <;> cases holds name <;> rfl
      rw [List.all_cons, ← Bool.and_assoc]
      exact ih _ _ both fun other inside => each other (by simp [inside])
  cases names with
  | nil => rfl
  | cons name rest =>
    exact joined rest _ _ (each name (by simp)) fun other inside => each other (by simp [inside])

/-- The members that are compared are the bound ones that are not null. -/
theorem mem_comparedMembers {name : String} :
    name ∈ comparedMembers arguments ↔
      ∃ value, (name, value) ∈ boundMembers arguments "filter" ∧ value.isNull = false := by
  simp only [comparedMembers, List.mem_filterMap]
  constructor
  · rintro ⟨⟨other, value⟩, inside, kept⟩
    cases null : value.isNull with
    | true => simp [null] at kept
    | false =>
      obtain rfl : other = name := by simpa [null] using kept
      exact ⟨value, inside, null⟩
  · rintro ⟨value, inside, given⟩
    exact ⟨(name, value), inside, by simp [given]⟩

/-- The value that an item is compared with by a member. -/
def wantedValue (arguments : ArgumentSet) (name : String) : Value :=
  ((arguments.value? "filter").map (·.member name)).getD .null

/-- What is wanted of a member is what the filter argument binds it to. -/
theorem wantedValue_of_mem (distinct : (boundMembers arguments "filter").Distinct) {name : String}
    {value : Value} (inside : (name, value) ∈ boundMembers arguments "filter") :
    wantedValue arguments name = value := by
  simp only [boundMembers] at inside distinct
  cases held : arguments.value? "filter" with
  | none => simp [held] at inside
  | some filter =>
    cases filter with
    | object members =>
      simp only [held, Option.bind_some, Value.members?, Option.getD_some] at inside distinct
      simp [wantedValue, held, Value.member, Members.value?_of_mem distinct inside]
    | _ => simp [held, Value.members?] at inside

/-- An item passes for all members that are compared exactly if it has what is wanted. -/
theorem all_comparedMembers (distinct : (boundMembers arguments "filter").Distinct)
    (item : Value) :
    ((comparedMembers arguments).all fun name =>
        (item.member name).looseSame (wantedValue arguments name)) =
      hasWanted (boundMembers arguments "filter") item := by
  rw [hasWanted, Bool.eq_iff_iff, List.all_eq_true, List.all_eq_true]
  simp only [mem_comparedMembers, Prod.forall, Bool.or_eq_true]
  constructor
  · intro each name value inside
    cases null : value.isNull with
    | true => exact .inl rfl
    | false => exact .inr (wantedValue_of_mem distinct inside ▸ each name ⟨value, inside, null⟩)
  · rintro each name ⟨value, inside, given⟩
    rw [wantedValue_of_mem distinct inside]
    exact (each name value inside).resolve_left (by simp [given])

/-- A test compares with the wanted value, if that is written out. -/
theorem evaluate_filterTest_literal (known : arguments.sources.value? "filter" = none)
    (slot : Placeholder) (item : Value) (name : String) :
    (filterTest arguments slot name).evaluate provider (env.bind slot item) =
      pure (.bool ((item.member name).looseSame (wantedValue arguments name))) := by
  simp only [filterTest, ArgumentSet.memberExpr_of_source?_eq_none known, Expr.evaluate,
    evaluate_itemMember, pure_bind]
  rfl

/-- A filter that is written out keeps the items that have what is wanted. -/
theorem actsOnItems_filterSource (field : String)
    (known : arguments.sources.value? "filter" = none)
    (distinct : (boundMembers arguments "filter").Distinct) :
    ActsOnItems (filterSource field arguments) usable
      (List.filter (hasWanted (boundMembers arguments "filter"))) := by
  intro expr supply provider env items listed _
  have passes (slot : Placeholder) (item : Value) :
      (conjunction ((comparedMembers arguments).map (filterTest arguments slot))).evaluate provider
          (env.bind slot item) =
        pure (.bool (hasWanted (boundMembers arguments "filter") item)) := by
    rw [← all_comparedMembers distinct]
    exact evaluate_conjunction fun name _ => evaluate_filterTest_literal known slot item name
  rw [filterSource_eq]
  split
  · rename_i nothing
    have all (item : Value) : hasWanted (boundMembers arguments "filter") item = true := by
      rw [← all_comparedMembers distinct, List.isEmpty_iff.mp nothing]
      rfl
    rw [List.filter_eq_self.mpr fun item _ => all item]
    exact listed
  · simp only [Drawing.run_bind, Drawing.run_pure, Expr.evaluate, passes, keepItems_pure]
    exact withItems_result listed rfl

/-! ## Sorts -/

/-- A sort puts items that it can compare in their stable order. -/
theorem actsOnItems_sortSource (field : String) {all : List Value}
    (comparable : ∀ key ∈ sortedMembers arguments, Comparable (all.map (·.member key.1))) :
    ActsOnItems (sortSource field arguments) (· ∈ all)
      (List.mergeSort · (standsBefore (sortedMembers arguments))) := by
  intro expr supply provider env items listed inside
  rw [sortSource_eq]
  split
  · rename_i nothing
    simp only [List.isEmpty_iff.mp nothing, mergeSort_standsBefore_nil]
    exact listed
  · have own : ∀ key ∈ sortedMembers arguments, Comparable (items.map (·.member key.1)) :=
      fun key listed => (comparable key listed).mono (List.map_subset _ inside)
    simp only [Drawing.run_bind, Drawing.run_pure, Expr.evaluate, evaluateKeys_sort, pure_bind,
      mapItems_pure, List.map_map]
    refine withItems_result listed ?_
    rw [← sortItems_members own]
    rfl

/-! ## Pages -/

/-- A page that is accepted has the items of the page. -/
theorem actsOnItems_pageSelection {default maximum : Option Nat}
    (accepted : (paging default maximum).validate field arguments = .ok ()) :
    ActsOnItems (pageSelection default maximum field arguments) usable
      (pageOf default maximum arguments) := by
  intro expr supply provider env items listed _
  exact result_pageSelection accepted listed supply

end Extension

end StagedQuery
