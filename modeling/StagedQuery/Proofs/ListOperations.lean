import StagedQuery.Proofs.Extension
import StagedQuery.Proofs.Sorting

/-!
# What list operations result in

A map, a filter and a sort of a list, where their bodies have a result for every item. A sort
results in the stable order of the items by the values of its keys: nothing is lost or repeated,
an item that a key puts first comes first, and items that no key tells apart keep their places,
in descending order too.
-/

namespace StagedQuery

open Outcome

variable {provider : Provider} {env : Environment} {items : List Value} {slot : Placeholder}

/-- A list operation on a list runs its body on the items. -/
theorem withItems_result {operation : String} {source : Outcome Value}
    {body : List Value → Outcome Value} {value : Value}
    (listed : source.result = .ok (.list items)) (made : (body items).result = .ok value) :
    (withItems operation source body).result = .ok value := by
  rw [withItems_eq_bind, bind_result_eq_ok]
  exact ⟨.list items, listed, made⟩

/-- A plain body has a plain value for every item. -/
theorem mapItems_pure {α : Type} (result : Value → α) (items : List Value) :
    mapItems (fun item => pure (result item)) items = pure (items.map result) := by
  induction items with
  | nil => rfl
  | cons item rest ih => simp only [mapItems, ih, pure_bind, List.map_cons]

/-- A map has a result if its body has one for every item, whatever the body calls. -/
theorem mapItems_result {α : Type} {body : Value → Outcome α} {result : Value → α}
    (each : ∀ item ∈ items, (body item).result = .ok (result item)) :
    (mapItems body items).result = .ok (items.map result) := by
  induction items with
  | nil => rfl
  | cons item rest ih =>
    simp only [mapItems, bind_result_eq_ok, List.map_cons]
    exact ⟨_, each item (by simp), _, ih fun other inside => each other (by simp [inside]), rfl⟩

/-- A plain test keeps what passes it. -/
theorem keepItems_pure (passes : Value → Bool) (items : List Value) :
    keepItems (fun item => pure (.bool (passes item))) items = pure (items.filter passes) := by
  induction items with
  | nil => rfl
  | cons item rest ih =>
    simp only [keepItems, ih, pure_bind, List.filter_cons]
    cases passes item <;> rfl

/-- A map results in the results of its body, if the body has one for every item. -/
theorem result_map {source body : Expr} {result : Value → Value}
    (listed : (source.evaluate provider env).result = .ok (.list items))
    (each : ∀ item ∈ items,
      (body.evaluate provider (env.bind slot item)).result = .ok (result item)) :
    ((Expr.map source slot body).evaluate provider env).result =
      .ok (.list (items.map result)) := by
  rw [Expr.evaluate]
  exact withItems_result listed (bind_result_eq_ok.mpr ⟨_, mapItems_result each, rfl⟩)

namespace Expr

/-! ## Sorts -/

/-- The value of an expression on an item, null where it fails. -/
def valueOn (provider : Provider) (env : Environment) (slot : Placeholder) (expr : Expr)
    (item : Value) : Value :=
  match (expr.evaluate provider (env.bind slot item)).result with
  | .ok value => value
  | .error _ => .null

/-- Where an expression succeeds on an item, its result is its value on the item. -/
theorem result_of_succeeds {expr : Expr} {item : Value}
    (succeeds : (expr.evaluate provider (env.bind slot item)).Succeeds) :
    (expr.evaluate provider (env.bind slot item)).result =
      .ok (expr.valueOn provider env slot item) := by
  obtain ⟨value, found⟩ := succeeds
  rw [valueOn, found]

/-- A member read from an item has the value of the item's member. -/
theorem valueOn_itemMember (name : String) (item : Value) :
    ((Expr.read slot).get name).valueOn provider env slot item = item.member name := by
  rw [valueOn, Extension.evaluate_itemMember]
  rfl

/-- The keys of an item are evaluated one by one. -/
theorem evaluateKeys_result {keys : List (Expr × Direction)} {value : Expr → Value}
    (each : ∀ key ∈ keys, (key.1.evaluate provider env).result = .ok (value key.1)) :
    (evaluateKeys provider keys env).result = .ok (keys.map fun key => value key.1) := by
  induction keys with
  | nil => rfl
  | cons key rest ih =>
    simp only [evaluateKeys, bind_result_eq_ok, List.map_cons]
    exact ⟨_, each key (by simp), _, ih fun other inside => each other (by simp [inside]), rfl⟩

/-- A sort yields the stable order of a list by its keys, each in its direction, whenever the keys
    have values on all items and the values of each key can be compared: null beside integers,
    beside truth values or beside texts. Null stands first where the direction is ascending. -/
theorem sort_stable {source : Expr} {keys : List (Expr × Direction)}
    (listed : (source.evaluate provider env).result = .ok (.list items))
    (evaluates : ∀ key ∈ keys, ∀ item ∈ items,
      (key.1.evaluate provider (env.bind slot item)).Succeeds)
    (comparable : ∀ key ∈ keys, Comparable (items.map (key.1.valueOn provider env slot))) :
    ∃ sorted, ((Expr.sort source slot keys).evaluate provider env).result = .ok (.list sorted) ∧
      StableSort (standsBeforeBy (keys.map fun key => (key.1.valueOn provider env slot, key.2)))
        items sorted := by
  let reads := keys.map fun key => (key.1.valueOn provider env slot, key.2)
  have keyed : (mapItems (fun item => do
      let values ← evaluateKeys provider keys (env.bind slot item)
      pure (values, item)) items).result =
        .ok (items.map fun item => (reads.map fun read => read.1 item, item)) := by
    refine mapItems_result fun item inside => bind_result_eq_ok.mpr ⟨_, ?_, rfl⟩
    rw [List.map_map]
    exact @evaluateKeys_result _ _ keys (·.valueOn provider env slot item) fun key given =>
      result_of_succeeds (evaluates key given item inside)
  have sorts := @sortItems_keys Value reads items (List.forall_mem_map.mpr comparable)
  refine ⟨items.mergeSort (standsBeforeBy reads), ?_,
    stableSort_mergeSort (totalPreorder_standsBeforeBy reads) items⟩
  rw [Expr.evaluate]
  refine withItems_result listed (bind_result_eq_ok.mpr ⟨_, keyed, ?_⟩)
  rw [← sorts, List.map_map]
  rfl

/-- A film with a title and a year. -/
def filmOf (title : String) (year : Value) : Value :=
  .object [("title", .string title), ("year", year)]

/-- Films as a service lists them: the year of one of them is not known. -/
def filmList : List Value :=
  [filmOf "Heat" (.int 1995), filmOf "Alien" .null, filmOf "Heat" (.int 1986),
    filmOf "Clue" (.int 1995)]

/-- The placeholder of a film. -/
def filmSlot : Placeholder :=
  ⟨3, "film", .any⟩

/-- A sort by year, the latest first, and then by title. -/
def latestFirst : List (Expr × Direction) :=
  [((Expr.read filmSlot).get "year", .descending), ((Expr.read filmSlot).get "title", .ascending)]

/-- The films of one year stand by title, and the film without a year stands last. -/
theorem sort_stable_filmList :
    ∃ sorted, ((Expr.sort (.constant (.list filmList)) filmSlot latestFirst).evaluate
        Provider.none []).result = .ok (.list sorted) ∧
      StableSort (standsBeforeBy (latestFirst.map fun key =>
        (key.1.valueOn Provider.none [] filmSlot, key.2))) filmList sorted ∧
      sorted = [filmOf "Clue" (.int 1995), filmOf "Heat" (.int 1995), filmOf "Heat" (.int 1986),
        filmOf "Alien" .null] := by
  have listed : ((Expr.constant (.list filmList)).evaluate Provider.none []).result =
      .ok (.list filmList) := rfl
  have evaluates : ∀ key ∈ latestFirst, ∀ item ∈ filmList,
      (key.1.evaluate Provider.none (Environment.bind [] filmSlot item)).Succeeds := by
    simp only [latestFirst, List.forall_mem_cons, Extension.evaluate_itemMember]
    exact ⟨fun item _ => succeeds_pure _, fun item _ => succeeds_pure _, by simp⟩
  have comparable : ∀ key ∈ latestFirst,
      Comparable (filmList.map (key.1.valueOn Provider.none [] filmSlot)) := by
    simp only [latestFirst, List.forall_mem_cons]
    refine ⟨.inl ?_, .inr (.inr ?_), by simp⟩
    · simp [filmList, filmOf, valueOn_itemMember, Value.member, Members.value?]
    · simp [filmList, filmOf, valueOn_itemMember, Value.member, Members.value?, Value.text?]
  obtain ⟨sorted, found, stable⟩ := sort_stable listed evaluates comparable
  have computed : ((Expr.sort (.constant (.list filmList)) filmSlot latestFirst).evaluate
      Provider.none []).result = .ok (.list [filmOf "Clue" (.int 1995), filmOf "Heat" (.int 1995),
        filmOf "Heat" (.int 1986), filmOf "Alien" .null]) := rfl
  cases found.symm.trans computed
  exact ⟨_, found, stable, rfl⟩

end Expr

end StagedQuery
