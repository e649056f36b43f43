/-!
# Members in order of first arrival

A list of named members whose order is the order in which the names first
arrived. Objects, input objects, document variables and objects under
construction all keep their members this way.

Two ways of adding a member are used. `put` lets the last value win and keeps
the place of the name; `offer` lets the first value win. Both leave a list whose
names are pairwise distinct if they were so before, and both leave every other
name as it was.
-/

namespace StagedQuery

/-- Named values in order of first arrival. -/
abbrev Members (α : Type) := List (String × α)

namespace Members

variable {α β : Type}

/-- The value of the first member called `name`. -/
def value? (members : Members α) (name : String) : Option α :=
  match members with
  | [] => none
  | (other, value) :: rest => if other = name then some value else value? rest name

/-- Whether a member called `name` is present. -/
def has (members : Members α) (name : String) : Bool :=
  (members.value? name).isSome

/-- The names, in order. -/
def names (members : Members α) : List String :=
  members.map Prod.fst

/-- Sets the member called `name`, in its place if it is present and at the end
    otherwise. -/
def put (members : Members α) (name : String) (value : α) : Members α :=
  match members with
  | [] => [(name, value)]
  | (other, old) :: rest =>
    if other = name then (name, value) :: rest else (other, old) :: put rest name value

/-- Takes the member called `name` out, keeping the order of the rest. -/
def remove (members : Members α) (name : String) : Members α :=
  match members with
  | [] => []
  | (other, value) :: rest => if other = name then rest else (other, value) :: remove rest name

/-- Adds a member at the end unless its name is taken. -/
def offer (members : Members α) (name : String) (value : α) : Members α :=
  if members.has name then members else members ++ [(name, value)]

/-- Inserts every pair in turn, so a repeated name keeps its first place and its
    last value. -/
def putAll (members : Members α) (pairs : List (String × α)) : Members α :=
  pairs.foldl (fun gathered pair => gathered.put pair.1 pair.2) members

/-- The members that a list of pairs describes when the last value of a name wins. -/
def ofPairs (pairs : List (String × α)) : Members α :=
  putAll [] pairs

/-- The members that a list of pairs describes when the first value of a name wins. -/
def firsts (pairs : List (String × α)) : Members α :=
  pairs.foldl (fun gathered pair => gathered.offer pair.1 pair.2) []

/-- Puts one member into a list that is sorted by name, replacing a value of the
    same name. -/
def putSorted (members : Members α) (name : String) (value : α) : Members α :=
  match members with
  | [] => [(name, value)]
  | (other, old) :: rest =>
    if name < other then (name, value) :: (other, old) :: rest
    else if other = name then (name, value) :: rest
    else (other, old) :: putSorted rest name value

/-- The members sorted by name, code point by code point; the last value of a
    repeated name wins. -/
def sorted (pairs : List (String × α)) : Members α :=
  pairs.foldl (fun gathered pair => gathered.putSorted pair.1 pair.2) []

/-- Names that are pairwise distinct. -/
def Distinct (members : Members α) : Prop :=
  members.names.Nodup

/-- No name is found among no members. -/
@[simp] theorem value?_nil (name : String) : value? ([] : Members α) name = none := rfl

/-- The first member is looked at before the others. -/
theorem value?_cons (other : String) (value : α) (rest : Members α) (name : String) :
    value? ((other, value) :: rest) name =
      if other = name then some value else value? rest name := rfl

/-- A member that was just inserted is found. -/
@[simp] theorem value?_put_self (members : Members α) (name : String) (value : α) :
    (members.put name value).value? name = some value := by
  induction members with
  | nil => simp [put, value?]
  | cons head rest ih =>
    obtain ⟨other, old⟩ := head
    by_cases same : other = name <;> simp [put, value?, same, ih]

/-- Inserting one member leaves every other name as it was. -/
theorem value?_put_of_ne (members : Members α) {name other : String} (value : α)
    (different : other ≠ name) : (members.put name value).value? other = members.value? other := by
  induction members with
  | nil => simp [put, value?, Ne.symm different]
  | cons head rest ih =>
    obtain ⟨first, old⟩ := head
    by_cases same : first = name
    · subst same
      simp [put, value?, Ne.symm different]
    · simp [put, value?, same, ih]

/-- A name has a member exactly when it is among the names. -/
theorem value?_isSome_iff (members : Members α) (name : String) :
    (members.value? name).isSome = true ↔ name ∈ members.names := by
  induction members with
  | nil => simp [names]
  | cons head rest ih =>
    obtain ⟨other, value⟩ := head
    by_cases same : other = name
    · simp [value?, names, same]
    · simpa [value?, names, same, Ne.symm same] using ih

/-- Inserting adds a name at the end, or no name at all. -/
theorem names_put (members : Members α) (name : String) (value : α) :
    (members.put name value).names =
      if name ∈ members.names then members.names else members.names ++ [name] := by
  induction members with
  | nil => simp [put, names]
  | cons head rest ih =>
    obtain ⟨other, old⟩ := head
    by_cases same : other = name
    · simp [put, names, same]
    · have tail : (put rest name value).map Prod.fst = _ := ih
      by_cases member : name ∈ rest.map Prod.fst
      · simp [put, names, same, tail, member]
      · simp [put, names, same, Ne.symm same, tail, member]

/-- Inserting keeps the names pairwise distinct. -/
theorem distinct_put {members : Members α} (distinct : members.Distinct) (name : String)
    (value : α) : (members.put name value).Distinct := by
  unfold Distinct at distinct ⊢
  rw [names_put]
  split
  · exact distinct
  · rename_i fresh
    exact List.nodup_append.mpr ⟨distinct, by simp, by
      intro left inLeft right inRight equal
      simp only [List.mem_singleton] at inRight
      exact fresh (inRight ▸ equal ▸ inLeft)⟩

/-- Offering a member keeps the names pairwise distinct. -/
theorem distinct_offer {members : Members α} (distinct : members.Distinct) (name : String)
    (value : α) : (members.offer name value).Distinct := by
  unfold offer
  split
  · exact distinct
  · rename_i absent
    have fresh : name ∉ members.names := by
      simpa [has, value?_isSome_iff] using absent
    unfold Distinct at distinct ⊢
    simp only [names, List.map_append, List.map_cons, List.map_nil]
    refine List.nodup_append.mpr ⟨distinct, by simp, ?_⟩
    intro left inLeft right inRight equal
    simp only [List.mem_singleton] at inRight
    exact fresh (inRight ▸ equal ▸ inLeft)

/-- First-come members have pairwise distinct names. -/
theorem distinct_firsts (pairs : List (String × α)) : (firsts pairs).Distinct := by
  have every : ∀ (pairs : List (String × α)) (start : Members α), start.Distinct →
      (pairs.foldl (fun gathered pair => gathered.offer pair.1 pair.2) start).Distinct := by
    intro pairs
    induction pairs with
    | nil => exact fun _ distinct => distinct
    | cons pair rest ih => exact fun start distinct => ih _ (distinct_offer distinct _ _)
  exact every pairs [] (by simp [Distinct, names])

end Members

end StagedQuery
