import StagedQuery.Members

/-!
# Looking members up

Where the first value of a name wins, a lookup in the gathered members is a lookup in
the pairs that were offered. Where names are pairwise distinct, gathering changes
nothing, and a member can be found by its name alone.
-/

namespace StagedQuery.Members

variable {α β : Type}

/-! ## Lookups -/

/-- A name has the value that it has among the first members, or else among the others. -/
theorem value?_append (left right : Members α) (name : String) :
    value? (left ++ right) name = (value? left name).or (value? right name) := by
  induction left with
  | nil => rfl
  | cons head rest ih =>
    obtain ⟨other, value⟩ := head
    by_cases same : other = name
    · simp [value?, same]
    · simpa [value?, same] using ih

/-- A lookup finds the first member of the name. -/
theorem value?_eq_find? (members : Members α) (name : String) :
    members.value? name = (members.find? fun member => member.1 = name).map Prod.snd := by
  induction members with
  | nil => rfl
  | cons head rest ih =>
    obtain ⟨other, value⟩ := head
    by_cases same : other = name <;> simp [value?, same, ih]

/-- A member that is found is one of the members. -/
theorem mem_of_value? {members : Members α} {name : String} {value : α}
    (found : members.value? name = some value) : (name, value) ∈ members := by
  induction members with
  | nil => cases found
  | cons head rest ih =>
    obtain ⟨other, first⟩ := head
    by_cases same : other = name
    · simp only [value?, same, ↓reduceIte, Option.some.injEq] at found
      simp [same, found]
    · simp only [value?, same, ↓reduceIte] at found
      exact List.mem_cons_of_mem _ (ih found)

/-- A listed name is found, with the value of one of its pairs. -/
theorem exists_value?_of_mem {members : Members α} {name : String} {value : α}
    (inside : (name, value) ∈ members) : ∃ first, members.value? name = some first :=
  Option.isSome_iff_exists.mp
    ((value?_isSome_iff members name).mpr (List.mem_map_of_mem inside))

/-- Where names are distinct, a listed member is found. -/
theorem value?_of_mem {members : Members α} (distinct : members.Distinct) {name : String}
    {value : α} (inside : (name, value) ∈ members) : members.value? name = some value := by
  induction members with
  | nil => cases inside
  | cons head rest ih =>
    obtain ⟨other, first⟩ := head
    obtain ⟨fresh, others⟩ := List.nodup_cons.mp distinct
    rcases List.mem_cons.mp inside with same | deeper
    · cases same
      simp [value?]
    · have different : other ≠ name := by
        rintro rfl
        exact fresh (List.mem_map.mpr ⟨_, deeper, rfl⟩)
      simpa [value?, different] using ih others deeper

/-- A lookup after a change of the values is the changed lookup. -/
theorem value?_map (change : α → β) (members : Members α) (name : String) :
    value? (members.map fun member => (member.1, change member.2)) name =
      (members.value? name).map change := by
  induction members with
  | nil => rfl
  | cons head rest ih =>
    obtain ⟨other, value⟩ := head
    by_cases same : other = name
    · simp [value?, same]
    · simpa [value?, same] using ih

/-- Names stay distinct when values change. -/
theorem distinct_map (change : α → β) {members : Members α} (distinct : members.Distinct) :
    Distinct (members.map fun member => (member.1, change member.2)) := by
  unfold Distinct names at distinct ⊢
  rw [List.map_map]
  exact distinct

/-- A lookup among the members under some names. -/
theorem value?_filter (keep : String → Bool) (members : Members α) (name : String) :
    value? (members.filter fun pair => keep pair.1) name =
      if keep name then members.value? name else none := by
  induction members with
  | nil => simp [value?]
  | cons head rest ih =>
    obtain ⟨other, value⟩ := head
    rw [List.filter_cons]
    by_cases same : other = name
    · subst same
      split <;> rename_i kept <;> simp [value?, kept, ih]
    · split <;> simp [value?, same, ih]

/-- Pairs with distinct names that are taken up in turn are appended as they are, if each of
    them is appended where its name is new. -/
theorem foldl_of_distinct {take : Members α → String × α → Members α}
    (appends : ∀ (gathered : Members α) (pair : String × α), pair.1 ∉ gathered.names →
      take gathered pair = gathered ++ [pair])
    (pairs start : Members α) (distinct : Distinct (start ++ pairs)) :
    pairs.foldl take start = start ++ pairs := by
  induction pairs generalizing start with
  | nil => simp
  | cons pair rest ih =>
    have fresh : pair.1 ∉ start.names := by
      intro inside
      simp only [Distinct, names, List.map_append, List.map_cons] at distinct
      obtain ⟨-, -, apart⟩ := List.nodup_append.mp distinct
      exact apart _ inside _ (by simp) rfl
    rw [List.foldl_cons, appends start pair fresh]
    simpa using ih (start ++ [pair]) (by simpa using distinct)

/-! ## Members that are taken out -/

/-- Other names keep their values when a member is removed. -/
theorem value?_remove_of_ne (members : Members α) {name other : String} (different : other ≠ name) :
    (members.remove name).value? other = members.value? other := by
  induction members with
  | nil => rfl
  | cons head rest ih =>
    obtain ⟨first, value⟩ := head
    by_cases same : first = name
    · subst same
      simp [remove, value?, Ne.symm different]
    · simp [remove, value?, same, ih]

/-- Taking members out adds no name. -/
theorem names_remove_sublist (members : Members α) (name : String) :
    (members.remove name).names.Sublist members.names := by
  induction members with
  | nil => exact .slnil
  | cons head rest ih =>
    obtain ⟨first, value⟩ := head
    unfold remove
    split
    · exact List.sublist_cons_self _ _
    · exact ih.cons_cons _

/-- Names stay distinct when a member is removed. -/
theorem distinct_remove {members : Members α} (distinct : members.Distinct) (name : String) :
    (members.remove name).Distinct :=
  List.Nodup.sublist (names_remove_sublist members name) distinct

/-- Where names are distinct, a member that was taken out is gone. -/
theorem value?_remove_self {members : Members α} (distinct : members.Distinct) (name : String) :
    (members.remove name).value? name = none := by
  induction members with
  | nil => rfl
  | cons head rest ih =>
    obtain ⟨first, value⟩ := head
    obtain ⟨fresh, others⟩ := List.nodup_cons.mp distinct
    by_cases same : first = name
    · subst same
      have absent := mt (value?_isSome_iff rest first).mp fresh
      simpa [remove] using absent
    · simp [remove, value?, same, ih others]

/-! ## Pairs of which the first of a name wins -/

/-- Offering pairs in turn appends those whose names are new. -/
theorem value?_offerAll (pairs : List (String × α)) (start : Members α) (name : String) :
    value? (pairs.foldl (fun gathered pair => gathered.offer pair.1 pair.2) start) name =
      (start.value? name).or (value? pairs name) := by
  induction pairs generalizing start with
  | nil => simp
  | cons pair rest ih =>
    obtain ⟨first, value⟩ := pair
    rw [List.foldl_cons, ih, value?_cons]
    unfold offer
    by_cases taken : start.has first = true
    · simp only [taken, ↓reduceIte]
      split
      · rename_i same
        subst same
        obtain ⟨old, known⟩ := Option.isSome_iff_exists.mp taken
        simp [known]
      · rfl
    · simp only [taken, Bool.false_eq_true, ↓reduceIte, value?_append, value?_cons, value?_nil,
        Option.or_assoc]
      split <;> simp

/-- A lookup among first-come members is a lookup in the pairs. -/
theorem value?_firsts (pairs : List (String × α)) (name : String) :
    (firsts pairs).value? name = value? pairs name := by
  rw [firsts, value?_offerAll]
  rfl

/-- First-come members are among the pairs. -/
theorem mem_of_mem_firsts {pairs : List (String × α)} {pair : String × α}
    (inside : pair ∈ firsts pairs) : pair ∈ pairs := by
  have found := @value?_of_mem _ _ (distinct_firsts pairs) pair.1 pair.2 inside
  rw [value?_firsts] at found
  exact mem_of_value? found

/-- Something is kept of any pairs unless there are none. -/
theorem isEmpty_firsts (pairs : List (String × α)) : (firsts pairs).isEmpty = pairs.isEmpty := by
  cases pairs with
  | nil => rfl
  | cons pair rest =>
    have found : (firsts (pair :: rest)).value? pair.1 = some pair.2 := by
      rw [value?_firsts]
      simp [value?]
    cases gathered : firsts (pair :: rest) with
    | nil => simp [gathered] at found
    | cons => rfl

/-- The names of first-come members are those of the pairs, each where it came first. -/
theorem names_firsts (pairs : List (String × α)) :
    (firsts pairs).names = (pairs.map Prod.fst).eraseDups := by
  have gathers (start : Members α) :
      (pairs.foldl (fun gathered pair => gathered.offer pair.1 pair.2) start).names =
        start.names ++ ((pairs.map Prod.fst).removeAll start.names).eraseDups := by
    induction pairs generalizing start with
    | nil => simp
    | cons pair rest ih =>
      rw [List.foldl_cons, ih, List.map_cons, List.cons_removeAll]
      by_cases taken : start.has pair.1 = true
      · have known : pair.1 ∈ start.names := (value?_isSome_iff start pair.1).mp taken
        simp [offer, taken, known]
      · have fresh : pair.1 ∉ start.names := by rwa [has, value?_isSome_iff] at taken
        have later : (rest.map Prod.fst).removeAll (start.names ++ [pair.1]) =
            ((rest.map Prod.fst).removeAll start.names).filter fun name => !name == pair.1 := by
          simp only [List.removeAll, List.filter_filter]
          congr 1
          funext name
          simp [Bool.and_comm, Bool.beq_eq_decide_eq]
        have added : (start.offer pair.1 pair.2).names = start.names ++ [pair.1] := by
          simp [offer, taken, names]
        simp [added, fresh, later, List.eraseDups_cons]
  simpa [firsts, names] using gathers []

/-- Pairs with distinct names are their own first-come members. -/
theorem firsts_of_distinct {pairs : List (String × α)} (distinct : Distinct pairs) :
    firsts pairs = pairs := by
  have appends (gathered : Members α) (pair : String × α) (fresh : pair.1 ∉ gathered.names) :
      gathered.offer pair.1 pair.2 = gathered ++ [pair] := by
    have absent : gathered.has pair.1 = false := by
      rwa [has, ← Bool.not_eq_true, value?_isSome_iff]
    simp [offer, absent]
  exact foldl_of_distinct appends pairs [] distinct

/-- First-come members under some names are the first-come ones among the pairs under these
    names. -/
theorem filter_firsts (keep : String → Bool) (pairs : List (String × α)) :
    (firsts pairs).filter (fun pair => keep pair.1) =
      firsts (pairs.filter fun pair => keep pair.1) := by
  have offered (gathered : Members α) (name : String) (value : α) :
      (gathered.offer name value).filter (fun pair => keep pair.1) =
        if keep name then offer (gathered.filter fun pair => keep pair.1) name value
        else gathered.filter fun pair => keep pair.1 := by
    have taken (kept : keep name = true) :
        has (gathered.filter fun pair => keep pair.1) name = gathered.has name := by
      simp [has, value?_filter, kept]
    unfold offer
    split <;> split <;> rename_i present kept <;> simp [taken, present, kept]
  have gathers (start : Members α) :
      (pairs.foldl (fun gathered pair => offer gathered pair.1 pair.2) start).filter
          (fun pair => keep pair.1) =
        (pairs.filter fun pair => keep pair.1).foldl
          (fun gathered pair => offer gathered pair.1 pair.2)
          (start.filter fun pair => keep pair.1) := by
    induction pairs generalizing start with
    | nil => rfl
    | cons pair rest ih =>
      rw [List.foldl_cons, ih, offered, List.filter_cons]
      split <;> rfl
  exact gathers []

/-! ## Pairs of which the last of a name wins -/

/-- Putting a new name appends it. -/
theorem put_of_not_mem {members : Members α} {name : String} (value : α)
    (fresh : name ∉ members.names) : members.put name value = members ++ [(name, value)] := by
  induction members with
  | nil => rfl
  | cons head rest ih =>
    obtain ⟨other, old⟩ := head
    simp only [names, List.map_cons, List.mem_cons, not_or] at fresh
    simp [put, Ne.symm fresh.1, ih fresh.2]

/-- Putting adds one name at most. -/
theorem mem_names_put {members : Members α} {name other : String} {value : α} :
    other ∈ (members.put name value).names ↔ other = name ∨ other ∈ members.names := by
  rw [names_put]
  split <;> grind

/-- What was put is the member that is put or one that was there. -/
theorem mem_of_mem_put {members : Members α} {name : String} {value : α} {pair : String × α}
    (inside : pair ∈ members.put name value) : pair = (name, value) ∨ pair ∈ members := by
  induction members with
  | nil => exact .inl (by simpa [put] using inside)
  | cons head rest ih =>
    obtain ⟨other, old⟩ := head
    simp only [put] at inside
    split at inside <;> simp only [List.mem_cons] at inside ⊢
    · exact inside.imp_right .inr
    · rcases inside with same | later
      · exact .inr (.inl same)
      · exact (ih later).imp_right .inr

/-- Pairs with distinct names describe the members that they are. -/
theorem ofPairs_of_distinct {pairs : List (String × α)} (distinct : Distinct pairs) :
    ofPairs pairs = pairs := by
  have appends (gathered : Members α) (pair : String × α) (fresh : pair.1 ∉ gathered.names) :
      gathered.put pair.1 pair.2 = gathered ++ [pair] := put_of_not_mem pair.2 fresh
  exact foldl_of_distinct appends pairs [] distinct

end StagedQuery.Members
