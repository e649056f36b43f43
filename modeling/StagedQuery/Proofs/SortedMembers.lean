import Mathlib.Data.String.Basic
import StagedQuery.Proofs.Members

/-!
# Members sorted by name

Putting members into a sorted list keeps it sorted, with each name once. Pairs with distinct
names are only brought into order by sorting, and pairs that stand in order stay as they are. If
a name is repeated then its last value is kept, so that what is sorted is among the pairs in any
case.
-/

namespace StagedQuery.Members

variable {α : Type} {members pairs : Members α}

/-- Members whose names stand in order, each once. -/
def Ordered (members : Members α) : Prop :=
  members.names.Pairwise (· < ·)

/-- Members in the order of their names have distinct names. -/
theorem Ordered.distinct (ordered : members.Ordered) : members.Distinct :=
  List.Pairwise.imp ne_of_lt ordered

/-! ## Putting one member -/

/-- Putting a member in adds that member only. -/
theorem mem_of_mem_putSorted {name : String} {value : α} {pair : String × α}
    (inside : pair ∈ members.putSorted name value) : pair = (name, value) ∨ pair ∈ members := by
  induction members with
  | nil => exact .inl (List.mem_singleton.mp inside)
  | cons head rest ih =>
    obtain ⟨other, old⟩ := head
    unfold putSorted at inside
    grind

/-- Members stay in order when one is put in. -/
theorem ordered_putSorted (ordered : members.Ordered) (name : String) (value : α) :
    (members.putSorted name value).Ordered := by
  induction members with
  | nil => exact List.pairwise_singleton _ _
  | cons head rest ih =>
    obtain ⟨other, old⟩ := head
    obtain ⟨above, later⟩ := List.pairwise_cons.mp ordered
    unfold putSorted
    split
    · rename_i less
      refine List.pairwise_cons.mpr ⟨?_, ordered⟩
      intro next inside
      rcases List.mem_cons.mp inside with rfl | further
      · exact less
      · exact less.trans (above next further)
    · split
      · rename_i same
        subst same
        exact ordered
      · rename_i notLess different
        refine List.pairwise_cons.mpr ⟨?_, ih later⟩
        intro next inside
        obtain ⟨pair, listed, rfl⟩ := List.mem_map.mp inside
        rcases mem_of_mem_putSorted listed with rfl | old
        · exact lt_of_le_of_ne (not_lt.mp notLess) different
        · exact above pair.1 (List.mem_map_of_mem old)

/-- A member with a new name is added somewhere. -/
theorem perm_putSorted {name : String} (value : α) (fresh : name ∉ members.names) :
    (members.putSorted name value).Perm ((name, value) :: members) := by
  induction members with
  | nil => exact List.Perm.refl _
  | cons head rest ih =>
    obtain ⟨other, old⟩ := head
    simp only [names, List.map_cons, List.mem_cons, not_or] at fresh
    obtain ⟨different, freshBelow⟩ := fresh
    unfold putSorted
    split
    · exact List.Perm.refl _
    · rw [if_neg (Ne.symm different)]
      exact ((ih freshBelow).cons _).trans (List.Perm.swap _ _ _)

/-- A member whose name comes after all others is added at the end. -/
theorem putSorted_of_last {name : String} (value : α)
    (last : ∀ other ∈ members.names, other < name) :
    members.putSorted name value = members ++ [(name, value)] := by
  induction members with
  | nil => rfl
  | cons head rest ih =>
    obtain ⟨other, old⟩ := head
    obtain ⟨less, lessBelow⟩ := List.forall_mem_cons.mp last
    rw [putSorted, if_neg less.not_gt, if_neg less.ne, ih lessBelow, List.cons_append]

/-! ## Sorting -/

/-- Sorting brings names into order. -/
theorem ordered_sorted (pairs : List (String × α)) : (sorted pairs).Ordered := by
  have every (start : Members α) (ordered : start.Ordered) :
      Ordered (pairs.foldl (fun gathered pair => gathered.putSorted pair.1 pair.2) start) := by
    induction pairs generalizing start with
    | nil => exact ordered
    | cons pair rest ih => exact ih _ (ordered_putSorted ordered pair.1 pair.2)
  exact every [] List.Pairwise.nil

/-- What is sorted is among the pairs. -/
theorem mem_of_mem_sorted {pair : String × α} (inside : pair ∈ sorted pairs) : pair ∈ pairs := by
  have every (start : Members α)
      (found : pair ∈ pairs.foldl (fun gathered pair => gathered.putSorted pair.1 pair.2) start) :
      pair ∈ start ∨ pair ∈ pairs := by
    clear inside
    induction pairs generalizing start with
    | nil => exact .inl found
    | cons first rest ih =>
      rcases ih _ found with early | late
      · rcases mem_of_mem_putSorted early with rfl | old
        · exact .inr List.mem_cons_self
        · exact .inl old
      · exact .inr (List.mem_cons_of_mem _ late)
  exact (every [] inside).resolve_left List.not_mem_nil

/-- Sorting pairs with distinct names changes nothing but their order. -/
theorem perm_sorted (distinct : Distinct pairs) : (sorted pairs).Perm pairs := by
  have every (start : Members α) (apart : Distinct (start ++ pairs)) :
      (pairs.foldl (fun gathered pair => gathered.putSorted pair.1 pair.2) start).Perm
        (start ++ pairs) := by
    clear distinct
    induction pairs generalizing start with
    | nil => simp
    | cons pair rest ih =>
      have shifted : (start ++ pair :: rest).Perm (pair :: start ++ rest) := List.perm_middle
      have apartToo : Distinct (pair :: start ++ rest) :=
        (shifted.map Prod.fst).nodup_iff.mp apart
      have fresh : pair.1 ∉ start.names := by
        have absent : pair.1 ∉ names (start ++ rest) := (List.nodup_cons.mp apartToo).1
        simp only [names, List.map_append, List.mem_append, not_or] at absent
        exact absent.1
      have added := perm_putSorted pair.2 fresh
      refine (ih _ ?_).trans ?_
      · exact ((added.append_right rest).map Prod.fst).nodup_iff.mpr apartToo
      · exact (added.append_right rest).trans shifted.symm
  exact every [] distinct

/-- Sorting leaves pairs that stand in order as they are. -/
theorem sorted_of_ordered (ordered : Ordered pairs) : sorted pairs = pairs := by
  have every (start : Members α) (whole : Ordered (start ++ pairs)) :
      pairs.foldl (fun gathered pair => gathered.putSorted pair.1 pair.2) start =
        start ++ pairs := by
    clear ordered
    induction pairs generalizing start with
    | nil => simp
    | cons pair rest ih =>
      have last : ∀ other ∈ start.names, other < pair.1 := by
        simp only [Ordered, names, List.map_append, List.map_cons] at whole
        intro other inside
        exact (List.pairwise_append.mp whole).2.2 other inside pair.1 List.mem_cons_self
      rw [List.foldl_cons, putSorted_of_last pair.2 last, ih, List.append_assoc]
      · rfl
      · simpa using whole
  exact every [] ordered

end StagedQuery.Members
