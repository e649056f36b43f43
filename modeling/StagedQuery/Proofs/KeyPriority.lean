import Mathlib.Data.List.Pairwise
import StagedQuery.Proofs.Argument.ScalarInput
import StagedQuery.Proofs.ListHooks

/-!
# Which sort key comes first

A sort is asked for by an object with a direction for each key. Binding sets the members of that
object in the order in which the shape of the items declares them, and the keys of the sort are
taken from what is bound. So items are sorted by the keys that are asked for, but the one that is
declared first decides first, and the order in which the keys are written has no say.
-/

namespace StagedQuery.Extension

variable {title : String} {shapes : Members Shape} {field : String} {table : List Binding}
  {binding : Binding} {request : Request} {supplied : Option Variables} {origin : Option String}
  {arguments : ArgumentSet} {asked : Members Value} {slot : Placeholder}
  {keys : List (String × Direction)}

/-! ## The keys of a sort -/

/-- The key that a name and the text of a direction stand for. -/
def keyOf (name text : String) : String × Direction :=
  (name, if text = "DESC" then .descending else .ascending)

/-- The keys that an object asks for, in the order of its members. -/
def writtenKeys (asked : Members Value) : List (String × Direction) :=
  asked.filterMap fun (name, value) => value.text?.map (keyOf name)

/-- A sort goes by the keys that its bound argument has written out. -/
theorem sortedMembers_eq (arguments : ArgumentSet) :
    sortedMembers arguments = writtenKeys (boundMembers arguments "sort") :=
  rfl

/-- The key that an object asks for under a name, if it has a direction there. -/
def keyUnder (asked : Members Value) (name : String) : Option (String × Direction) :=
  ((asked.value? name).bind Value.text?).map (keyOf name)

/-- What an object asks for under a name is a key for the member of that name. -/
theorem fst_of_keyUnder {name : String} {key : String × Direction}
    (found : keyUnder asked name = some key) : key.1 = name := by
  obtain ⟨text, -, rfl⟩ := Option.map_eq_some_iff.mp found
  rfl

/-- The keys under some names are under these names, in their order. -/
theorem names_filterMap_keyUnder (asked : Members Value) (names : List String) :
    ((names.filterMap (keyUnder asked)).map Prod.fst).Sublist names := by
  induction names with
  | nil => exact .slnil
  | cons name rest ih =>
    cases found : keyUnder asked name with
    | none => simpa [found] using ih.cons name
    | some key =>
      rw [List.filterMap_cons_some found, List.map_cons, fst_of_keyUnder found]
      exact ih.cons_cons name

/-- Where names are distinct, what is asked for is what stands under the names. -/
theorem writtenKeys_eq (distinct : asked.Distinct) :
    writtenKeys asked = asked.names.filterMap (keyUnder asked) := by
  rw [writtenKeys, Members.names, List.filterMap_map]
  refine List.filterMap_congr fun pair inside => ?_
  obtain ⟨name, value⟩ := pair
  simp [keyUnder, Members.value?_of_mem distinct inside]

/-- An object asks for a key only under the name of a member that it has. -/
theorem mem_names_of_keyUnder {name : String} {key : String × Direction}
    (found : keyUnder asked name = some key) : name ∈ asked.names := by
  obtain ⟨text, given, -⟩ := Option.map_eq_some_iff.mp found
  obtain ⟨value, held, -⟩ := Option.bind_eq_some_iff.mp given
  exact (asked.value?_isSome_iff name).mp (by simp [held])

/-- The keys under some names are those with one of the names for which the object asks. -/
theorem mem_filterMap_keyUnder {names : List String} {key : String × Direction} :
    key ∈ names.filterMap (keyUnder asked) ↔ key.1 ∈ names ∧ keyUnder asked key.1 = some key := by
  rw [List.mem_filterMap]
  constructor
  · rintro ⟨name, inside, found⟩
    obtain rfl := fst_of_keyUnder found
    exact ⟨inside, found⟩
  · rintro ⟨inside, found⟩
    exact ⟨key.1, inside, found⟩

/-- Under distinct names there are keys for distinct members. -/
theorem nodup_filterMap_keyUnder {names : List String} (once : names.Nodup) :
    ((names.filterMap (keyUnder asked)).map Prod.fst).Nodup :=
  once.sublist (names_filterMap_keyUnder asked names)

/-- Names that include those of an object have the keys that it asks for. -/
theorem filterMap_keyUnder_perm {names : List String} (once : names.Nodup)
    (distinct : asked.Distinct) (among : asked.names ⊆ names) :
    (names.filterMap (keyUnder asked)).Perm (writtenKeys asked) := by
  rw [writtenKeys_eq distinct]
  refine (List.perm_ext_iff_of_nodup (nodup_filterMap_keyUnder once).of_map
    (nodup_filterMap_keyUnder distinct).of_map).mpr fun key => ?_
  rw [mem_filterMap_keyUnder, mem_filterMap_keyUnder]
  exact and_congr_left fun found =>
    ⟨fun _ => mem_names_of_keyUnder found, fun inside => among inside⟩

/-- They have them in the order of the object exactly if it has its keys in the order of the
    names. -/
theorem filterMap_keyUnder_eq_iff {names : List String} (once : names.Nodup)
    (distinct : asked.Distinct) :
    names.filterMap (keyUnder asked) = writtenKeys asked ↔
      ((writtenKeys asked).map Prod.fst).Sublist names := by
  constructor
  · intro same
    exact same ▸ names_filterMap_keyUnder asked names
  · intro inOrder
    rw [writtenKeys_eq distinct] at inOrder ⊢
    have others : ∀ name ∈ names,
        name ∉ (asked.names.filterMap (keyUnder asked)).map Prod.fst →
          keyUnder asked name = none := by
      intro name _ left
      refine Option.eq_none_iff_forall_ne_some.mpr fun key found => left ?_
      obtain rfl := fst_of_keyUnder found
      exact List.mem_map_of_mem
        (mem_filterMap_keyUnder.mpr ⟨mem_names_of_keyUnder found, found⟩)
    rw [filterMap_of_sublist inOrder once others, List.filterMap_map]
    refine (List.filterMap_congr fun key inside => ?_).trans List.filterMap_some
    exact (mem_filterMap_keyUnder.mp inside).2

/-- The text of a direction is not changed by coercion. -/
theorem text?_of_coerce?_directionType {value one : Value}
    (coerced : directionType.coerce? value = some one) : one.text? = value.text? := by
  cases ArgumentType.coerce?_iff.mp coerced with
  | null => rfl
  | listed fits =>
    unfold ArgumentType.coerceName? at fits
    split at fits
    · split at fits <;> cases fits
      rfl
    · split at fits <;> cases fits
      rfl
    · cases fits

/-- A sort offers one argument whose members are directions for the scalar members of the shape. -/
theorem bindings_sort (shape : Shape) : sort.bindings shape =
    scalarBindings shape "sort" "Sort" fun _ => directionType :=
  rfl

/-- A sort that is accepted compares the members that are asked for, in the order in which the
    shape declares them. -/
theorem sortedMembers_of_bind (distinct : shapes.Distinct)
    (own : binding ∈ sort.bindings (.object title shapes)) (alone : binding.AloneIn table)
    (chosen : binding.Chooses request supplied (.object asked) origin)
    (bound : ArgumentSet.bind field table request supplied = .ok arguments) :
    asked.Distinct ∧
      asked.names ⊆ Members.names (Shape.object title shapes).scalarMembers ∧
      sortedMembers arguments =
        (Members.names (Shape.object title shapes).scalarMembers).filterMap (keyUnder asked) := by
  rw [bindings_sort] at own
  obtain ⟨once, among, fits, held⟩ := bound_scalarInput distinct (fun _ => rfl) own alone chosen
    bound
  refine ⟨once, among, ?_⟩
  rw [sortedMembers_eq, held, writtenKeys, List.filterMap_filterMap, Members.names,
    List.filterMap_map]
  refine List.filterMap_congr fun pair listed => ?_
  obtain ⟨name, kind⟩ := pair
  simp only [Function.comp_apply, keyUnder]
  cases given : asked.value? name with
  | none => rfl
  | some value =>
    obtain ⟨one, coerced⟩ := fits name kind listed value given
    simp [coerced, text?_of_coerce?_directionType coerced]

/-! ## Arrangements of keys -/

/-- Two different arrangements of the same items have a first difference. -/
theorem exists_first_difference {α : Type} {left right : List α} (same : left.Perm right)
    (different : left ≠ right) :
    ∃ before first rest second others, left = before ++ first :: rest ∧
      right = before ++ second :: others ∧ first ≠ second := by
  induction left generalizing right with
  | nil => exact absurd (List.nil_perm.mp same).symm different
  | cons first rest ih =>
    cases right with
    | nil => exact absurd (List.perm_nil.mp same) different
    | cons second others =>
      by_cases agree : first = second
      · subst agree
        obtain ⟨before, one, left, two, right, rfl, rfl, apart⟩ :=
          ih same.cons_inv fun equal => different (by rw [equal])
        exact ⟨first :: before, one, left, two, right, rfl, rfl, apart⟩
      · exact ⟨[], first, rest, second, others, rfl, rfl, agree⟩

/-- No list with two items is in order by two relations that exclude opposite orders of the two. -/
theorem false_of_opposite {α : Type} {le le' : α → α → Bool} {sorted : List α} {first second : α}
    (refl : ∀ item, le item item = true) (refl' : ∀ item, le' item item = true)
    (ordered : sorted.Pairwise fun first second => le first second = true)
    (ordered' : sorted.Pairwise fun first second => le' first second = true)
    (inside : first ∈ sorted) (insideToo : second ∈ sorted) (not_after : le second first = false)
    (not_before : le' first second = false) : False := by
  let both (one other : α) : Prop := le one other = true ∧ le' one other = true
  have : Std.Symm fun one other => both one other ∨ both other one := ⟨fun _ _ => Or.symm⟩
  have inOrder : sorted.Pairwise fun one other => both one other ∨ both other one :=
    (ordered.and ordered').imp .inl
  have either := inOrder.forall_of_forall (fun item _ => .inl ⟨refl item, refl' item⟩) inside
    insideToo
  rcases either with ⟨-, before⟩ | ⟨after, -⟩
  · simp [not_before] at before
  · simp [not_after] at after

/-- Keys by which two items rank alike decide nothing. -/
theorem standsBefore_append {before : List (String × Direction)} {first second : Value}
    (alike : ∀ key ∈ before, (first.member key.1).rank = (second.member key.1).rank)
    (keys : List (String × Direction)) :
    standsBefore (before ++ keys) first second = standsBefore keys first second := by
  induction before with
  | nil => rfl
  | cons key rest ih =>
    obtain ⟨own, below⟩ := List.forall_mem_cons.mp alike
    obtain ⟨name, ascending | descending⟩ := key
    · simp [standsBefore, standsByRank, own, ih below]
    · simp [standsBefore, standsByRank, own, ih below]

/-- The value of an item that a key puts first. -/
def early : Direction → Value
  | .ascending => .int 0
  | .descending => .int 1

/-- The value of an item that a key puts last. -/
def late : Direction → Value
  | .ascending => .int 1
  | .descending => .int 0

/-- An item that one key puts first and another one last. -/
def torn (first last : String × Direction) : Value :=
  .object [(first.1, early first.2), (last.1, late last.2)]

/-- The first key alone decides between an item that it puts last and one that it puts first. -/
theorem not_standsBefore_of_late {key : String × Direction} {first second : Value}
    (behind : first.member key.1 = late key.2) (ahead : second.member key.1 = early key.2) :
    standsBefore (key :: keys) first second = false := by
  have less : (Value.int 0).rank < (Value.int 1).rank := Rank.ofNumber_lt (by decide)
  obtain ⟨name, ascending | descending⟩ := key
  · simp only [late, early] at behind ahead
    simp [standsBefore, standsByRank, behind, ahead, less.le, less.ne']
  · simp only [late, early] at behind ahead
    simp [standsBefore, standsByRank, behind, ahead, less.le, less.ne]

/-- A torn item is put first by one of its two keys, last by the other one, and has null for any
    further key. -/
theorem member_torn (first last : String × Direction) (name : String) :
    (torn first last).member name =
      if name = first.1 then early first.2 else if name = last.1 then late last.2 else .null := by
  simp only [torn, Value.member, Members.value?, @eq_comm _ name]
  split
  · rfl
  · split <;> rfl

/-- All that such an item has are integers. -/
theorem member_torn_int (first last : String × Direction) (name : String) :
    (torn first last).member name = .null ∨
      ∃ number, (torn first last).member name = .int number := by
  have early_int (direction : Direction) : ∃ number, early direction = .int number := by
    cases direction <;> exact ⟨_, rfl⟩
  have late_int (direction : Direction) : ∃ number, late direction = .int number := by
    cases direction <;> exact ⟨_, rfl⟩
  rw [member_torn]
  split
  · exact .inr (early_int _)
  · split
    · exact .inr (late_int _)
    · exact .inl rfl

/-- Of two items that two keys put in opposite orders, the one that the first of the keys puts last
    does not stand before the other. -/
theorem not_standsBefore_torn {before rest : List (String × Direction)}
    {first second : String × Direction} (apart : first.1 ≠ second.1)
    (others : ∀ key ∈ before, key.1 ≠ first.1 ∧ key.1 ≠ second.1) :
    standsBefore (before ++ first :: rest) (torn second first) (torn first second) = false := by
  rw [standsBefore_append]
  · exact not_standsBefore_of_late (by simp [member_torn, apart]) (by simp [member_torn])
  · intro key inside
    obtain ⟨notFirst, notSecond⟩ := others key inside
    simp [member_torn, notFirst, notSecond]

/-- Of keys with distinct names, none has the name of a later one. -/
theorem ne_of_mem_before {before rest : List (String × Direction)} {first : String × Direction}
    (once : ((before ++ first :: rest).map Prod.fst).Nodup) :
    ∀ key ∈ before, key.1 ≠ first.1 := by
  intro key inside
  rw [List.map_append] at once
  exact (List.nodup_append.mp once).2.2 _ (List.mem_map_of_mem inside) _ (by simp)

/-! ## Sorting by the keys that are asked for -/

/-- Whether a sort with given arguments puts every list, of whose items the values of some keys are
    null or integers, in the order of the keys, the first of them being the primary one. -/
def SortsBy (field : String) (arguments : ArgumentSet) (keys : List (String × Direction)) : Prop :=
  ∀ (source : Expr) (supply : Nat) (provider : Provider) (env : Environment) (items : List Value),
    (source.evaluate provider env).result = .ok (.list items) →
    (∀ key ∈ keys, ∀ item ∈ items,
      item.member key.1 = .null ∨ ∃ number, item.member key.1 = .int number) →
    ∃ sorted, ((sort.beforeSelection field arguments source supply).1.evaluate provider
        env).result = .ok (.list sorted) ∧
      sorted.Pairwise fun first second => standsBefore keys first second = true

/-- A sort puts every list of items that it can compare in their stable order by its members. -/
theorem stableSort_sort (field : String) {source : Expr} {supply : Nat} {provider : Provider}
    {env : Environment} {items : List Value}
    (listed : (source.evaluate provider env).result = .ok (.list items))
    (comparable : ∀ key ∈ sortedMembers arguments, Comparable (items.map (·.member key.1))) :
    ∃ sorted, ((sort.beforeSelection field arguments source supply).1.evaluate provider
        env).result = .ok (.list sorted) ∧
      StableSort (standsBefore (sortedMembers arguments)) items sorted :=
  ⟨_, actsOnItems_sortSource field comparable source supply provider env items listed
    fun _ inside => inside, stableSort_mergeSort (totalPreorder_standsBefore _) items⟩

/-- A column of integers and nulls can be sorted by. -/
theorem comparable_of_ints {items : List Value} {name : String}
    (ints : ∀ item ∈ items, item.member name = .null ∨ ∃ number, item.member name = .int number) :
    Comparable (items.map (·.member name)) :=
  .inl (List.forall_mem_map.mpr ints)

/-- A sort by the members that its arguments have sorts by other keys of the same names exactly if
    these are the same keys in the same order.

    Proof: where the arrangements differ first, an item that the one key puts first and the other
    one last is exchanged with an item for which it is the other way round. -/
theorem sortsBy_iff (once : (keys.map Prod.fst).Nodup)
    (same : (sortedMembers arguments).Perm keys) :
    SortsBy field arguments keys ↔ sortedMembers arguments = keys := by
  constructor
  · intro sorts
    by_contra different
    obtain ⟨before, first, rest, second, others, own, written, apart⟩ :=
      exists_first_difference same different
    have onceToo : ((sortedMembers arguments).map Prod.fst).Nodup :=
      (same.map Prod.fst).nodup_iff.mpr once
    have named : first.1 ≠ second.1 := fun equal => apart
      (List.inj_on_of_nodup_map once (same.subset (by simp [own])) (by simp [written]) equal)
    have fresh : ∀ key ∈ before, key.1 ≠ first.1 ∧ key.1 ≠ second.1 := fun key inside =>
      ⟨ne_of_mem_before (own ▸ onceToo) key inside, ne_of_mem_before (written ▸ once) key inside⟩
    have behind : standsBefore (sortedMembers arguments) (torn second first) (torn first second) =
        false := own ▸ not_standsBefore_torn named fresh
    have ahead : standsBefore keys (torn first second) (torn second first) = false :=
      written ▸ not_standsBefore_torn named.symm fun key inside => (fresh key inside).symm
    let items := [torn first second, torn second first]
    have ints (name : String) : ∀ item ∈ items,
        item.member name = .null ∨ ∃ number, item.member name = .int number :=
      List.forall_mem_cons.mpr ⟨member_torn_int _ _ name,
        List.forall_mem_singleton.mpr (member_torn_int _ _ name)⟩
    have listed : ((Expr.constant (.list items)).evaluate Provider.none []).result =
        .ok (.list items) := rfl
    obtain ⟨sorted, found, ordered⟩ := sorts _ 0 _ _ items listed fun key _ => ints key.1
    obtain ⟨own, foundToo, stable⟩ := @stableSort_sort arguments field _ 0 _ _ items listed
      fun key _ => comparable_of_ints (ints key.1)
    cases found.symm.trans foundToo
    exact false_of_opposite (totalPreorder_standsBefore _).refl (totalPreorder_standsBefore _).refl
      stable.ordered ordered (stable.perm.mem_iff.mpr (by simp [items]))
      (stable.perm.mem_iff.mpr (by simp [items])) behind ahead
  · rintro rfl source supply provider env items listed ints
    obtain ⟨sorted, found, stable⟩ := @stableSort_sort arguments field source supply provider env
      items listed fun key inside => comparable_of_ints (ints key inside)
    exact ⟨sorted, found, stable.ordered⟩

/-- What a sort does that is written out as an object with the keys in some order, for every list
    that the source results in. It sorts the items, stably, by the keys that are asked for; but
    the primary key is the one that the shape declares first. So it sorts by the keys as they
    are written exactly if they are written in the order in which the shape declares them. -/
theorem sort_priority_iff (distinct : shapes.Distinct)
    (own : binding ∈ sort.bindings (.object title shapes)) (alone : binding.AloneIn table)
    (written : request.Writes binding.schemaName (.literal (.object asked)))
    (bound : ArgumentSet.bind field table request supplied = .ok arguments) :
    ∃ keys : List (String × Direction), keys.Perm (writtenKeys asked) ∧
      (keys.map Prod.fst).Sublist (Members.names (Shape.object title shapes).scalarMembers) ∧
      (∀ (source : Expr) (supply : Nat) (provider : Provider) (env : Environment)
          (items : List Value), (source.evaluate provider env).result = .ok (.list items) →
        (∀ key ∈ keys, Comparable (items.map (·.member key.1))) →
        ∃ sorted, ((sort.beforeSelection field (arguments.readVariablesFrom slot) source
            supply).1.evaluate provider env).result = .ok (.list sorted) ∧
          StableSort (standsBefore keys) items sorted) ∧
      (SortsBy field (arguments.readVariablesFrom slot) (writtenKeys asked) ↔
        ((writtenKeys asked).map Prod.fst).Sublist
          (Members.names (Shape.object title shapes).scalarMembers)) := by
  obtain ⟨once, among, compared⟩ :=
    sortedMembers_of_bind distinct own alone (.literal written) bound
  have declared := @distinct_scalarMembers title shapes distinct
  have same := filterMap_keyUnder_perm declared once among
  have onceToo : ((writtenKeys asked).map Prod.fst).Nodup :=
    writtenKeys_eq once ▸ nodup_filterMap_keyUnder once
  have keys : sortedMembers (arguments.readVariablesFrom slot) =
      (Members.names (Shape.object title shapes).scalarMembers).filterMap (keyUnder asked) :=
    compared
  refine ⟨_, same, names_filterMap_keyUnder asked _, ?_, ?_⟩
  · intro source supply provider env items listed comparable
    rw [← keys] at comparable ⊢
    exact stableSort_sort field listed comparable
  · rw [← filterMap_keyUnder_eq_iff declared once, ← keys]
    exact sortsBy_iff onceToo (keys ▸ same)

/-- The members of a film: a rating and a year. -/
def ratedFilm : Members Shape :=
  [("rating", .scalar .int), ("year", .scalar .int)]

/-- The argument that a sort brings to a field of rated films. -/
def filmSort : Binding :=
  ⟨"sort", "sort", .input "FilmSort" [⟨"rating", "rating", directionType⟩,
    ⟨"year", "year", directionType⟩] ArgumentType.optional⟩

/-- The latest films first, and those of one year by rating. -/
def byYear : Members Value :=
  [("year", .string "DESC"), ("rating", .string "ASC")]

/-- Films that are to be sorted by year and then by rating are not. -/
theorem sort_ignores_byYear :
    ∃ arguments, ArgumentSet.bind "films" [filmSort] ⟨[("sort", .literal (.object byYear))]⟩ none =
        .ok arguments ∧
      writtenKeys byYear = [("year", .descending), ("rating", .ascending)] ∧
      ¬SortsBy "films" (arguments.readVariablesFrom ⟨0, "vars", .any⟩) (writtenKeys byYear) := by
  have distinct : ratedFilm.Distinct := by simp [ratedFilm, Members.Distinct, Members.names]
  have own : filmSort ∈ sort.bindings (.object "Film" ratedFilm) := List.mem_cons_self
  have alone : filmSort.AloneIn [filmSort] :=
    ⟨List.mem_cons_self, fun other listed _ => List.mem_singleton.mp listed⟩
  have written : Request.Writes ⟨[("sort", .literal (.object byYear))]⟩ filmSort.schemaName
      (.literal (.object byYear)) := ⟨[], [], rfl, by simp⟩
  obtain ⟨arguments, bound⟩ : ∃ arguments, ArgumentSet.bind "films" [filmSort]
      ⟨[("sort", .literal (.object byYear))]⟩ none = .ok arguments := ⟨_, rfl⟩
  obtain ⟨keys, -, -, -, follows⟩ := @sort_priority_iff "Film" ratedFilm "films" _ _ _ _ _ _
    ⟨0, "vars", .any⟩ distinct own alone written bound
  have keysByYear : writtenKeys byYear = [("year", .descending), ("rating", .ascending)] := by
    decide
  refine ⟨arguments, bound, keysByYear, ?_⟩
  rw [follows, keysByYear]
  decide

end StagedQuery.Extension
