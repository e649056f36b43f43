import Mathlib.Data.List.Sort
import Mathlib.Data.Prod.Lex
import Mathlib.Data.String.Basic
import Mathlib.Order.Compare
import Mathlib.Order.WithBot
import StagedQuery.Evaluation

/-!
# Stable sorting

A stable sort puts items in order and leaves ties as they stand. For a total order of ranks
there is exactly one such list. The sort of the evaluator, which puts one item after the
other into its place from the end of those sorted so far, yields it, and so does merge sort.
Since a stable sort of some of the items is what is left of them in a stable sort of all,
items may be dropped before or after.
-/

namespace StagedQuery

variable {α κ : Type} {le : α → α → Bool} {items sorted other : List α}

/-- An order in which any two items can be compared; different items may be tied. -/
structure TotalPreorder (le : α → α → Bool) : Prop where
  trans : ∀ first second third, le first second → le second third → le first third
  total : ∀ first second, le first second || le second first

/-- An item does not stand after itself. -/
theorem TotalPreorder.refl (preorder : TotalPreorder le) (item : α) : le item item = true := by
  simpa using preorder.total item item

/-- Whether neither of two items stands strictly before the other. -/
def tied (le : α → α → Bool) (first second : α) : Bool :=
  le first second && le second first

/-- The same items in order, with ties as they stood. -/
structure StableSort (le : α → α → Bool) (items sorted : List α) : Prop where
  perm : sorted.Perm items
  ordered : sorted.Pairwise fun first second => le first second = true
  ties : ∀ item, sorted.filter (tied le item) = items.filter (tied le item)

namespace StableSort

/-- A sort is stable if whatever stands in order among the items still stands so. -/
theorem of_sublists (preorder : TotalPreorder le) (perm : sorted.Perm items)
    (ordered : sorted.Pairwise fun first second => le first second = true)
    (kept : ∀ chosen : List α, chosen.Pairwise (fun first second => le first second = true) →
      chosen.Sublist items → chosen.Sublist sorted) : StableSort le items sorted where
  perm := perm
  ordered := ordered
  ties item := by
    have inOrder : (items.filter (tied le item)).Pairwise
        fun first second => le first second = true := by
      apply List.pairwise_of_forall_mem_list
      intro first inside second insideToo
      simp only [tied, List.mem_filter, Bool.and_eq_true] at inside insideToo
      exact preorder.trans _ _ _ inside.2.2 insideToo.2.1
    have stays := (kept _ inOrder List.filter_sublist).filter (tied le item)
    rw [List.filter_filter, show (fun other => tied le item other && tied le item other) =
      tied le item from funext fun _ => Bool.and_self _] at stays
    exact (stays.eq_of_length (perm.filter _).length_eq.symm).symm

/-- A list in order is known from its items and the order of ties.

    Proof: the first items of two such lists are tied, and among what is tied with them both
    come first. -/
theorem unique (preorder : TotalPreorder le) (sort : StableSort le items sorted)
    (sortToo : StableSort le items other) : sorted = other := by
  obtain ⟨perm, ordered, ties⟩ := sort
  obtain ⟨permToo, orderedToo, tiesToo⟩ := sortToo
  have same : sorted.Perm other := perm.trans permToo.symm
  have sameTies : ∀ item, sorted.filter (tied le item) = other.filter (tied le item) :=
    fun item => (ties item).trans (tiesToo item).symm
  clear perm permToo ties tiesToo
  induction sorted generalizing other with
  | nil => exact (List.nil_perm.mp same).symm
  | cons first rest ih =>
    cases other with
    | nil => simp at same
    | cons second others =>
      have before : le first second = true := by
        rcases List.mem_cons.mp (same.mem_iff.mpr (List.mem_cons_self ..)) with rfl | inside
        · exact preorder.refl _
        · exact List.rel_of_pairwise_cons ordered inside
      have beforeToo : le second first = true := by
        rcases List.mem_cons.mp (same.mem_iff.mp (List.mem_cons_self ..)) with rfl | inside
        · exact preorder.refl _
        · exact List.rel_of_pairwise_cons orderedToo inside
      obtain rfl : first = second := by
        have heads := sameTies first
        simp only [tied, List.filter_cons, before, beforeToo, preorder.refl, Bool.and_self,
          ↓reduceIte, List.cons.injEq] at heads
        exact heads.1
      rw [ih ordered.of_cons orderedToo.of_cons same.cons_inv fun item => ?_]
      -- The common first item is in the ties of an item on both sides or on neither.
      have tails := sameTies item
      simp only [List.filter_cons] at tails
      split at tails
      · exact (List.cons.inj tails).2
      · exact tails

/-- What is left of a stable sort is a stable sort of what is left. -/
theorem filter (sort : StableSort le items sorted) (keep : α → Bool) :
    StableSort le (items.filter keep) (sorted.filter keep) where
  perm := sort.perm.filter keep
  ordered := sort.ordered.filter keep
  ties item := by
    rw [List.filter_filter, List.filter_filter]
    simp only [Bool.and_comm (tied le item _)]
    rw [← List.filter_filter, ← List.filter_filter, sort.ties]

end StableSort

/-- Merge sort is the stable sort. -/
theorem stableSort_mergeSort (preorder : TotalPreorder le) (items : List α) :
    StableSort le items (items.mergeSort le) :=
  .of_sublists preorder (List.mergeSort_perm items le)
    (List.pairwise_mergeSort preorder.trans preorder.total items)
    fun _ inOrder inside => List.sublist_mergeSort preorder.trans preorder.total inOrder inside

/-- There is one stable sort of a list, the one that a merge sort finds. -/
theorem StableSort.eq_mergeSort (preorder : TotalPreorder le)
    (sort : StableSort le items sorted) : sorted = items.mergeSort le :=
  sort.unique preorder (stableSort_mergeSort preorder items)

/-- Items may be dropped before they are sorted or afterwards. -/
theorem filter_mergeSort (preorder : TotalPreorder le) (keep : α → Bool) (items : List α) :
    (items.mergeSort le).filter keep = (items.filter keep).mergeSort le :=
  ((stableSort_mergeSort preorder items).filter keep).eq_mergeSort preorder

/-! ## The sort of the evaluator -/

/-- Seen from the end, an item stops at the first one that it is not less than. -/
theorem insertFromEnd_eq_orderedInsert (order : α → α → Ordering) (item : α) (sorted : List α) :
    insertFromEnd order item sorted =
      sorted.orderedInsert (fun first second => order first second ≠ .lt) item := by
  induction sorted with
  | nil => rfl
  | cons last rest ih =>
    rw [insertFromEnd, List.orderedInsert_cons, ih]
    cases order item last <;> rfl

/-- The evaluator sorts by insertion, with the list turned around. -/
theorem sortItems_eq_insertionSort (order : α → α → Ordering) (items : List α) :
    sortItems order items =
      (items.reverse.insertionSort fun first second => order first second ≠ .lt).reverse := by
  simp only [sortItems, insertFromEnd_eq_orderedInsert, List.insertionSort, List.foldr_reverse]

/-- Insertion into a list that is turned around is a stable sort. -/
theorem stableSort_insertionSort (preorder : TotalPreorder le) (items : List α) :
    StableSort le items
      (items.reverse.insertionSort fun first second => le second first = true).reverse := by
  have : Std.Total fun first second : α => le second first = true :=
    ⟨fun first second => by simpa [or_comm] using preorder.total first second⟩
  have : IsTrans α fun first second : α => le second first = true :=
    ⟨fun first second third before after => preorder.trans third second first after before⟩
  refine .of_sublists preorder ?_ ?_ ?_
  · exact (List.reverse_perm _).trans ((List.perm_insertionSort _ _).trans (List.reverse_perm _))
  · exact List.pairwise_reverse.mpr (List.pairwise_insertionSort _ _)
  · intro chosen inOrder inside
    have turned := List.sublist_insertionSort (List.pairwise_reverse.mpr inOrder) inside.reverse
    simpa using turned.reverse

/-- Items that are sorted by keys computed beforehand are sorted stably, if the order of the
    keys is that of the items. -/
theorem sortItems_keyed (preorder : TotalPreorder le) {key : α → κ}
    {order : κ → κ → Ordering}
    (agrees : ∀ first ∈ items, ∀ second ∈ items,
      order (key first) (key second) ≠ .lt ↔ le second first = true) :
    (sortItems (fun first second => order first.1 second.1)
      (items.map fun item => (key item, item))).map Prod.snd = items.mergeSort le := by
  have keyed : (items.reverse.insertionSort fun first second => le second first = true).map
        (fun item => (key item, item)) =
      (items.reverse.map fun item => (key item, item)).insertionSort
        fun first second => order first.1 second.1 ≠ .lt := by
    apply List.map_insertionSort
    intro first inside second insideToo
    exact (agrees first (by simpa using inside) second (by simpa using insideToo)).symm
  rw [sortItems_eq_insertionSort, ← List.map_reverse, ← keyed, ← List.map_reverse, List.map_map]
  rw [show Prod.snd ∘ (fun item => (key item, item)) = id from rfl, List.map_id]
  exact (stableSort_insertionSort preorder items).eq_mergeSort preorder

/-! ## The order of sort keys -/

/-- Places in an order of numbers and texts: first the place of what is neither, then those of
    the numbers, then those of the texts. -/
def Rank (ν τ : Type) : Type :=
  WithBot τ ×ₗ WithBot ν

namespace Rank

variable {ν τ : Type}

/-- The place of what is neither a number nor a text. -/
def lowest : Rank ν τ :=
  toLex (⊥, ⊥)

/-- The place of a number. -/
def ofNumber (number : ν) : Rank ν τ :=
  toLex (⊥, ↑number)

/-- The place of a text. -/
def ofText (text : τ) : Rank ν τ :=
  toLex (↑text, ⊥)

variable [LinearOrder ν] [LinearOrder τ]

/-- Ranks are ordered by text first, then by number, where what is missing comes first. -/
instance : LinearOrder (Rank ν τ) :=
  inferInstanceAs (LinearOrder (WithBot τ ×ₗ WithBot ν))

/-- What has no order ranks before every number. -/
theorem lowest_lt_ofNumber (number : ν) : (lowest : Rank ν τ) < ofNumber number :=
  Prod.Lex.toLex_lt_toLex.mpr (.inr ⟨rfl, WithBot.bot_lt_coe number⟩)

/-- What has no order ranks before every text. -/
theorem lowest_lt_ofText (text : τ) : (lowest : Rank ν τ) < ofText text :=
  Prod.Lex.toLex_lt_toLex.mpr (.inl (WithBot.bot_lt_coe text))

/-- Numbers rank as they are ordered. -/
theorem ofNumber_lt {left right : ν} (less : left < right) :
    (ofNumber left : Rank ν τ) < ofNumber right :=
  Prod.Lex.toLex_lt_toLex.mpr (.inr ⟨rfl, WithBot.coe_lt_coe.mpr less⟩)

/-- Texts rank as they are ordered. -/
theorem ofText_lt {left right : τ} (less : left < right) :
    (ofText left : Rank ν τ) < ofText right :=
  Prod.Lex.toLex_lt_toLex.mpr (.inl (WithBot.coe_lt_coe.mpr less))

end Rank

/-- The rank of a value among the values of a sort key: null first, then truth values and
    integers by number, then texts. Values of other kinds have no order and rank as null. -/
def Value.rank : Value → Rank Int String
  | .bool truth => .ofNumber truth.toInt
  | .int number => .ofNumber number.toInt
  | .string text => .ofText text
  | .enumeration name => .ofText name
  | _ => .lowest

/-- Whether an item stands before another by its rank, or by the order of ties if their ranks
    are equal. -/
def standsByRank {ρ : Type} [LinearOrder ρ] (rank : α → ρ) (le : α → α → Bool)
    (first second : α) : Bool :=
  rank first < rank second || (rank first = rank second && le first second)

/-- Whether an item does not stand after another by some keys, each with its direction: the
    first key that tells them apart decides. -/
def standsBeforeBy : List ((α → Value) × Direction) → α → α → Bool
  | [] => fun _ _ => true
  | (key, .ascending) :: rest => standsByRank (fun item => (key item).rank) (standsBeforeBy rest)
  | (key, .descending) :: rest =>
    standsByRank (fun item => OrderDual.toDual (key item).rank) (standsBeforeBy rest)

/-- Whether an item does not stand after another by some members, each with its direction: the
    first member that tells them apart decides. -/
def standsBefore : List (String × Direction) → Value → Value → Bool
  | [] => fun _ _ => true
  | (name, .ascending) :: rest =>
    standsByRank (fun item => (item.member name).rank) (standsBefore rest)
  | (name, .descending) :: rest =>
    standsByRank (fun item => OrderDual.toDual (item.member name).rank) (standsBefore rest)

/-- A rank refined by a total preorder of ties is a total preorder. -/
theorem TotalPreorder.standsByRank {ρ : Type} [LinearOrder ρ] (rank : α → ρ)
    (preorder : TotalPreorder le) : TotalPreorder (standsByRank rank le) where
  trans first second third before after := by
    simp only [StagedQuery.standsByRank, Bool.or_eq_true, Bool.and_eq_true, decide_eq_true_eq]
      at before after ⊢
    rcases before with before | ⟨same, before⟩ <;> rcases after with after | ⟨sameToo, after⟩
    · exact .inl (before.trans after)
    · exact .inl (sameToo ▸ before)
    · exact .inl (same ▸ after)
    · exact .inr ⟨same.trans sameToo, preorder.trans _ _ _ before after⟩
  total first second := by
    simp only [StagedQuery.standsByRank, Bool.or_eq_true, Bool.and_eq_true, decide_eq_true_eq]
    rcases lt_trichotomy (rank first) (rank second) with before | same | after
    · exact .inl (.inl before)
    · exact (Bool.or_eq_true_iff.mp (preorder.total first second)).imp
        (fun before => .inr ⟨same, before⟩) fun after => .inr ⟨same.symm, after⟩
    · exact .inr (.inl after)

/-- Members are keys that are read from an item. -/
theorem standsBefore_eq (keys : List (String × Direction)) :
    standsBefore keys =
      standsBeforeBy (keys.map fun key => (fun item => item.member key.1, key.2)) := by
  induction keys with
  | nil => rfl
  | cons key rest ih =>
    obtain ⟨name, ascending | descending⟩ := key
    · rw [standsBefore, ih]
      rfl
    · rw [standsBefore, ih]
      rfl

/-- Keys order items by a total preorder, whatever they read. -/
theorem totalPreorder_standsBeforeBy (keys : List ((α → Value) × Direction)) :
    TotalPreorder (standsBeforeBy keys) := by
  induction keys with
  | nil => exact ⟨fun _ _ _ _ _ => rfl, fun _ _ => rfl⟩
  | cons key rest ih =>
    obtain ⟨read, ascending | descending⟩ := key
    · exact ih.standsByRank _
    · exact ih.standsByRank _

/-- Members order items by a total preorder. -/
theorem totalPreorder_standsBefore (keys : List (String × Direction)) :
    TotalPreorder (standsBefore keys) :=
  standsBefore_eq keys ▸ totalPreorder_standsBeforeBy _

/-- Without keys a sort changes nothing. -/
theorem mergeSort_standsBefore_nil (items : List Value) :
    items.mergeSort (standsBefore []) = items :=
  List.mergeSort_of_pairwise (List.pairwise_of_forall fun _ _ => rfl)

/-- Values that a sort key can order: null beside integers, beside truth values or beside
    texts. -/
def Comparable (values : List Value) : Prop :=
  (∀ value ∈ values, value = .null ∨ ∃ number, value = .int number) ∨
  (∀ value ∈ values, value = .null ∨ ∃ truth, value = .bool truth) ∨
  ∀ value ∈ values, value = .null ∨ ∃ text, value.text? = some text

/-- Of values that a key can order, it can order any selection. -/
theorem Comparable.mono {values others : List Value} (comparable : Comparable others)
    (below : values ⊆ others) : Comparable values :=
  comparable.imp (fun ints value inside => ints value (below inside)) <|
    Or.imp (fun truths value inside => truths value (below inside))
      fun texts value inside => texts value (below inside)

/-- Null is less than every other value. -/
theorem Value.compare?_null_left {value : Value} (given : value ≠ .null) :
    Value.null.compare? value = some .lt := by
  cases value <;> first | rfl | exact absurd rfl given

/-- Every other value is greater than null. -/
theorem Value.compare?_null_right {value : Value} (given : value ≠ .null) :
    value.compare? .null = some .gt := by
  cases value <;> first | rfl | exact absurd rfl given

/-- Values of one kind and null compare as their ranks do, if those of the kind do and stand
    after null. -/
theorem compares_rank_of_kind {kind : Value → Prop}
    (afterNull : ∀ value, kind value → Value.null.rank < value.rank)
    (compares : ∀ first second, kind first → kind second →
      ((first.compare? second).getD .eq).Compares first.rank second.rank)
    {first second : Value} (ofKind : first = .null ∨ kind first)
    (ofKindToo : second = .null ∨ kind second) :
    ((first.compare? second).getD .eq).Compares first.rank second.rank := by
  have given {value : Value} (ofKind : kind value) : value ≠ .null := by
    rintro rfl
    exact lt_irrefl _ (afterNull _ ofKind)
  rcases ofKind with rfl | ofKind <;> rcases ofKindToo with rfl | ofKindToo
  · exact rfl
  · rw [Value.compare?_null_left (given ofKindToo)]
    exact afterNull second ofKindToo
  · rw [Value.compare?_null_right (given ofKind)]
    exact afterNull first ofKind
  · exact compares first second ofKind ofKindToo

/-- Integers compare as their ranks do. -/
theorem compares_rank_int (left right : Int64) :
    (((Value.int left).compare? (.int right)).getD .eq).Compares (Value.int left).rank
      (Value.int right).rank := by
  simp only [Value.compare?, Value.rank, Option.getD_some]
  split
  · rename_i less
    exact Rank.ofNumber_lt (Int64.lt_iff_toInt_lt.mp less)
  · split
    · rename_i same
      exact congrArg (fun number : Int64 => Rank.ofNumber number.toInt) same
    · rename_i notLess different
      have more : right < left := Int64.lt_of_le_of_ne (Int64.not_lt.mp notLess) (Ne.symm different)
      exact Rank.ofNumber_lt (Int64.lt_iff_toInt_lt.mp more)

/-- Truth values compare as their ranks do. -/
theorem compares_rank_bool (left right : Bool) :
    (((Value.bool left).compare? (.bool right)).getD .eq).Compares (Value.bool left).rank
      (Value.bool right).rank := by
  cases left <;> cases right
  · exact rfl
  · exact Rank.ofNumber_lt Int.zero_lt_one
  · exact Rank.ofNumber_lt Int.zero_lt_one
  · exact rfl

/-- Texts compare as their ranks do. -/
theorem compares_compareTexts (left right : String) :
    (Value.compareTexts left right).Compares (Rank.ofText left : Rank Int String)
      (Rank.ofText right) := by
  unfold Value.compareTexts
  split
  · rename_i less
    exact Rank.ofText_lt less
  · split
    · rename_i same
      exact congrArg Rank.ofText same
    · rename_i notLess different
      exact Rank.ofText_lt (lt_of_le_of_ne (not_lt.mp notLess) (Ne.symm different))

/-- Comparable values compare as their ranks do. -/
theorem compares_rank {values : List Value} (comparable : Comparable values) {first second : Value}
    (inside : first ∈ values) (insideToo : second ∈ values) :
    ((first.compare? second).getD .eq).Compares first.rank second.rank := by
  rcases comparable with ints | truths | texts
  · refine @compares_rank_of_kind (fun value => ∃ number, value = .int number) ?_ ?_ _ _
      (ints first inside) (ints second insideToo)
    · rintro value ⟨number, rfl⟩
      exact Rank.lowest_lt_ofNumber _
    · rintro first second ⟨left, rfl⟩ ⟨right, rfl⟩
      exact compares_rank_int left right
  · refine @compares_rank_of_kind (fun value => ∃ truth, value = .bool truth) ?_ ?_ _ _
      (truths first inside) (truths second insideToo)
    · rintro value ⟨truth, rfl⟩
      exact Rank.lowest_lt_ofNumber _
    · rintro first second ⟨left, rfl⟩ ⟨right, rfl⟩
      exact compares_rank_bool left right
  · refine @compares_rank_of_kind (fun value => ∃ text, value.text? = some text) ?_ ?_ _ _
      (texts first inside) (texts second insideToo)
    · rintro value ⟨text, texts⟩
      cases value <;> cases texts <;> exact Rank.lowest_lt_ofText _
    · rintro first second ⟨left, texts⟩ ⟨right, textsToo⟩
      cases first <;> cases texts <;> cases second <;> cases textsToo <;>
        exact compares_compareTexts left right

/-- An order of keys that goes on to the next key only for ties is that of their ranks. -/
theorem then_ne_lt_iff {ρ : Type} [LinearOrder ρ] {rank : α → ρ} {first second : α}
    {order later : Ordering} (compares : order.Compares (rank first) (rank second))
    (ties : later ≠ .lt ↔ le second first = true) :
    order.then later ≠ .lt ↔ standsByRank rank le second first = true := by
  cases order with
  | lt => simp [standsByRank, lt_asymm compares, ne_of_gt compares]
  | eq => simpa [standsByRank, show rank first = rank second from compares] using ties
  | gt => simp [standsByRank, show rank second < rank first from compares]

/-- The evaluator compares the keys of two items as the items stand by them, if the values of
    every key can be compared. -/
theorem compareKeys_ne_lt_iff {keys : List ((α → Value) × Direction)} {items : List α}
    (comparable : ∀ key ∈ keys, Comparable (items.map key.1)) {first second : α}
    (inside : first ∈ items) (insideToo : second ∈ items) :
    compareKeys (keys.map Prod.snd) (keys.map fun key => key.1 first)
        (keys.map fun key => key.1 second) ≠ .lt ↔
      standsBeforeBy keys second first = true := by
  induction keys with
  | nil => simp [compareKeys, standsBeforeBy]
  | cons key rest ih =>
    obtain ⟨read, direction⟩ := key
    have later := ih fun key inside => comparable key (by simp [inside])
    have compares := compares_rank (comparable (read, direction) (by simp))
      (List.mem_map_of_mem inside) (List.mem_map_of_mem insideToo)
    simp only [List.map_cons, compareKeys]
    cases direction with
    | ascending => exact then_ne_lt_iff compares later
    | descending =>
      -- Descending keys are compared the other way round, so that their ranks are in the dual.
      exact then_ne_lt_iff (toDual_compares_toDual.mpr (Ordering.compares_swap.mpr compares)) later

/-- Sorting items by their keys puts them in the stable order in which they stand. -/
theorem sortItems_keys {keys : List ((α → Value) × Direction)} {items : List α}
    (comparable : ∀ key ∈ keys, Comparable (items.map key.1)) :
    (sortItems (fun first second => compareKeys (keys.map Prod.snd) first.1 second.1)
      (items.map fun item => (keys.map fun key => key.1 item, item))).map Prod.snd =
        items.mergeSort (standsBeforeBy keys) :=
  sortItems_keyed (totalPreorder_standsBeforeBy keys) fun _ inside _ insideToo =>
    compareKeys_ne_lt_iff comparable inside insideToo

/-- Sorting items by their members puts them in the stable order in which they stand. -/
theorem sortItems_members {keys : List (String × Direction)} {items : List Value}
    (comparable : ∀ key ∈ keys, Comparable (items.map (·.member key.1))) :
    (sortItems (fun first second => compareKeys (keys.map Prod.snd) first.1 second.1)
      (items.map fun item => (keys.map fun key => item.member key.1, item))).map Prod.snd =
        items.mergeSort (standsBefore keys) := by
  have sorted := @sortItems_keys Value (keys.map fun key => (fun item => item.member key.1, key.2))
    items (List.forall_mem_map.mpr comparable)
  simpa only [List.map_map, Function.comp_def, standsBefore_eq] using sorted

end StagedQuery
