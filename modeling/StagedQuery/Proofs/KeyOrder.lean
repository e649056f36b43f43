import StagedQuery.Proofs.Sorting
import StagedQuery.Proofs.Widening

/-!
# When sort keys have an order

Items are sorted by comparing their keys, and values that cannot be compared count as equal.
The comparison is reflexive, and compared the other way round two rows of keys are in the
opposite order. It is transitive exactly where its ties are: values of two kinds are tied with
each other but need not be tied among themselves, and neither need integers that are so large
that one floating point number equals several of them.
-/

namespace StagedQuery

/-- How a sort key compares two values: those without an order count as equal. -/
def keyOrder (left right : Value) : Ordering :=
  (left.compare? right).getD .eq

/-- What is not after another item is not after any item that the other is not after. -/
def TransitiveOn {α : Type} (order : α → α → Ordering) (items : List α) : Prop :=
  ∀ first ∈ items, ∀ second ∈ items, ∀ third ∈ items,
    order first second ≠ .gt → order second third ≠ .gt → order first third ≠ .gt

/-- The kinds of values that a sort key can order among themselves. -/
inductive KeyKind where
  | number
  | truth
  | text

/-- The kind of a value as a sort key. A NaN has none, since it is not even in order with
    itself, and neither have null, lists and objects. -/
def Value.keyKind? : Value → Option KeyKind
  | .int _ => some .number
  | .float number => if number.isNaN then none else some .number
  | .bool _ => some .truth
  | .string _ => some .text
  | .enumeration _ => some .text
  | _ => none

/-- No floating point number among some values equals two of the integers among them. -/
def ResolvesIntegers (values : List Value) : Prop :=
  ∀ number left right, .float number ∈ values → .int left ∈ values → .int right ∈ values →
    Value.widen left == number → Value.widen right == number → left = right

/-- Values whose ties are transitive: besides null there are values of one kind only, with
    integers that the floating point numbers among them keep apart, or there are no two values
    that a key tells apart. -/
def Coherent (values : List Value) : Prop :=
  (∃ kind, (∀ value ∈ values, value ≠ .null → value.keyKind? = some kind) ∧
      ResolvesIntegers values) ∨
    ∀ left ∈ values, ∀ right ∈ values, left ≠ .null → right ≠ .null → keyOrder left right = .eq

/-! ## Two values -/

/-- Where both orders are those of a linear order, one is the opposite of the other. -/
theorem swap_of_compares {ρ : Type} [LinearOrder ρ] {left right : ρ} {order other : Ordering}
    (compares : order.Compares left right) (comparesToo : other.Compares right left) :
    other = order.swap :=
  comparesToo.inj (Ordering.compares_swap.mpr compares)

/-- Compared the other way round, floating point numbers are in the opposite order as sort keys. A
    NaN ties either way. -/
theorem keyOrder_float_swap (left right : Float) :
    (Value.compareFloats right left).getD .eq =
      ((Value.compareFloats left right).getD .eq).swap := by
  rw [Value.compareFloats_swap]
  cases Value.compareFloats left right <;> rfl

/-- Compared the other way round, two values are in the opposite order. -/
theorem keyOrder_swap (left right : Value) : keyOrder right left = (keyOrder left right).swap := by
  cases left <;> cases right <;> try rfl
  · exact swap_of_compares (compares_rank_bool _ _) (compares_rank_bool _ _)
  · exact swap_of_compares (compares_rank_int _ _) (compares_rank_int _ _)
  · exact keyOrder_float_swap _ _
  · exact keyOrder_float_swap _ _
  · exact keyOrder_float_swap _ _
  all_goals exact swap_of_compares (compares_compareTexts _ _) (compares_compareTexts _ _)

/-- Only a tie is its own opposite. -/
theorem eq_of_eq_swap {order : Ordering} (same : order = order.swap) : order = .eq := by
  cases order <;> first | rfl | cases same

/-- Every value ties with itself, a NaN too. -/
theorem keyOrder_self (value : Value) : keyOrder value value = .eq :=
  eq_of_eq_swap (keyOrder_swap value value)

/-- Null stands before every other value. -/
theorem keyOrder_null_left {value : Value} (given : value ≠ .null) :
    keyOrder .null value = .lt := by
  rw [keyOrder, Value.compare?_null_left given, Option.getD_some]

/-- Every other value stands after null. -/
theorem keyOrder_null_right {value : Value} (given : value ≠ .null) :
    keyOrder value .null = .gt := by
  rw [keyOrder, Value.compare?_null_right given, Option.getD_some]

/-- Values other than null that a key tells apart are of one kind. -/
theorem exists_kind_of_keyOrder {left right : Value} (given : left ≠ .null)
    (givenToo : right ≠ .null) (apart : keyOrder left right ≠ .eq) :
    ∃ kind, left.keyKind? = some kind ∧ right.keyKind? = some kind := by
  have known {left right : Float} (apart : (Value.compareFloats left right).getD .eq ≠ .eq) :
      left.isNaN = false ∧ right.isNaN = false := by
    refine ⟨Bool.eq_false_iff.mpr fun unknown => ?_, Bool.eq_false_iff.mpr fun unknown => ?_⟩
    · rw [Value.compareFloats_eq_none_iff.mpr (.inl unknown)] at apart
      exact apart rfl
    · rw [Value.compareFloats_eq_none_iff.mpr (.inr unknown)] at apart
      exact apart rfl
  cases left <;> cases right <;>
    first
      | exact absurd rfl given
      | exact absurd rfl givenToo
      | exact absurd rfl apart
      | exact ⟨_, rfl, rfl⟩
      | exact ⟨.number, by simp only [Value.keyKind?, (known apart).1, (known apart).2,
          Bool.false_eq_true, ↓reduceIte, and_self]⟩

/-! ## Numbers -/

/-- The place of a number among floating point numbers. -/
def Value.numberPlace : Value → Place
  | .int number => place (widen number)
  | .float number => place number
  | _ => place 0

/-- A value that a key takes for a number. -/
inductive IsNumber : Value → Prop
  | int (number : Int64) : IsNumber (.int number)
  | float {number : Float} (known : number.isNaN = false) : IsNumber (.float number)

/-- A value of the kind of numbers is an integer or a floating point number that is no NaN. -/
theorem isNumber_of_keyKind? {value : Value} (kind : value.keyKind? = some .number) :
    IsNumber value := by
  cases value with
  | int number => exact .int number
  | float number =>
    cases known : number.isNaN with
    | false => exact .float known
    | true =>
      rw [Value.keyKind?, known] at kind
      cases kind
  | _ => cases kind

/-- Integers are in the order of the numbers that they are. -/
theorem keyOrder_ints (left right : Int64) :
    (keyOrder (.int left) (.int right)).Compares left.toInt right.toInt :=
  have increases : StrictMono (Rank.ofNumber : Int → Rank Int String) := fun _ _ => Rank.ofNumber_lt
  increases.compares.mp (compares_rank_int left right)

/-- Of two integers the one with the lower place is the smaller one. -/
theorem toInt_lt_of_place_lt {left right : Int64}
    (before : place (Value.widen left) < place (Value.widen right)) : left.toInt < right.toInt := by
  refine Int.not_le.mp fun notBefore => ?_
  exact absurd (Value.place_widen_mono (Int64.le_iff_toInt_le.mpr notBefore)) (not_le.mpr before)

/-- Floating point numbers that are numbers are in the order of their places. -/
theorem keyOrder_floats {left right : Float} (known : left.isNaN = false)
    (knownToo : right.isNaN = false) :
    ((Value.compareFloats left right).getD .eq).Compares (place left) (place right) := by
  obtain ⟨order, compared, compares⟩ := Value.compareFloats_compares known knownToo
  rwa [compared, Option.getD_some]

/-- Numbers are in the order of their places, but for integers that share one. -/
theorem keyOrder_numbers {left right : Value} (number : IsNumber left)
    (numberToo : IsNumber right) :
    (keyOrder left right).Compares left.numberPlace right.numberPlace ∨
      left.numberPlace = right.numberPlace ∧
        ∃ first second, left = .int first ∧ right = .int second := by
  cases number with
  | int first =>
    cases numberToo with
    | int second =>
      have compares := keyOrder_ints first second
      rcases lt_trichotomy (place (Value.widen first)) (place (Value.widen second)) with
        before | same | after
      · rw [compares.eq_lt.mpr (toInt_lt_of_place_lt before)]
        exact .inl before
      · exact .inr ⟨same, first, second, rfl, rfl⟩
      · rw [compares.eq_gt.mpr (toInt_lt_of_place_lt after)]
        exact .inl after
    | float known => exact .inl (keyOrder_floats (Value.isNaN_widen first) known)
  | float known =>
    cases numberToo with
    | int second => exact .inl (keyOrder_floats known (Value.isNaN_widen second))
    | float knownToo => exact .inl (keyOrder_floats known knownToo)

/-! ## Columns of values -/

variable {values : List Value}

/-- A key is transitive if it is on the values other than null, which stands before them all. -/
theorem transitiveOn_of_given
    (transitive : TransitiveOn keyOrder (values.filter fun value => !value.isNull)) :
    TransitiveOn keyOrder values := by
  have kept {value : Value} (inside : value ∈ values) (given : value ≠ .null) :
      value ∈ values.filter fun value => !value.isNull := by
    refine List.mem_filter.mpr ⟨inside, ?_⟩
    cases value <;> first | rfl | exact absurd rfl given
  intro first inside second insideToo third insideThree before after
  by_cases given : first = .null
  · subst given
    by_cases givenThree : third = .null
    · simp [givenThree, keyOrder_self]
    · simp [keyOrder_null_left givenThree]
  by_cases givenToo : second = .null
  · subst givenToo
    exact absurd (keyOrder_null_right given) before
  by_cases givenThree : third = .null
  · subst givenThree
    exact absurd (keyOrder_null_right givenToo) after
  exact transitive first (kept inside given) second (kept insideToo givenToo) third
    (kept insideThree givenThree) before after

/-- A key that orders values as their ranks are is transitive on them. -/
theorem transitiveOn_of_compares {α ρ : Type} [LinearOrder ρ] {order : α → α → Ordering}
    {rank : α → ρ} {items : List α}
    (compares : ∀ first ∈ items, ∀ second ∈ items,
      (order first second).Compares (rank first) (rank second)) : TransitiveOn order items := by
  intro first inside second insideToo third insideThree before after
  have below := (compares first inside second insideToo).ne_gt.mp before
  have belowToo := (compares second insideToo third insideThree).ne_gt.mp after
  exact (compares first inside third insideThree).ne_gt.mpr (below.trans belowToo)

/-- Integers that share a place with a floating point number among some values are equal. -/
theorem ResolvesIntegers.eq_of_place (resolves : ResolvesIntegers values) {number : Float}
    {left right : Int64} (listed : .float number ∈ values) (inside : .int left ∈ values)
    (insideToo : .int right ∈ values) (known : number.isNaN = false)
    (same : place (Value.widen left) = place number)
    (sameToo : place (Value.widen right) = place number) : left = right :=
  resolves number left right listed inside insideToo
    (Value.float_beq_iff_place.mpr ⟨Value.isNaN_widen left, known, same⟩)
    (Value.float_beq_iff_place.mpr ⟨Value.isNaN_widen right, known, sameToo⟩)

/-- A key is transitive on numbers if the floating point numbers keep the integers apart. -/
theorem transitiveOn_numbers (numbers : ∀ value ∈ values, IsNumber value)
    (resolves : ResolvesIntegers values) : TransitiveOn keyOrder values := by
  have place_le {left right : Value} (inside : left ∈ values) (insideToo : right ∈ values)
      (before : keyOrder left right ≠ .gt) : left.numberPlace ≤ right.numberPlace := by
    rcases keyOrder_numbers (numbers left inside) (numbers right insideToo) with compares | same
    · exact compares.ne_gt.mp before
    · exact same.1.le
  intro first inside second insideToo third insideThree before after
  have below := place_le inside insideToo before
  have belowToo := place_le insideToo insideThree after
  rcases keyOrder_numbers (numbers first inside) (numbers third insideThree) with
    compares | ⟨same, left, right, rfl, rfl⟩
  · exact compares.ne_gt.mpr (below.trans belowToo)
  · cases numbers second insideToo with
    | int middle =>
      have compares := (keyOrder_ints left middle).ne_gt.mp before
      have comparesToo := (keyOrder_ints middle right).ne_gt.mp after
      exact (keyOrder_ints left right).ne_gt.mpr (compares.trans comparesToo)
    | float known =>
      have equal := resolves.eq_of_place insideToo inside insideThree known
        (le_antisymm below (belowToo.trans same.ge)) (le_antisymm (same.ge.trans below) belowToo)
      simp [equal, keyOrder_self]

/-- A key is transitive on values whose ties are. -/
theorem transitiveOn_of_coherent (coherent : Coherent values) : TransitiveOn keyOrder values := by
  refine transitiveOn_of_given ?_
  have given {value : Value} (inside : value ∈ values.filter fun value => !value.isNull) :
      value ∈ values ∧ value ≠ .null := by
    obtain ⟨listed, kept⟩ := List.mem_filter.mp inside
    refine ⟨listed, ?_⟩
    rintro rfl
    cases kept
  rcases coherent with ⟨kind, same, resolves⟩ | tied
  · have ofKind {value : Value} (inside : value ∈ values.filter fun value => !value.isNull) :
        value.keyKind? = some kind := same value (given inside).1 (given inside).2
    cases kind with
    | number =>
      refine transitiveOn_numbers (fun value inside => isNumber_of_keyKind? (ofKind inside)) ?_
      exact fun number left right listed inside insideToo =>
        resolves number left right (given listed).1 (given inside).1 (given insideToo).1
    | truth =>
      refine transitiveOn_of_compares fun first inside second insideToo =>
        compares_rank (.inr (.inl fun value listed => .inr ?_)) inside insideToo
      have kind := ofKind listed
      cases value <;> simp [Value.keyKind?] at kind ⊢
    | text =>
      refine transitiveOn_of_compares fun first inside second insideToo =>
        compares_rank (.inr (.inr fun value listed => .inr ?_)) inside insideToo
      have kind := ofKind listed
      cases value <;> simp [Value.keyKind?, Value.text?] at kind ⊢
  · intro first inside second insideToo third insideThree before after
    rw [tied first (given inside).1 third (given insideThree).1 (given inside).2
      (given insideThree).2]
    decide

/-- Where a key is transitive, so are its ties. -/
theorem TransitiveOn.ties (transitive : TransitiveOn keyOrder values) {first second third : Value}
    (inside : first ∈ values) (insideToo : second ∈ values) (insideThree : third ∈ values)
    (tied : keyOrder first second = .eq) (tiedToo : keyOrder second third = .eq) :
    keyOrder first third = .eq := by
  have before : keyOrder first third ≠ .gt :=
    transitive first inside second insideToo third insideThree (by simp [tied]) (by simp [tiedToo])
  have after : keyOrder third first ≠ .gt :=
    transitive third insideThree second insideToo first inside
      (by simp [keyOrder_swap second third, tiedToo]) (by simp [keyOrder_swap first second, tied])
  rw [keyOrder_swap first third] at after
  cases order : keyOrder first third with
  | lt => exact absurd rfl (order ▸ after)
  | eq => rfl
  | gt => exact absurd order before

/-- Where a key is transitive, the values have coherent ties: a value of a further kind, or a
    floating point number that equals two integers, would tie with values that are apart. -/
theorem coherent_of_transitiveOn (transitive : TransitiveOn keyOrder values) :
    Coherent values := by
  refine or_iff_not_imp_right.mpr fun apart => ?_
  simp only [not_forall] at apart
  obtain ⟨left, inside, right, insideToo, given, givenToo, apart⟩ := apart
  obtain ⟨kind, leftKind, rightKind⟩ := exists_kind_of_keyOrder given givenToo apart
  refine ⟨kind, fun value listed present => Classical.byContradiction fun other => ?_, ?_⟩
  · -- A value of another kind would be tied with both.
    have unrelated {known : Value} (nonnull : known ≠ .null) (ofKind : known.keyKind? = some kind) :
        keyOrder known value = .eq := by
      refine Classical.byContradiction fun different => ?_
      obtain ⟨shared, first, second⟩ := exists_kind_of_keyOrder nonnull present different
      exact other (second.trans (first.symm.trans ofKind))
    refine apart (transitive.ties inside listed insideToo (unrelated given leftKind) ?_)
    rw [keyOrder_swap right value, unrelated givenToo rightKind]
    rfl
  · intro number first second listed among amongToo same sameToo
    have tied {integer : Int64} (same : (Value.widen integer == number) = true) :
        keyOrder (.int integer) (.float number) = .eq := by
      have equal := (float_beq_iff _ _).mp same
      rw [← Value.compareFloats_eq] at equal
      simp only [keyOrder, Value.compare?, equal, Option.getD_some]
    have equal := transitive.ties among listed amongToo (tied same)
      (by rw [keyOrder_swap (.int second), tied sameToo]; rfl)
    exact Int64.toInt_inj.mp ((keyOrder_ints first second).eq_eq.mp equal)

/-- A key is transitive exactly on values whose ties are. -/
theorem transitiveOn_iff_coherent : TransitiveOn keyOrder values ↔ Coherent values :=
  ⟨coherent_of_transitiveOn, transitiveOn_of_coherent⟩

/-! ## Rows of keys -/

/-- The first key decides, and the others where it ties. -/
theorem compareKeys_cons (direction : Direction) (directions : List Direction) (left right : Value)
    (lefts rights : List Value) :
    compareKeys (direction :: directions) (left :: lefts) (right :: rights) =
      (direction.orient (keyOrder left right)).then (compareKeys directions lefts rights) := by
  rw [compareKeys, keyOrder]
  cases direction.orient ((left.compare? right).getD .eq) <;> rfl

/-- A row that has ended ties with any other. -/
theorem compareKeys_nil_right (directions : List Direction) (left : List Value) :
    compareKeys directions left [] = .eq := by
  cases directions <;> cases left <;> rfl

/-- Compared the other way round, two rows are in the opposite order, whatever they hold. -/
theorem compareKeys_swap (directions : List Direction) (left right : List Value) :
    compareKeys directions right left = (compareKeys directions left right).swap := by
  induction directions generalizing left right with
  | nil => rfl
  | cons direction directions ih =>
    cases left with
    | nil => rw [compareKeys_nil_right]; rfl
    | cons left lefts =>
      cases right with
      | nil => rw [compareKeys_nil_right]; rfl
      | cons right rights =>
        rw [compareKeys_cons, compareKeys_cons, ih, keyOrder_swap left right, Ordering.swap_then]
        cases direction <;> rfl

/-- An order of rows is transitive if that of every column is.

    Proof: a row is compared by its first key and then by the others, and such a comparison has
    the laws of both. -/
theorem transCmp_compareKeys {ι : Type} (directions : List Direction) {width : Nat}
    {row : ι → List Value} (wide : ∀ item, (row item).length = width)
    (columns : ∀ place < directions.length, Std.TransCmp fun first second =>
      keyOrder ((row first).getD place .null) ((row second).getD place .null)) :
    Std.TransCmp fun first second => compareKeys directions (row first) (row second) := by
  have constant : Std.TransCmp fun _ _ : ι => Ordering.eq :=
    { eq_swap := rfl, isLE_trans := fun _ _ => rfl }
  induction directions generalizing width row with
  | nil => exact constant
  | cons direction directions ih =>
    cases width with
    | zero =>
      have empty (item : ι) : row item = [] := List.eq_nil_of_length_eq_zero (wide item)
      simpa only [empty, compareKeys_nil_right] using constant
    | succ width =>
      have split (item : ι) : row item = (row item).getD 0 .null :: (row item).tail := by
        have long := wide item
        cases listed : row item with
        | nil => simp [listed] at long
        | cons first rest => rfl
      have first := columns 0 (by simp)
      have others := @ih width (fun item => (row item).tail) (fun item => by simp [wide item])
        fun place small => by
          simpa [List.getD_eq_getElem?_getD, List.getElem?_tail] using
            columns (place + 1) (by simpa using small)
      have oriented : Std.TransCmp fun left right : ι =>
          direction.orient (keyOrder ((row left).getD 0 .null) ((row right).getD 0 .null)) := by
        cases direction with
        | ascending => exact first
        | descending =>
          have turned := @Std.TransCmp.opposite _ _ first
          simpa only [Direction.orient, ← keyOrder_swap] using turned
      have both : Std.TransCmp (compareLex
          (fun left right : ι =>
            direction.orient (keyOrder ((row left).getD 0 .null) ((row right).getD 0 .null)))
          fun left right => compareKeys directions (row left).tail (row right).tail) :=
        inferInstance
      refine cast (congrArg Std.TransCmp (funext fun left => funext fun right => ?_)) both
      rw [split left, split right, compareKeys_cons]
      rfl

/-- Rows of one length are ordered transitively if every column of theirs has transitive ties. -/
theorem transitiveOn_compareKeys {directions : List Direction} {width : Nat}
    {rows : List (List Value)} (wide : ∀ row ∈ rows, row.length = width)
    (columns : ∀ place < directions.length, Coherent (rows.map (·.getD place .null))) :
    TransitiveOn (compareKeys directions) rows := by
  have lawful := @transCmp_compareKeys {row // row ∈ rows} directions width Subtype.val
    (fun row => wide row row.2) fun place small =>
      have column (row : {row // row ∈ rows}) :
          row.1.getD place .null ∈ rows.map (·.getD place .null) := List.mem_map_of_mem row.2
      { eq_swap := keyOrder_swap _ _
        isLE_trans := fun {first second third} before after => by
          rw [Ordering.isLE_iff_ne_gt] at before after ⊢
          exact transitiveOn_of_coherent (columns place small) _ (column first) _ (column second) _
            (column third) before after }
  intro first inside second insideToo third insideThree before after
  exact Ordering.isLE_iff_ne_gt.mp (@Std.TransCmp.isLE_trans _ _ lawful ⟨first, inside⟩
    ⟨second, insideToo⟩ ⟨third, insideThree⟩ (Ordering.isLE_iff_ne_gt.mpr before)
    (Ordering.isLE_iff_ne_gt.mpr after))

/-- By one key rows compare as their values do, in the direction of the key. -/
theorem compareKeys_singleton (direction : Direction) (left right : Value) :
    compareKeys [direction] [left] [right] = direction.orient (keyOrder left right) := by
  rw [compareKeys_cons, show compareKeys [] [] [] = .eq from rfl, Ordering.then_eq]

/-- One key, in either direction, is transitive exactly on values whose ties are. -/
theorem transitiveOn_singletons_iff (direction : Direction) :
    TransitiveOn (compareKeys [direction]) (values.map ([·])) ↔ Coherent values := by
  rw [← transitiveOn_iff_coherent]
  simp only [TransitiveOn, List.forall_mem_map, compareKeys_singleton]
  cases direction with
  | ascending => rfl
  | descending =>
    simp only [Direction.orient, ← keyOrder_swap]
    constructor
    · intro transitive first inside second insideToo third insideThree before after
      exact transitive third insideThree second insideToo first inside after before
    · intro transitive first inside second insideToo third insideThree before after
      exact transitive third insideThree second insideToo first inside after before

/-- What the comparison of key rows guarantees. It is reflexive and reverses when it is turned
    round, on any rows and in any directions. It is transitive on rows of one length if every
    column is coherent, and with one key only then. -/
theorem compareKeys_preorder (directions : List Direction) :
    (∀ row, compareKeys directions row row = .eq) ∧
    (∀ left right, compareKeys directions right left = (compareKeys directions left right).swap) ∧
    (∀ width rows, (∀ row ∈ rows, row.length = width) →
      (∀ place < directions.length, Coherent (rows.map (·.getD place .null))) →
        TransitiveOn (compareKeys directions) rows) ∧
    ∀ direction values,
      TransitiveOn (compareKeys [direction]) (values.map ([·])) ↔ Coherent values := by
  refine ⟨fun row => ?_, compareKeys_swap directions, ?_, ?_⟩
  · exact eq_of_eq_swap (compareKeys_swap directions row row)
  · exact fun _ _ wide columns => transitiveOn_compareKeys wide columns
  · exact fun direction _ => transitiveOn_singletons_iff direction

/-- Films by year and title: years may be missing. -/
def filmRows : List (List Value) :=
  [[.int 1979, .string "Alien"], [.null, .string "Heat"], [.int 1979, .string "Stalker"]]

/-- Years and titles are coherent columns. A text between two numbers is tied with both, and so
    is a floating point number that two large integers are rounded to. -/
theorem compareKeys_filmRows :
    TransitiveOn (compareKeys [.descending, .ascending]) filmRows ∧
    ¬TransitiveOn (compareKeys [.ascending]) ([.int 1, .string "a", .int 0].map ([·])) ∧
    ¬TransitiveOn (compareKeys [.ascending])
      ([.int 9007199254740993, .float 9007199254740992.0, .int 9007199254740992].map ([·])) := by
  obtain ⟨-, -, coherent, single⟩ := compareKeys_preorder [.descending, .ascending]
  refine ⟨coherent 2 filmRows (by decide) ?_, ?_, ?_⟩
  · rintro (_ | _ | place) small
    · refine .inl ⟨.number, by simp [filmRows, Value.keyKind?], ?_⟩
      intro number left right listed
      simp [filmRows] at listed
    · refine .inl ⟨.text, by simp [filmRows, Value.keyKind?], ?_⟩
      intro number left right listed
      simp [filmRows] at listed
    · exact absurd small (by simp)
  · rw [single]
    rintro (⟨kind, same, -⟩ | tied)
    · have number := same (.int 1) (by simp) (by simp)
      have text := same (.string "a") (by simp) (by simp)
      rw [← text] at number
      cases number
    · exact absurd (tied (.int 1) (by simp) (.int 0) (by simp) (by simp) (by simp)) (by decide)
  · rw [single]
    rintro (⟨kind, -, resolves⟩ | tied)
    · have equal := resolves 9007199254740992.0 9007199254740993 9007199254740992 (by simp)
        (by simp) (by simp) (by decide +kernel) (by decide +kernel)
      exact absurd equal (by decide)
    · exact absurd (tied (.int 9007199254740993) (by simp) (.int 9007199254740992) (by simp)
        (by simp) (by simp)) (by decide)

end StagedQuery
