import Mathlib
import StagedQuery.Value.Basic

/-!
# The order of floating point numbers

Every floating point number that is not a NaN has a place: negative infinity, the negative
numbers, zero, the positive numbers, positive infinity, and among numbers of one sign first the
exponent and then the mantissa. Two numbers compare as their places do. A NaN compares with
nothing, not even with itself.
-/

namespace StagedQuery

open Float.Model Float.Model.UnpackedFloat

/-! ## Numbers in parts -/

/-- Places of floating point numbers: the kind of the number, its exponent, its mantissa. -/
abbrev Place : Type :=
  Int ×ₗ Int ×ₗ Int

/-- The place of a number in parts. A NaN has no place of its own and is put to zero. -/
def placeOfParts : UnpackedFloat → Place
  | .infinity .negative => toLex (-2, toLex (0, 0))
  | .finite .negative mantissa exponent _ => toLex (-1, toLex (-exponent, -mantissa))
  | .zero _ => toLex (0, toLex (0, 0))
  | .notANumber => toLex (0, toLex (0, 0))
  | .finite .positive mantissa exponent _ => toLex (1, toLex (exponent, mantissa))
  | .infinity .positive => toLex (2, toLex (0, 0))

variable {left right : UnpackedFloat}

/-- Compared the other way round, two numbers in parts are in the opposite order. -/
theorem compare_parts_swap (left right : UnpackedFloat) :
    right.compare left = (left.compare right).map Ordering.swap := by
  rcases left with ⟨_ | _⟩ | _ | _ | ⟨_ | _, m, e, _⟩ <;>
    rcases right with ⟨_ | _⟩ | _ | _ | ⟨_ | _, n, f, _⟩ <;>
    first
      | rfl
      | simp [UnpackedFloat.compare, Ordering.swap_then, Std.OrientedOrd.eq_swap (a := e) (b := f),
          Std.OrientedOrd.eq_swap (a := m) (b := n)]

/-- Two numbers in parts are unordered exactly if one of them is a NaN. -/
theorem compare_parts_eq_none_iff :
    left.compare right = none ↔ left = .notANumber ∨ right = .notANumber := by
  rcases left with ⟨_ | _⟩ | _ | _ | ⟨_ | _, m, e, _⟩ <;>
    rcases right with ⟨_ | _⟩ | _ | _ | ⟨_ | _, n, f, _⟩ <;>
    simp [UnpackedFloat.compare]

/-- A smaller number has a lower place. -/
theorem placeOfParts_lt (less : left.compare right = some .lt) :
    placeOfParts left < placeOfParts right := by
  rcases left with ⟨_ | _⟩ | _ | _ | ⟨_ | _, m, e, _⟩ <;>
    rcases right with ⟨_ | _⟩ | _ | _ | ⟨_ | _, n, f, _⟩ <;>
    simp +decide [UnpackedFloat.compare, placeOfParts, Prod.Lex.toLex_lt_toLex,
      Ordering.then_eq_lt, Ordering.then_eq_gt, compare_lt_iff_lt, compare_gt_iff_gt] at less ⊢
  -- Only numbers of one sign are told apart by their parts.
  · exact less
  · exact less

/-- Numbers that compare as equal have one place, as both zeros do. -/
theorem placeOfParts_eq (same : left.compare right = some .eq) :
    placeOfParts left = placeOfParts right := by
  rcases left with ⟨_ | _⟩ | _ | _ | ⟨_ | _, m, e, _⟩ <;>
    rcases right with ⟨_ | _⟩ | _ | _ | ⟨_ | _, n, f, _⟩ <;>
    simp_all [UnpackedFloat.compare, placeOfParts]

/-- Numbers compare as their places do. -/
theorem compares_placeOfParts {order : Ordering} (compared : left.compare right = some order) :
    order.Compares (placeOfParts left) (placeOfParts right) := by
  cases order with
  | lt => exact placeOfParts_lt compared
  | eq => exact placeOfParts_eq compared
  | gt => exact placeOfParts_lt (by rw [compare_parts_swap, compared]; rfl)

/-! ## Floating point numbers -/

/-- The place of a floating point number. -/
def place (number : Float) : Place :=
  placeOfParts number.toModel.unpack

/-- A floating point number is a NaN exactly if its parts are those of none. -/
theorem float_isNaN_iff {number : Float} :
    number.isNaN = true ↔ number.toModel.unpack = .notANumber :=
  UnpackedFloat.isNaN_iff

/-- A finite number is no NaN. -/
theorem float_isNaN_of_isFinite {number : Float} (finite : number.isFinite = true) :
    number.isNaN = false := by
  refine Bool.eq_false_iff.mpr fun unknown => ?_
  have parts : number.toModel.unpack.isFinite = true := finite
  rw [float_isNaN_iff.mp unknown] at parts
  cases parts

/-- One floating point number is less than another exactly if its parts are. -/
theorem float_lt_iff (left right : Float) :
    left < right ↔ left.toModel.unpack.compare right.toModel.unpack = some .lt :=
  decide_eq_true_iff.trans
    (beq_iff_eq (a := left.toModel.unpack.compare right.toModel.unpack) (b := some Ordering.lt))

/-- Two floating point numbers are equal exactly if their parts compare as equal. -/
theorem float_beq_iff (left right : Float) :
    (left == right) = true ↔ left.toModel.unpack.compare right.toModel.unpack = some .eq :=
  beq_iff_eq (a := left.toModel.unpack.compare right.toModel.unpack) (b := some Ordering.eq)

namespace Value

/-- Floating point numbers compare as their parts do. -/
theorem compareFloats_eq (left right : Float) :
    compareFloats left right = left.toModel.unpack.compare right.toModel.unpack := by
  simp only [compareFloats, float_lt_iff, float_beq_iff,
    compare_parts_swap left.toModel.unpack right.toModel.unpack]
  rcases left.toModel.unpack.compare right.toModel.unpack with _ | _ | _ | _ <;> rfl

/-- Compared the other way round, two floating point numbers are in the opposite order. -/
theorem compareFloats_swap (left right : Float) :
    compareFloats right left = (compareFloats left right).map Ordering.swap := by
  rw [compareFloats_eq, compareFloats_eq, compare_parts_swap]

/-- Two floating point numbers are unordered exactly if one of them is a NaN. -/
theorem compareFloats_eq_none_iff {left right : Float} :
    compareFloats left right = none ↔ left.isNaN = true ∨ right.isNaN = true := by
  rw [compareFloats_eq, float_isNaN_iff, float_isNaN_iff, compare_parts_eq_none_iff]

/-- Floating point numbers that are numbers compare as their places do. -/
theorem compareFloats_compares {left right : Float} (known : left.isNaN = false)
    (knownToo : right.isNaN = false) :
    ∃ order, compareFloats left right = some order ∧ order.Compares (place left) (place right) := by
  cases compared : compareFloats left right with
  | none =>
    rcases compareFloats_eq_none_iff.mp compared with unknown | unknown
    · exact absurd unknown (Bool.eq_false_iff.mp known)
    · exact absurd unknown (Bool.eq_false_iff.mp knownToo)
  | some order => exact ⟨order, rfl, compares_placeOfParts (compareFloats_eq left right ▸ compared)⟩

/-- Two floating point numbers are equal if neither is a NaN and they have one place. -/
theorem float_beq_iff_place {left right : Float} :
    (left == right) = true ↔
      left.isNaN = false ∧ right.isNaN = false ∧ place left = place right := by
  rw [float_beq_iff, ← compareFloats_eq]
  constructor
  · intro same
    have known : ¬(left.isNaN = true ∨ right.isNaN = true) := by
      rw [← compareFloats_eq_none_iff, same]
      exact Option.some_ne_none _
    rw [not_or, Bool.not_eq_true, Bool.not_eq_true] at known
    obtain ⟨order, compared, compares⟩ := compareFloats_compares known.1 known.2
    cases same.symm.trans compared
    exact ⟨known.1, known.2, compares⟩
  · rintro ⟨known, knownToo, same⟩
    obtain ⟨order, compared, compares⟩ := compareFloats_compares known knownToo
    rw [compared, compares.eq_eq.mpr same]

/-- A floating point number equals itself unless it is a NaN. -/
theorem float_beq_self_iff {number : Float} :
    (number == number) = true ↔ number.isNaN = false := by
  simp

end Value

end StagedQuery
