import StagedQuery.Proofs.FloatOrder

/-!
# Widening integers

An integer of 64 bits is widened to the nearest floating point number, so that different
integers may become one number. What is kept is the order: of two integers the smaller one never
becomes the greater number, and no integer becomes a NaN.

Rounding is followed on a scale where a mantissa with its two residual bits has one place:
shifting and rounding are monotone on this scale, and of two integers of different lengths the
shorter one has the smaller exponent or is rounded up to the first number of the next one.
-/

namespace StagedQuery

open Float.Model Float.Model.UnpackedFloat

/-! ## Rounding a mantissa -/

section Mantissa

variable {first second : ExtendedMantissa}

/-- A mantissa with its residual bits in quarters: half a unit is worth two of them, and
    whatever is left below is worth one. -/
def quarters (extended : ExtendedMantissa) : Nat :=
  4 * extended.mantissa + 2 * extended.roundBit.toNat + extended.stickyBit.toNat

/-- A shift by one place halves the whole units. Whatever was below a unit is worth one quarter
    afterwards. -/
theorem quarters_shiftRightOne (extended : ExtendedMantissa) :
    quarters extended.shiftRightOne =
      2 * (quarters extended / 4) + min 1 (quarters extended % 4) := by
  obtain ⟨mantissa, roundBit, stickyBit⟩ := extended
  rcases Nat.mod_two_eq_zero_or_one mantissa with parity | parity <;>
    cases roundBit <;> cases stickyBit <;>
    simp [quarters, ExtendedMantissa.shiftRightOne, parity] <;> omega

/-- A shift by one place keeps the order. -/
theorem quarters_shiftRightOne_mono (below : quarters first ≤ quarters second) :
    quarters first.shiftRightOne ≤ quarters second.shiftRightOne := by
  rw [quarters_shiftRightOne, quarters_shiftRightOne]
  omega

/-- Shifts keep the order. -/
theorem quarters_shiftRight_mono (below : quarters first ≤ quarters second) (places : Nat) :
    quarters (first >>> places) ≤ quarters (second >>> places) := by
  induction places with
  | zero => exact below
  | succ places ih => exact quarters_shiftRightOne_mono ih

/-- Rounding keeps the order. -/
theorem roundedMantissa_mono (below : quarters first ≤ quarters second) :
    first.roundedMantissa ≤ second.roundedMantissa := by
  obtain ⟨mantissa, roundBit, stickyBit⟩ := first
  obtain ⟨mantissa', roundBit', stickyBit'⟩ := second
  cases roundBit <;> cases stickyBit <;> cases roundBit' <;> cases stickyBit' <;>
    simp only [quarters, Bool.toNat_true, Bool.toNat_false, ExtendedMantissa.roundedMantissa,
      ExtendedMantissa.accuracy, Accuracy.roundToNearestEven] at below ⊢ <;>
    omega

/-- A shift divides the mantissa and drops the rest. -/
theorem mantissa_shiftRight (extended : ExtendedMantissa) (places : Nat) :
    (extended >>> places).mantissa = extended.mantissa / 2 ^ places := by
  induction places with
  | zero => exact (Nat.div_one _).symm
  | succ places ih =>
    change (extended >>> places).mantissa / 2 = _
    rw [ih, Nat.div_div_eq_div_mul, Nat.pow_succ]

/-- A number without its last places, rounded to the nearest and from the middle to even. -/
def roundedWithout (places number : Nat) : Nat :=
  (ExtendedMantissa.mk number false false >>> places).roundedMantissa

/-- Of two numbers, the larger one is not rounded to less. -/
theorem roundedWithout_mono {places number larger : Nat} (below : number ≤ larger) :
    roundedWithout places number ≤ roundedWithout places larger := by
  refine roundedMantissa_mono (quarters_shiftRight_mono ?_ places)
  simpa only [quarters, Bool.toNat_false, Nat.mul_zero, Nat.add_zero] using
    Nat.mul_le_mul_left 4 below

/-- A number is rounded down to what is left of it, or one up. -/
theorem roundedWithout_bounds (places number : Nat) :
    number / 2 ^ places ≤ roundedWithout places number ∧
      roundedWithout places number ≤ number / 2 ^ places + 1 := by
  rw [← mantissa_shiftRight ⟨number, false, false⟩ places, roundedWithout]
  obtain ⟨mantissa, roundBit, stickyBit⟩ := ExtendedMantissa.mk number false false >>> places
  cases roundBit <;> cases stickyBit <;>
    simp [ExtendedMantissa.roundedMantissa, ExtendedMantissa.accuracy, Accuracy.roundToNearestEven]
  omega

end Mantissa

/-! ## Rounding a natural number -/

variable {number larger : Nat}

/-- The first 53 binary digits of a number, rounded. They may be one more than 53 digits have. -/
def leadingDigits (number : Nat) : Nat :=
  roundedWithout (number.log2 - 52) (number <<< (52 - number.log2))

/-- Shifted to the left, a number has as many digits more. -/
theorem log2_shiftLeft (positive : number ≠ 0) (places : Nat) :
    (number <<< places).log2 = number.log2 + places := by
  have power := Nat.two_pow_pos places
  rw [Nat.shiftLeft_eq, Nat.log2_eq_iff (Nat.mul_ne_zero positive power.ne'), Nat.pow_add,
    Nat.add_right_comm, Nat.pow_add]
  exact ⟨Nat.mul_le_mul_right _ (Nat.log2_self_le positive),
    Nat.mul_lt_mul_of_pos_right Nat.lt_log2_self power⟩

/-- The leading digits are 53 digits, or one more than any 53 digits. -/
theorem leadingDigits_bounds (positive : number ≠ 0) :
    2 ^ 52 ≤ leadingDigits number ∧ leadingDigits number ≤ 2 ^ 53 := by
  have digits : (number <<< (52 - number.log2)).log2 = 52 + (number.log2 - 52) := by
    rw [log2_shiftLeft positive]
    omega
  have shifted : number <<< (52 - number.log2) ≠ 0 := by
    rw [Nat.shiftLeft_eq]
    exact Nat.mul_ne_zero positive (Nat.two_pow_pos _).ne'
  obtain ⟨low, high⟩ := (Nat.log2_eq_iff shifted).mp digits
  rw [Nat.pow_add] at low
  rw [Nat.add_right_comm, Nat.pow_add] at high
  have atLeast := (Nat.le_div_iff_mul_le (Nat.two_pow_pos (number.log2 - 52))).mpr low
  have below := (Nat.div_lt_iff_lt_mul (Nat.two_pow_pos (number.log2 - 52))).mpr high
  have bounds := roundedWithout_bounds (number.log2 - 52) (number <<< (52 - number.log2))
  unfold leadingDigits
  omega

/-- The height of a positive number: exponents are apart by as many mantissas as there are. -/
def height (number : Nat) : Int :=
  (number.log2 - 52) * 2 ^ 52 + leadingDigits number

/-- Larger numbers are not lower. -/
theorem height_mono (positive : number ≠ 0) (below : number ≤ larger) :
    height number ≤ height larger := by
  have positiveToo : larger ≠ 0 := by omega
  have bounds := leadingDigits_bounds positive
  have boundsToo := leadingDigits_bounds positiveToo
  have lengths : number.log2 ≤ larger.log2 :=
    (Nat.le_log2 positiveToo).mpr ((Nat.log2_self_le positive).trans below)
  unfold height
  rcases Nat.lt_or_eq_of_le lengths with shorter | same
  · omega
  · have digits : leadingDigits number ≤ leadingDigits larger := by
      unfold leadingDigits
      rw [same, Nat.shiftLeft_eq, Nat.shiftLeft_eq]
      exact roundedWithout_mono (Nat.mul_le_mul_right _ below)
    omega

/-- A mantissa of 53 digits and an exponent of a certain height. -/
structure Normal (mantissa : Nat) (exponent height : Int) : Prop where
  atLeast : 2 ^ 52 ≤ mantissa
  below : mantissa < 2 ^ 53
  same : exponent * 2 ^ 52 + mantissa = height

/-- A number that is not too small is stored with 53 digits. -/
theorem targetExponent_eq {mantissa : Nat} {exponent : Int}
    (large : -1022 ≤ mantissa.log2 + exponent) :
    Format.binary64.targetExponent (totalExponent mantissa exponent) =
      mantissa.log2 + exponent - 52 := by
  simp only [Format.targetExponent, totalExponent, Format.mantissaBits, Format.minExponent]
  omega

/-- A mantissa of 53 digits or more is shifted until it has 53. -/
theorem shiftToTargetExponent_eq {mantissa : Nat} {exponent : Int}
    (large : -1022 ≤ mantissa.log2 + exponent) (long : 52 ≤ mantissa.log2) :
    shiftToTargetExponent .binary64 mantissa exponent .exact =
      (ExtendedMantissa.mk mantissa false false >>> (mantissa.log2 - 52),
        mantissa.log2 + exponent - 52) := by
  have places : ((mantissa.log2 : Int) + exponent - 52 - exponent).toNat = mantissa.log2 - 52 := by
    omega
  simp only [shiftToTargetExponent, shiftToExponent, targetExponent_eq large, places,
    ExtendedMantissa.ofMantissaAndAccuracy]
  congr 1
  omega

/-- Shifting once more takes back a carry into the 54th digit. -/
theorem exists_normal_of_rounded {mantissa : Nat} {exponent : Int} (large : -1074 ≤ exponent)
    (atLeast : 2 ^ 52 ≤ mantissa) (atMost : mantissa ≤ 2 ^ 53) :
    ∃ final raised, shiftToTargetExponent .binary64 mantissa exponent .exact =
        (ExtendedMantissa.mk final false false, raised) ∧
      Normal final raised (exponent * 2 ^ 52 + mantissa) := by
  rcases Nat.lt_or_eq_of_le atMost with below | rfl
  · have digits : mantissa.log2 = 52 := (Nat.log2_eq_iff (by omega)).mpr ⟨atLeast, below⟩
    refine ⟨mantissa, exponent, ?_, atLeast, below, rfl⟩
    rw [shiftToTargetExponent_eq (by omega) (by omega), digits]
    refine Prod.ext rfl ?_
    simp only
    omega
  · refine ⟨2 ^ 52, exponent + 1, ?_, Nat.le_refl _, by decide, by omega⟩
    rw [shiftToTargetExponent_eq (by rw [Nat.log2_two_pow]; omega)
      (by rw [Nat.log2_two_pow]; omega), Nat.log2_two_pow]
    refine Prod.ext rfl ?_
    simp only
    omega

/-- Rounding a mantissa of 53 digits or more leaves one of 53. -/
theorem exists_normal_roundWithAccuracy (sign : Sign) {mantissa : Nat} {exponent : Int}
    (large : -1022 ≤ mantissa.log2 + exponent) (long : 52 ≤ mantissa.log2)
    (atLeast : 2 ^ 52 ≤ roundedWithout (mantissa.log2 - 52) mantissa)
    (atMost : roundedWithout (mantissa.log2 - 52) mantissa ≤ 2 ^ 53) :
    ∃ final raised nonzero,
      roundWithAccuracy .binary64 sign mantissa exponent .exact = finite sign final raised nonzero ∧
        Normal final raised ((mantissa.log2 + exponent - 52) * 2 ^ 52 +
          roundedWithout (mantissa.log2 - 52) mantissa) := by
  obtain ⟨final, raised, shifted, normal⟩ := @exists_normal_of_rounded _
    (mantissa.log2 + exponent - 52) (by omega) atLeast atMost
  have nonzero : 0 < final := Nat.lt_of_lt_of_le (by decide) normal.atLeast
  refine ⟨final, raised, nonzero, ?_, normal⟩
  rw [roundedWithout] at shifted
  simp only [roundWithAccuracy, shiftToTargetExponent_eq large long, shifted]
  exact dif_neg nonzero.ne'

/-- A number of fewer digits is first written with 53. -/
theorem ofNat_eq_roundWithAccuracy (positive : number ≠ 0) :
    ofNat .binary64 number = roundWithAccuracy .binary64 .positive
      (number <<< (52 - number.log2)) (0 - (52 - number.log2 : Nat)) .exact := by
  have places : ((0 : Int) - (number.log2 + 0 - 52)).toNat = 52 - number.log2 := by omega
  change UnpackedFloat.normalize .binary64 number 0 .positive = _
  simp only [UnpackedFloat.normalize,
    compare_gt_iff_gt.mpr (Int.natCast_pos.mpr (Nat.pos_of_ne_zero positive)), Int.toNat_natCast,
    UnpackedFloat.round, decreaseExponent, @targetExponent_eq number 0 (by omega), places]

/-- A positive number is rounded to the number of its height. -/
theorem exists_normal_ofNat (positive : number ≠ 0) :
    ∃ mantissa exponent nonzero,
      ofNat .binary64 number = finite .positive mantissa exponent nonzero ∧
        Normal mantissa exponent (height number) := by
  obtain ⟨atLeast, atMost⟩ := leadingDigits_bounds positive
  have digits := log2_shiftLeft positive (52 - number.log2)
  have places : (number <<< (52 - number.log2)).log2 - 52 = number.log2 - 52 := by omega
  unfold leadingDigits at atLeast atMost
  rw [← places] at atLeast atMost
  obtain ⟨mantissa, exponent, nonzero, rounded, normal⟩ := @exists_normal_roundWithAccuracy
    .positive _ (0 - (52 - number.log2 : Nat)) (by omega) (by omega) atLeast atMost
  refine ⟨mantissa, exponent, nonzero, (ofNat_eq_roundWithAccuracy positive).trans rounded,
    normal.atLeast, normal.below, ?_⟩
  rw [normal.same, places, height, leadingDigits, digits]
  congr 2
  omega

/-! ## Packing -/

/-- A number with a mantissa of 53 digits whose exponent is in range is packed without loss. -/
theorem unpack_pack {sign : Sign} {mantissa : Nat} {exponent : Int} (nonzero : 0 < mantissa)
    (atLeast : 2 ^ 52 ≤ mantissa) (below : mantissa < 2 ^ 53) (large : -1074 ≤ exponent)
    (small : exponent ≤ 971) :
    (Float.Model.pack (finite sign mantissa exponent nonzero)).unpack =
      finite sign mantissa exponent nonzero := by
  have digits : mantissa.log2 = 52 := (Nat.log2_eq_iff (by omega)).mpr ⟨atLeast, below⟩
  obtain ⟨biased, rfl⟩ : ∃ biased : Nat, exponent = biased - 1075 :=
    ⟨(exponent + 1075).toNat, by omega⟩
  have packed : UnpackedFloat.pack .binary64 (finite sign mantissa (biased - 1075) nonzero) =
      packComponents .binary64 sign (BitVec.ofNat 11 biased) (BitVec.ofNat 52 mantissa) := by
    have same : ((biased : Int) - 1075 + Format.binary64.exponentBias + (52 : Nat)).toNat =
        biased := by
      simp only [Format.exponentBias]
      omega
    simp only [UnpackedFloat.pack, same, digits]
    rw [if_neg (by omega)]
    exact if_pos rfl
  have apart {bits : BitVec 11} (different : biased ≠ bits.toNat) :
      BitVec.ofNat 11 biased ≠ bits := by
    rintro rfl
    rw [BitVec.toNat_ofNat] at different
    omega
  have infinite : (-1#11).toNat = 2047 := rfl
  change UnpackedFloat.unpack .binary64 (UnpackedFloat.pack .binary64 _) = _
  rw [packed]
  simp only [UnpackedFloat.unpack, unpackMantissa_packComponents, unpackExponent_packComponents,
    unpackSign_packComponents, Sign.ofBitVec_toBitVec]
  rw [if_neg (apart (by omega)), if_neg (apart (by rw [BitVec.toNat_zero]; omega))]
  congr 1
  · rw [BitVec.toNat_append, ← Nat.shiftLeft_add_eq_or_of_lt (BitVec.isLt _), BitVec.toNat_ofNat,
      BitVec.toNat_ofNat]
    omega
  · simp only [Format.exponentBias, BitVec.toNat_ofNat]
    omega

/-! ## Widening -/

/-- The number in parts that an unsigned integer becomes, and the one of opposite sign. -/
theorem exists_normal_toFloat {unsigned : UInt64} (positive : unsigned.toNat ≠ 0) :
    ∃ mantissa exponent nonzero,
      unsigned.toFloat.toModel.unpack = finite .positive mantissa exponent nonzero ∧
        (-unsigned.toFloat).toModel.unpack = finite .negative mantissa exponent nonzero ∧
        Normal mantissa exponent (height unsigned.toNat) := by
  obtain ⟨mantissa, exponent, nonzero, same, normal⟩ := exists_normal_ofNat positive
  have bounds := leadingDigits_bounds positive
  have digits : unsigned.toNat.log2 < 64 := (Nat.log2_lt positive).mpr unsigned.toNat_lt
  obtain ⟨atLeast, below, level⟩ := id normal
  unfold height at level
  have kept (sign : Sign) := @unpack_pack sign mantissa exponent nonzero atLeast below
    (by omega) (by omega)
  have unpacked : unsigned.toFloat.toModel.unpack =
      finite .positive mantissa exponent nonzero := by
    change (Float.Model.pack (ofNat .binary64 unsigned.toNat)).unpack = _
    rw [same]
    exact kept .positive
  refine ⟨mantissa, exponent, nonzero, unpacked, ?_, normal⟩
  change (Float.Model.pack unsigned.toFloat.toModel.unpack.neg).unpack = _
  rw [unpacked]
  exact kept .negative

/-- The higher of two numbers has the greater exponent, or the greater mantissa. -/
theorem Normal.parts_le {mantissa mantissa' : Nat} {exponent exponent' level level' : Int}
    (normal : Normal mantissa exponent level) (normalToo : Normal mantissa' exponent' level')
    (below : level ≤ level') :
    exponent < exponent' ∨ exponent = exponent' ∧ mantissa ≤ mantissa' := by
  have := normal.atLeast
  have := normal.below
  have := normal.same
  have := normalToo.atLeast
  have := normalToo.below
  have := normalToo.same
  omega

/-- An integer that is not negative is the same unsigned number. -/
theorem toNat_toUInt64_of_nonneg {number : Int64} (counts : 0 ≤ number.toInt) :
    (number.toUInt64.toNat : Int) = number.toInt := by
  have unsigned : number.toUInt64.toNat = number.toBitVec.toNat := rfl
  have signed : number.toInt = number.toBitVec.toInt := rfl
  rw [BitVec.toInt_eq_toNat_cond] at signed
  split at signed <;> omega

/-- The opposite of a negative integer is its size as an unsigned number, also for the least
    integer. -/
theorem toNat_toUInt64_neg {number : Int64} (negative : number.toInt < 0) :
    ((-number).toUInt64.toNat : Int) = -number.toInt := by
  have unsigned : (-number).toUInt64.toNat = (2 ^ 64 - number.toBitVec.toNat) % 2 ^ 64 :=
    BitVec.toNat_neg number.toBitVec
  have signed : number.toInt = number.toBitVec.toInt := rfl
  rw [BitVec.toInt_eq_toNat_cond] at signed
  split at signed <;> omega

/-- How an integer is widened: zero to zero, any other to a number of its sign and height. -/
inductive Widened (number : Int64) : UnpackedFloat → Prop
  | negative {mantissa : Nat} {exponent : Int} (nonzero : 0 < mantissa) (below : number.toInt < 0)
      (normal : Normal mantissa exponent (height number.toInt.natAbs)) :
      Widened number (finite .negative mantissa exponent nonzero)
  | zero (same : number.toInt = 0) : Widened number (zero .positive)
  | positive {mantissa : Nat} {exponent : Int} (nonzero : 0 < mantissa) (above : 0 < number.toInt)
      (normal : Normal mantissa exponent (height number.toInt.natAbs)) :
      Widened number (finite .positive mantissa exponent nonzero)

/-- Every integer is widened to zero or to a number of its sign and height. -/
theorem widened (number : Int64) : Widened number (Value.widen number).toModel.unpack := by
  have sign : number < 0 ↔ number.toInt < 0 := Int64.lt_iff_toInt_lt
  unfold Value.widen
  split
  · rename_i negative
    have below := sign.mp negative
    have size := toNat_toUInt64_neg below
    obtain ⟨mantissa, exponent, nonzero, -, unpacked, normal⟩ :=
      @exists_normal_toFloat (-number).toUInt64 (by omega)
    have same : (-number).toUInt64.toNat = number.toInt.natAbs := by omega
    rw [unpacked]
    exact .negative nonzero below (same ▸ normal)
  · rename_i counts
    have above : 0 ≤ number.toInt := Int.not_lt.mp (sign.not.mp counts)
    have size := toNat_toUInt64_of_nonneg above
    rcases Nat.eq_zero_or_pos number.toUInt64.toNat with none | some
    · rw [UInt64.toNat_inj.mp (none.trans UInt64.toNat_zero.symm)]
      exact .zero (by omega)
    · obtain ⟨mantissa, exponent, nonzero, unpacked, -, normal⟩ :=
        exists_normal_toFloat some.ne'
      have same : number.toUInt64.toNat = number.toInt.natAbs := by omega
      rw [unpacked]
      exact .positive nonzero (by omega) (same ▸ normal)

namespace Value

/-- An integer is never widened to a NaN. -/
theorem isNaN_widen (number : Int64) : (widen number).isNaN = false := by
  refine Bool.eq_false_iff.mpr fun unknown => ?_
  have parts := widened number
  rw [float_isNaN_iff.mp unknown] at parts
  cases parts

/-- Widening keeps the order of integers. -/
theorem place_widen_mono {left right : Int64} (below : left ≤ right) :
    place (widen left) ≤ place (widen right) := by
  have order : left.toInt ≤ right.toInt := Int64.le_iff_toInt_le.mp below
  have first := widened left
  have second := widened right
  unfold place
  generalize (widen left).toModel.unpack = parts at first
  generalize (widen right).toModel.unpack = parts' at second
  have apart {kind kind' : Int} (less : kind < kind') (rest rest' : Int ×ₗ Int) :
      (toLex (kind, rest) : Place) ≤ toLex (kind', rest') :=
    (Prod.Lex.toLex_lt_toLex.mpr (.inl less)).le
  cases first with
  | negative nonzero sign normal =>
    cases second with
    | negative nonzeroToo signToo normalToo =>
      have parts := normalToo.parts_le normal (height_mono (by omega) (by omega))
      simp only [placeOfParts, Prod.Lex.toLex_le_toLex, true_and]
      omega
    | zero => exact apart (by decide) _ _
    | positive => exact apart (by decide) _ _
  | zero same =>
    cases second with
    | negative nonzero sign normal => omega
    | zero sameToo => exact le_rfl
    | positive => exact apart (by decide) _ _
  | positive nonzero sign normal =>
    cases second with
    | positive nonzeroToo signToo normalToo =>
      have parts := normal.parts_le normalToo (height_mono (by omega) (by omega))
      simp only [placeOfParts, Prod.Lex.toLex_le_toLex, true_and]
      omega
    | _ => omega

end Value

end StagedQuery
