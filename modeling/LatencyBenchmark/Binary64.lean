import Mathlib.Algebra.Order.Round
import Mathlib.Data.Int.Log
import Mathlib.Data.Rat.Floor
import Mathlib.Tactic.FieldSimp
import Mathlib.Tactic.Linarith
import Mathlib.Tactic.NormNum
import Mathlib.Tactic.Positivity
import Mathlib.Tactic.Ring

/-!
# Rounding to double precision

A `double` operation returns the exact rational result rounded to 53
significant bits, ties to even.  Only values in the normal range occur in
this development, so the exponent is unbounded here.

The bound every rounded computation needs is the relative error of at most
`2⁻⁵³`.
-/

namespace LatencyBenchmark

/-- The nearest integer, ties to even. -/
def roundHalfEven (value : ℚ) : ℤ :=
  let below := ⌊value⌋
  let fraction := value - below
  if fraction < 1 / 2 then below
  else if 1 / 2 < fraction then below + 1
  else if below % 2 = 0 then below
  else below + 1

/-- The spacing of doubles in the binade of a nonzero value. -/
def binary64Spacing (value : ℚ) : ℚ :=
  2 ^ (Int.log 2 |value| - 52)

/-- The double nearest to a rational, ties to even. -/
def roundBinary64 (value : ℚ) : ℚ :=
  if value = 0 then 0
  else roundHalfEven (value / binary64Spacing value) * binary64Spacing value

/-- The conversion of a double to an integer type: truncation toward zero. -/
def truncateDouble (value : ℚ) : ℤ :=
  if 0 ≤ value then ⌊value⌋ else ⌈value⌉

/-- Relative error of at most half a unit in the last of 53 bits. -/
def HasDoubleError (rounding : ℚ → ℚ) : Prop :=
  ∀ value, |rounding value - value| ≤ 2⁻¹ ^ 53 * |value|

theorem abs_roundHalfEven_sub_le (value : ℚ) :
    |(roundHalfEven value : ℚ) - value| ≤ 1 / 2 := by
  have floorLe := Int.floor_le value
  have ltFloor := Int.lt_floor_add_one value
  unfold roundHalfEven
  dsimp only
  split_ifs with low high even <;> push_cast <;> rw [abs_le] <;>
    constructor <;> linarith

theorem binary64Spacing_pos (value : ℚ) : 0 < binary64Spacing value :=
  zpow_pos (by norm_num) _

theorem binary64Spacing_le {value : ℚ} (nonzero : value ≠ 0) :
    binary64Spacing value ≤ 2⁻¹ ^ 52 * |value| := by
  have binade : (2 : ℚ) ^ Int.log 2 |value| ≤ |value| :=
    Int.zpow_log_le_self (by norm_num) (abs_pos.mpr nonzero)
  have split : binary64Spacing value =
      2⁻¹ ^ 52 * (2 : ℚ) ^ Int.log 2 |value| := by
    unfold binary64Spacing
    rw [zpow_sub₀ (by norm_num)]
    norm_num
    ring
  rw [split]
  exact mul_le_mul_of_nonneg_left binade (by positivity)

/-- Rounding to double precision has the relative error of a double. -/
theorem roundBinary64_hasDoubleError : HasDoubleError roundBinary64 := by
  intro value
  by_cases zero : value = 0
  · simp [roundBinary64, zero]
  have spacingPos := binary64Spacing_pos value
  have rescaled : roundBinary64 value - value =
      ((roundHalfEven (value / binary64Spacing value) : ℚ) -
        value / binary64Spacing value) * binary64Spacing value := by
    rw [roundBinary64, if_neg zero, sub_mul,
      div_mul_cancel₀ value spacingPos.ne']
  rw [rescaled, abs_mul, abs_of_pos spacingPos]
  calc
    |(roundHalfEven (value / binary64Spacing value) : ℚ) -
          value / binary64Spacing value| * binary64Spacing value ≤
        1 / 2 * (2⁻¹ ^ 52 * |value|) :=
      mul_le_mul (abs_roundHalfEven_sub_le _) (binary64Spacing_le zero)
        spacingPos.le (by norm_num)
    _ = 2⁻¹ ^ 53 * |value| := by ring

/-- Larger nonnegative values are not rounded to smaller ones. -/
def RoundsMonotonically (rounding : ℚ → ℚ) : Prop :=
  ∀ low high, 0 ≤ low → low ≤ high → rounding low ≤ rounding high

theorem roundHalfEven_mono {low high : ℚ} (le : low ≤ high) :
    roundHalfEven low ≤ roundHalfEven high := by
  have floorLe := Int.floor_le_floor le
  rcases lt_or_eq_of_le floorLe with floorLt | sameFloor
  · have lowLe : roundHalfEven low ≤ ⌊low⌋ + 1 := by
      unfold roundHalfEven
      dsimp only
      split_ifs <;> omega
    have highGe : ⌊high⌋ ≤ roundHalfEven high := by
      unfold roundHalfEven
      dsimp only
      split_ifs <;> omega
    omega
  · unfold roundHalfEven
    dsimp only
    rw [← sameFloor]
    split_ifs <;> first | omega | linarith

theorem roundHalfEven_intCast (value : ℤ) :
    roundHalfEven (value : ℚ) = value := by
  simp [roundHalfEven]

/-- A rounded positive value stays in its binade, or becomes its end. -/
theorem roundBinary64_binade {value : ℚ} (positive : 0 < value) :
    (2 : ℚ) ^ Int.log 2 value ≤ roundBinary64 value ∧
      roundBinary64 value ≤ (2 : ℚ) ^ (Int.log 2 value + 1) := by
  have spacingPos := binary64Spacing_pos value
  have spacing : binary64Spacing value = 2 ^ (Int.log 2 value - 52) := by
    rw [binary64Spacing, abs_of_pos positive]
  have low : (2 : ℚ) ^ Int.log 2 value ≤ value :=
    Int.zpow_log_le_self (by norm_num) positive
  have high : value < (2 : ℚ) ^ (Int.log 2 value + 1) :=
    Int.lt_zpow_succ_log_self (by norm_num) value
  have start : (2 : ℚ) ^ Int.log 2 value =
      ((2 ^ 52 : ℤ) : ℚ) * binary64Spacing value := by
    rw [spacing, zpow_sub₀ (by norm_num)]
    norm_num
    ring
  have finish : (2 : ℚ) ^ (Int.log 2 value + 1) =
      ((2 ^ 53 : ℤ) : ℚ) * binary64Spacing value := by
    rw [zpow_add₀ (by norm_num), start]
    norm_num
    ring
  rw [roundBinary64, if_neg positive.ne', start, finish]
  constructor
  · apply mul_le_mul_of_nonneg_right _ spacingPos.le
    rw [← roundHalfEven_intCast (2 ^ 52)]
    exact_mod_cast roundHalfEven_mono
      ((le_div_iff₀ spacingPos).mpr (start ▸ low))
  · apply mul_le_mul_of_nonneg_right _ spacingPos.le
    rw [← roundHalfEven_intCast (2 ^ 53)]
    exact_mod_cast roundHalfEven_mono
      ((div_le_iff₀ spacingPos).mpr (finish ▸ high.le))

/-- Integers of at most 53 bits are doubles. -/
theorem roundBinary64_intCast {value : ℤ} (small : |value| < 2 ^ 53) :
    roundBinary64 (value : ℚ) = value := by
  rcases eq_or_ne value 0 with rfl | nonzero
  · rw [Int.cast_zero, roundBinary64, if_pos rfl]
  have nonzeroRat : (value : ℚ) ≠ 0 := by exact_mod_cast nonzero
  have absPos : (0 : ℚ) < |(value : ℚ)| := abs_pos.mpr nonzeroRat
  have absLt : |(value : ℚ)| < 2 ^ (53 : ℤ) := by exact_mod_cast small
  have logLt : Int.log 2 |(value : ℚ)| < 53 :=
    (Int.lt_zpow_iff_log_lt (by norm_num) absPos).mp absLt
  obtain ⟨fine, fineEq⟩ :=
    Int.le.dest (by omega : Int.log 2 |(value : ℚ)| ≤ 52)
  have spacing : binary64Spacing (value : ℚ) = (2 ^ fine)⁻¹ := by
    rw [binary64Spacing,
      (by omega : Int.log 2 |(value : ℚ)| - 52 = -(fine : ℤ)), zpow_neg,
      zpow_natCast]
  -- The spacing is a unit fraction, so the value is a multiple of it.
  have multiple : (value : ℚ) / binary64Spacing (value : ℚ) =
      ((value * 2 ^ fine : ℤ) : ℚ) := by
    rw [spacing, div_inv_eq_mul]
    push_cast
    rfl
  rw [roundBinary64, if_neg nonzeroRat, multiple, roundHalfEven_intCast,
    spacing]
  push_cast
  rw [mul_inv_cancel_right₀ (by positivity)]

/-- Rounding to double precision keeps the order. -/
theorem roundBinary64_roundsMonotonically :
    RoundsMonotonically roundBinary64 := by
  intro low high nonneg le
  rcases eq_or_lt_of_le nonneg with rfl | lowPos
  · rcases eq_or_lt_of_le le with rfl | highPos
    · exact le_refl _
    · rw [roundBinary64, if_pos rfl]
      exact (zpow_pos (by norm_num) _).le.trans
        (roundBinary64_binade highPos).1
  have highPos := lowPos.trans_le le
  rcases lt_or_eq_of_le (Int.log_mono_right (b := 2) lowPos le) with
    laterBinade | sameBinade
  · calc
      roundBinary64 low ≤ (2 : ℚ) ^ (Int.log 2 low + 1) :=
        (roundBinary64_binade lowPos).2
      _ ≤ (2 : ℚ) ^ Int.log 2 high :=
        zpow_le_zpow_right₀ (by norm_num) laterBinade
      _ ≤ roundBinary64 high := (roundBinary64_binade highPos).1
  · have spacingPos := binary64Spacing_pos high
    have sameSpacing : binary64Spacing low = binary64Spacing high := by
      rw [binary64Spacing, binary64Spacing, abs_of_pos lowPos,
        abs_of_pos highPos, sameBinade]
    rw [roundBinary64, if_neg lowPos.ne', roundBinary64,
      if_neg highPos.ne', sameSpacing]
    apply mul_le_mul_of_nonneg_right _ spacingPos.le
    exact_mod_cast roundHalfEven_mono
      (div_le_div_of_nonneg_right le spacingPos.le)

/-- Zero is rounded to itself. -/
theorem HasDoubleError.rounding_zero {rounding : ℚ → ℚ}
    (doubleError : HasDoubleError rounding) : rounding 0 = 0 := by
  have error := doubleError 0
  rw [sub_zero, abs_zero, mul_zero] at error
  exact abs_nonpos_iff.mp error

/-- A rounded negative value stays near the exact one. -/
theorem HasDoubleError.rounding_nonpos_le {rounding : ℚ → ℚ}
    (doubleError : HasDoubleError rounding) {value : ℚ} (nonpos : value ≤ 0) :
    rounding value ≤ (1 - 2⁻¹ ^ 53) * value := by
  have error := doubleError value
  rw [abs_of_nonpos nonpos, abs_le] at error
  linarith only [error.2]

/-- A rounded nonnegative value is nonnegative and exceeds the exact one by
at most a factor `1 + 2⁻⁵³`. -/
theorem HasDoubleError.bounds {rounding : ℚ → ℚ}
    (doubleError : HasDoubleError rounding) {value : ℚ}
    (nonneg : 0 ≤ value) :
    0 ≤ rounding value ∧ rounding value ≤ (1 + 2⁻¹ ^ 53) * value := by
  have error := doubleError value
  rw [abs_of_nonneg nonneg, abs_le] at error
  have small : (2⁻¹ : ℚ) ^ 53 ≤ 1 := by norm_num
  have scaled : (2⁻¹ : ℚ) ^ 53 * value ≤ 1 * value :=
    mul_le_mul_of_nonneg_right small nonneg
  constructor <;> nlinarith only [error.1, error.2, scaled]

/-- A share of at most 99/100 of a count, with one rounding for the share,
one for the count and one for the product, is truncated to a position below
the count. -/
theorem HasDoubleError.truncate_share_bounds {rounding : ℚ → ℚ}
    (doubleError : HasDoubleError rounding) {share converted : ℚ} {cnt : ℤ}
    (shareNonneg : 0 ≤ share) (shareLe : share ≤ 99 / 100) (positive : 1 ≤ cnt)
    (convertedError : |converted - cnt| ≤ 2⁻¹ ^ 53 * |(cnt : ℚ)|) :
    0 ≤ truncateDouble (rounding (rounding share * converted)) ∧
      truncateDouble (rounding (rounding share * converted)) < cnt := by
  have cntPos : (0 : ℚ) < cnt := by exact_mod_cast positive
  obtain ⟨quotientNonneg, quotientLe⟩ := doubleError.bounds shareNonneg
  have convertedBounds : 0 ≤ converted ∧
      converted ≤ (1 + 2⁻¹ ^ 53) * cnt := by
    rw [abs_of_pos cntPos, abs_le] at convertedError
    constructor <;>
      linarith only [convertedError.1, convertedError.2, cntPos]
  have productNonneg : 0 ≤ rounding share * converted :=
    mul_nonneg quotientNonneg convertedBounds.1
  obtain ⟨resultNonneg, resultLe⟩ := doubleError.bounds productNonneg
  have quotientLt : rounding share ≤ (1 + 2⁻¹ ^ 53) * (99 / 100) :=
    quotientLe.trans (mul_le_mul_of_nonneg_left shareLe (by norm_num))
  -- Three relative errors cannot lift 99/100 up to one.
  have resultLt : rounding (rounding share * converted) < cnt := by
    calc
      rounding (rounding share * converted) ≤
          (1 + 2⁻¹ ^ 53) * (rounding share * converted) := resultLe
      _ ≤ (1 + 2⁻¹ ^ 53) * ((1 + 2⁻¹ ^ 53) * (99 / 100) *
            ((1 + 2⁻¹ ^ 53) * cnt)) := by
        apply mul_le_mul_of_nonneg_left _ (by norm_num)
        exact mul_le_mul quotientLt convertedBounds.2 convertedBounds.1
          (by norm_num)
      _ = ((1 + 2⁻¹ ^ 53) ^ 3 * (99 / 100)) * cnt := by ring
      _ < 1 * cnt := by
        apply mul_lt_mul_of_pos_right _ cntPos
        norm_num
      _ = cnt := one_mul _
  unfold truncateDouble
  rw [if_pos resultNonneg]
  exact ⟨Int.floor_nonneg.mpr resultNonneg, Int.floor_lt.mpr resultLt⟩

theorem truncateDouble_mono {low high : ℚ} (le : low ≤ high) :
    truncateDouble low ≤ truncateDouble high := by
  unfold truncateDouble
  split_ifs with lowNonneg highNonneg highNonneg
  · exact Int.floor_le_floor le
  · exact absurd (lowNonneg.trans le) highNonneg
  · calc
      ⌈low⌉ ≤ 0 := Int.ceil_le.mpr (by exact_mod_cast (not_le.mp lowNonneg).le)
      _ ≤ ⌊high⌋ := Int.floor_nonneg.mpr highNonneg
  · exact Int.ceil_le_ceil le

theorem truncateDouble_pos_iff {value : ℚ} :
    0 < truncateDouble value ↔ 1 ≤ value := by
  unfold truncateDouble
  split_ifs with nonneg
  · rw [Int.floor_pos]
  · have ceilNonpos : ⌈value⌉ ≤ 0 :=
      Int.ceil_le.mpr (by exact_mod_cast (not_le.mp nonneg).le)
    constructor
    · intro positive
      omega
    · intro above
      linarith

theorem truncateDouble_neg_iff {value : ℚ} :
    truncateDouble value < 0 ↔ value ≤ -1 := by
  unfold truncateDouble
  split_ifs with nonneg
  · have floorNonneg := Int.floor_nonneg.mpr nonneg
    constructor
    · intro negative
      omega
    · intro below
      linarith
  · rw [Int.ceil_lt_iff]
    push_cast
    rw [zero_sub]

/-- A larger share of a count is not truncated to a smaller position. -/
theorem RoundsMonotonically.truncate_share_le {rounding : ℚ → ℚ}
    (monotone : RoundsMonotonically rounding)
    (doubleError : HasDoubleError rounding) {low high converted : ℚ}
    (lowNonneg : 0 ≤ low) (le : low ≤ high)
    (convertedNonneg : 0 ≤ converted) :
    truncateDouble (rounding (rounding low * converted)) ≤
      truncateDouble (rounding (rounding high * converted)) := by
  have quotientNonneg := (doubleError.bounds lowNonneg).1
  have quotientLe := monotone low high lowNonneg le
  exact truncateDouble_mono (monotone _ _
    (mul_nonneg quotientNonneg convertedNonneg)
      (mul_le_mul_of_nonneg_right quotientLe convertedNonneg))

/-- A quantile below 100 is a share of at most 99/100. -/
theorem quantile_share_bounds {i : ℤ} (nonneg : 0 ≤ i) (below : i < 100) :
    (0 : ℚ) ≤ i / 100 ∧ (i : ℚ) / 100 ≤ 99 / 100 := by
  have low : (0 : ℚ) ≤ i := by exact_mod_cast nonneg
  have high : (i : ℚ) ≤ 99 := by exact_mod_cast (by omega : i ≤ 99)
  constructor <;> linarith

/-- A share of a count below `2 ^ 31`, with one rounding for the share and
one for the product, is off by less than a hundredth. -/
theorem HasDoubleError.abs_rounding_share_sub_lt {rounding : ℚ → ℚ}
    (doubleError : HasDoubleError rounding) {share cnt : ℚ}
    (shareNonneg : 0 ≤ share) (shareLe : share ≤ 1) (cntNonneg : 0 ≤ cnt)
    (cntLt : cnt < 2 ^ 31) :
    |rounding (rounding share * cnt) - share * cnt| < 1 / 100 := by
  obtain ⟨roundedNonneg, roundedLe⟩ := doubleError.bounds shareNonneg
  have roundedShareLe : rounding share ≤ 2 := by
    calc
      rounding share ≤ (1 + 2⁻¹ ^ 53) * share := roundedLe
      _ ≤ (1 + 2⁻¹ ^ 53) * 1 :=
        mul_le_mul_of_nonneg_left shareLe (by norm_num)
      _ ≤ 2 := by norm_num
  have firstError : |rounding share * cnt - share * cnt| ≤
      2⁻¹ ^ 53 * 2 ^ 31 := by
    rw [← sub_mul, abs_mul, abs_of_nonneg cntNonneg]
    calc
      |rounding share - share| * cnt ≤ 2⁻¹ ^ 53 * |share| * cnt :=
        mul_le_mul_of_nonneg_right (doubleError share) cntNonneg
      _ ≤ 2⁻¹ ^ 53 * 1 * 2 ^ 31 := by
        rw [abs_of_nonneg shareNonneg]
        gcongr
      _ = 2⁻¹ ^ 53 * 2 ^ 31 := by rw [mul_one]
  have secondError : |rounding (rounding share * cnt) -
      rounding share * cnt| ≤ 2⁻¹ ^ 53 * (2 * 2 ^ 31) := by
    calc
      |rounding (rounding share * cnt) - rounding share * cnt| ≤
          2⁻¹ ^ 53 * |rounding share * cnt| := doubleError _
      _ ≤ 2⁻¹ ^ 53 * (2 * 2 ^ 31) := by
        rw [abs_of_nonneg (mul_nonneg roundedNonneg cntNonneg)]
        gcongr
  calc
    |rounding (rounding share * cnt) - share * cnt| ≤
        |rounding (rounding share * cnt) - rounding share * cnt| +
          |rounding share * cnt - share * cnt| := abs_sub_le _ _ _
    _ ≤ 2⁻¹ ^ 53 * (2 * 2 ^ 31) + 2⁻¹ ^ 53 * 2 ^ 31 :=
      add_le_add secondError firstError
    _ < 1 / 100 := by norm_num

section NearFraction

variable {value : ℚ} {numerator denominator : ℤ}

/-- A value closer than a unit fraction to a fraction lies strictly between
the two neighbouring fractions. -/
theorem near_fraction_bounds (positive : 0 < denominator)
    (near : |value - numerator / denominator| < 1 / denominator) :
    (numerator : ℚ) - 1 < value * denominator ∧
      value * denominator < (numerator : ℚ) + 1 := by
  have positiveRat : (0 : ℚ) < denominator := by exact_mod_cast positive
  have cleared : value * denominator - numerator =
      (value - numerator / denominator) * denominator := by
    rw [sub_mul, div_mul_cancel₀ _ positiveRat.ne']
  have scaled : |value * denominator - numerator| < 1 := by
    rw [cleared, abs_mul, abs_of_pos positiveRat]
    exact (lt_div_iff₀ positiveRat).mp near
  obtain ⟨low, high⟩ := abs_lt.mp scaled
  constructor <;> linarith only [low, high]

theorem floor_eq_of_scaled_bounds {below : ℤ} (positive : 0 < denominator)
    (low : (below : ℚ) * denominator ≤ value * denominator)
    (high : value * denominator < ((below : ℚ) + 1) * denominator) :
    ⌊value⌋ = below := by
  have positiveRat : (0 : ℚ) < denominator := by exact_mod_cast positive
  exact Int.floor_eq_iff.mpr ⟨le_of_mul_le_mul_right low positiveRat,
    lt_of_mul_lt_mul_right high positiveRat.le⟩

/-- Such a value has the integer part of the fraction, unless the fraction is
an integer. -/
theorem floor_eq_of_near_fraction (positive : 0 < denominator)
    (near : |value - numerator / denominator| < 1 / denominator)
    (notDivides : ¬ denominator ∣ numerator) :
    ⌊value⌋ = numerator / denominator := by
  obtain ⟨low, high⟩ := near_fraction_bounds positive near
  have split := Int.ediv_mul_add_emod numerator denominator
  have remainderNonneg := Int.emod_nonneg numerator positive.ne'
  have remainderLt := Int.emod_lt_of_pos numerator positive
  have remainderNonzero : numerator % denominator ≠ 0 :=
    mt Int.dvd_of_emod_eq_zero notDivides
  have startLe : numerator / denominator * denominator ≤ numerator - 1 := by
    omega
  have finishLe : numerator + 1 ≤
      (numerator / denominator + 1) * denominator := by
    rw [add_mul, one_mul]
    omega
  apply floor_eq_of_scaled_bounds positive
  · have : ((numerator / denominator : ℤ) : ℚ) * denominator ≤
        numerator - 1 := by exact_mod_cast startLe
    linarith only [this, low]
  · have : (numerator : ℚ) + 1 ≤
        (((numerator / denominator : ℤ) : ℚ) + 1) * denominator := by
      exact_mod_cast finishLe
    linarith only [this, high]

/-- Near an integer the integer part may be one less. -/
theorem floor_eq_or_of_near_fraction (positive : 0 < denominator)
    (near : |value - numerator / denominator| < 1 / denominator)
    (divides : denominator ∣ numerator) :
    ⌊value⌋ = numerator / denominator ∨
      ⌊value⌋ = numerator / denominator - 1 := by
  obtain ⟨low, high⟩ := near_fraction_bounds positive near
  obtain ⟨whole, rfl⟩ := divides
  rw [Int.mul_ediv_cancel_left whole positive.ne']
  have unit : (1 : ℚ) ≤ denominator := by exact_mod_cast positive
  push_cast at low high
  rcases le_or_gt ((whole : ℚ) * denominator) (value * denominator) with
    reached | missed
  · left
    apply floor_eq_of_scaled_bounds positive reached
    linarith only [high, unit]
  · right
    apply floor_eq_of_scaled_bounds positive
    · push_cast
      linarith only [low, unit]
    · push_cast
      linarith only [missed]

end NearFraction

end LatencyBenchmark
