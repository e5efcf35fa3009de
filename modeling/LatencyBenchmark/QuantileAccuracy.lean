import LatencyBenchmark.LatencyReport
import LatencyBenchmark.SortedRows

/-!
# Accuracy of the sampled positions

The report writers compute the position of a quantile in double arithmetic.
For every count an `int` can hold the two roundings stay within a hundredth of
the exact position, which is a multiple of a hundredth itself, so truncation
gives its integer part.  Only where the exact position is an integer may the
result be one less.
-/

namespace LatencyBenchmark

/-- What the positions of the quantiles below 100 are among `cnt` samples:
inside them, ascending, and the integer part of `i * cnt / 100`, or one less
where that is an integer. -/
structure SamplesQuantiles (cnt : Int) (position : Int → Int) : Prop where
  inside : ∀ i : Int, 0 ≤ i → i < 100 →
    0 ≤ position i ∧ position i < cnt
  ascending : ∀ low high : Int, 0 ≤ low → low ≤ high → high < 100 →
    position low ≤ position high
  floor : ∀ i : Int, 0 ≤ i → i < 100 → ¬ 100 ∣ i * cnt →
    position i = ⌊((i * cnt : Int) : ℚ) / 100⌋
  multiple : ∀ i : Int, 0 ≤ i → i < 100 → 100 ∣ i * cnt →
    position i = i * cnt / 100 ∨ position i = i * cnt / 100 - 1

section Share

variable {rounding : ℚ → ℚ} {i cnt : Int}

/-- The rounded position is within a hundredth of the exact one. -/
theorem HasDoubleError.near_position (doubleError : HasDoubleError rounding)
    (nonneg : 0 ≤ i) (below : i < 100) (positive : 1 ≤ cnt)
    (isInt : cnt < 2 ^ 31) :
    |rounding (rounding (i / 100) * cnt) -
        ((i * cnt : Int) : ℚ) / (100 : Int)| < 1 / (100 : Int) := by
  obtain ⟨shareNonneg, shareLe⟩ := quantile_share_bounds nonneg below
  have shareLeOne : (i : ℚ) / 100 ≤ 1 := shareLe.trans (by norm_num)
  have cntNonneg : (0 : ℚ) ≤ cnt := by
    exact_mod_cast (by omega : (0 : Int) ≤ cnt)
  have cntLt : (cnt : ℚ) < 2 ^ 31 := by exact_mod_cast isInt
  have near := doubleError.abs_rounding_share_sub_lt shareNonneg shareLeOne
    cntNonneg cntLt
  have exactPosition : ((i * cnt : Int) : ℚ) / (100 : Int) =
      i / 100 * cnt := by
    push_cast
    ring
  rw [exactPosition, Int.cast_ofNat]
  exact near

/-- Truncating the rounded position takes its integer part. -/
theorem HasDoubleError.truncate_position
    (doubleError : HasDoubleError rounding) (nonneg : 0 ≤ i) (below : i < 100)
    (positive : 1 ≤ cnt) :
    truncateDouble (rounding (rounding (i / 100) * cnt)) =
      ⌊rounding (rounding (i / 100) * cnt)⌋ := by
  have shareNonneg := (quantile_share_bounds nonneg below).1
  have cntNonneg : (0 : ℚ) ≤ cnt := by
    exact_mod_cast (by omega : (0 : Int) ≤ cnt)
  have roundedNonneg := (doubleError.bounds shareNonneg).1
  exact if_pos (doubleError.bounds (mul_nonneg roundedNonneg cntNonneg)).1

end Share

section Quantiles

variable {rounding : ℚ → ℚ} {cnt : Int}

open LatencyBenchmarkHandle in
/-- The positions of the Java writer. -/
theorem quantilePosition_samplesQuantiles
    (doubleError : HasDoubleError rounding)
    (monotone : RoundsMonotonically rounding) (positive : 1 ≤ cnt)
    (isInt : cnt < 2 ^ 31) :
    SamplesQuantiles cnt fun i => quantilePosition rounding i cnt where
  inside := by
    intro i nonneg below
    exact quantilePosition_bounds doubleError nonneg below positive
  ascending := by
    intro low high nonneg le _
    exact quantilePosition_mono doubleError monotone nonneg le (by omega)
  floor := by
    intro i nonneg below notDivides
    have near := doubleError.near_position nonneg below positive isInt
    rw [quantilePosition,
      doubleError.truncate_position nonneg below positive,
      floor_eq_of_near_fraction (by norm_num) near notDivides]
    exact (Rat.floor_intCast_div_natCast (i * cnt) 100).symm
  multiple := by
    intro i nonneg below divides
    have near := doubleError.near_position nonneg below positive isInt
    rw [quantilePosition,
      doubleError.truncate_position nonneg below positive]
    exact floor_eq_or_of_near_fraction (by norm_num) near divides

/-- An exact position that is an integer can be missed: 29 percent of 100
samples is sampled at position 28. -/
example :
    LatencyBenchmarkHandle.quantilePosition roundBinary64 29 100 = 28 := by
  decide +kernel

open WsReport in
/-- The positions of the Go and the C++ writers, with a count converted
exactly. -/
theorem samplePosition_samplesQuantiles {arithmetic : DoubleArithmetic}
    (doubleError : HasDoubleError arithmetic.rounding)
    (monotone : RoundsMonotonically arithmetic.rounding) (positive : 1 ≤ cnt)
    (isInt : cnt < 2 ^ 31) (converted : arithmetic.ofInt cnt = cnt) :
    SamplesQuantiles cnt fun i => samplePosition arithmetic i cnt := by
  have same : (fun i => samplePosition arithmetic i cnt) = fun i =>
      LatencyBenchmarkHandle.quantilePosition arithmetic.rounding i cnt := by
    funext i
    rw [samplePosition, converted]
    rfl
  rw [same]
  exact quantilePosition_samplesQuantiles doubleError monotone positive isInt

open WsReport in
/-- Double precision converts every `int` exactly, so the reports sample
their quantiles. -/
theorem binary64_samplesQuantiles (positive : 1 ≤ cnt)
    (isInt : cnt < 2 ^ 31) :
    SamplesQuantiles cnt fun i => samplePosition binary64 i cnt := by
  have small : |cnt| < 2 ^ 53 := by
    rw [abs_lt]
    omega
  exact samplePosition_samplesQuantiles
    roundBinary64_hasDoubleError roundBinary64_roundsMonotonically positive
    isInt (roundBinary64_intCast small)

open LatencyBenchmarkHandle WsReport in
/-- For every rounding with the error of a double that keeps the order, and
every count that is a positive `int`, all report writers sample the
quantiles. -/
theorem reportWriters_sampleQuantiles
    (doubleError : HasDoubleError rounding)
    (monotone : RoundsMonotonically rounding) (positive : 1 ≤ cnt)
    (isInt : cnt < 2 ^ 31) :
    (SamplesQuantiles cnt fun i => quantilePosition rounding i cnt) ∧
      SamplesQuantiles cnt
        fun i => samplePosition (exactCounts rounding) i cnt :=
  ⟨quantilePosition_samplesQuantiles doubleError monotone positive isInt,
    samplePosition_samplesQuantiles doubleError
      monotone positive isInt (exactCounts_ofInt rounding cnt)⟩

open LatencyBenchmarkHandle WsReport in
theorem reportWriters_sampleQuantiles_binary64 :
    (SamplesQuantiles 100 fun i => quantilePosition roundBinary64 i 100) ∧
      SamplesQuantiles 100
        fun i => samplePosition (exactCounts roundBinary64) i 100 :=
  reportWriters_sampleQuantiles roundBinary64_hasDoubleError
    roundBinary64_roundsMonotonically (by decide) (by decide)

end Quantiles

end LatencyBenchmark
