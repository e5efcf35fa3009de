import Mathlib.Data.Int.Basic
import Mathlib.Tactic.NormNum

/-!
# Fixed-width integers

Two's-complement `int` (32 bits) and `long` (64 bits) as integers that are
reduced after every operation that can leave their range.
-/

namespace LatencyBenchmark

/-- The 32-bit two's-complement value of an integer. -/
def toInt32 (value : Int) : Int :=
  value.bmod (2 ^ 32)

/-- The 64-bit two's-complement value of an integer. -/
def toInt64 (value : Int) : Int :=
  value.bmod (2 ^ 64)

/-- `Integer.MAX_VALUE`, the largest 32-bit `int`. -/
def maxInt32 : Int :=
  2147483647

theorem toInt32_eq_self {value : Int} (low : -2 ^ 31 ≤ value)
    (high : value < 2 ^ 31) : toInt32 value = value := by
  unfold toInt32
  rw [Int.bmod_def]
  omega

theorem toInt32_lt (value : Int) : toInt32 value < 2 ^ 31 := by
  have bound : toInt32 value < (2 ^ 32 + 1) / 2 :=
    Int.bmod_lt (by norm_num)
  omega

theorem toInt64_eq_self {value : Int} (low : -2 ^ 63 ≤ value)
    (high : value < 2 ^ 63) : toInt64 value = value := by
  unfold toInt64
  rw [Int.bmod_def]
  omega

/-- Reducing an operand of a sum changes nothing. -/
@[simp]
theorem toInt32_toInt32_add (value other : Int) :
    toInt32 (toInt32 value + other) = toInt32 (value + other) :=
  Int.bmod_add_bmod

@[simp]
theorem toInt32_toInt32_sub (value other : Int) :
    toInt32 (toInt32 value - other) = toInt32 (value - other) :=
  Int.bmod_sub_bmod

@[simp]
theorem toInt64_toInt64_sub (value other : Int) :
    toInt64 (toInt64 value - other) = toInt64 (value - other) :=
  Int.bmod_sub_bmod

end LatencyBenchmark
