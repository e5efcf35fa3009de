import Mathlib.Algebra.Ring.Parity
import Mathlib.Data.Int.ModEq
import Mathlib.Data.List.NodupEquivFin
import Mathlib.Data.Nat.ModEq

/-!
# Walking around a cycle with a fixed stride

A walk around `length` positions that advances by `stride` at every step
stays in one residue class modulo every common divisor of the two, and
`length` steps visit every position once exactly when the two are coprime.
-/

namespace LatencyBenchmark

namespace StrideCycle

/-- The position after some steps of a walk. -/
def position (length stride start steps : Nat) : Nat :=
  (start + stride * steps) % length

/-- The positions in front of the first `count` steps. -/
def walk (length stride start count : Nat) : List Nat :=
  (List.range count).map (position length stride start)

variable {length stride start : Nat}

theorem position_lt (positive : 0 < length) (steps : Nat) :
    position length stride start steps < length :=
  Nat.mod_lt _ positive

theorem position_zero (inside : start < length) :
    position length stride start 0 = start := by
  rw [position, Nat.mul_zero, Nat.add_zero, Nat.mod_eq_of_lt inside]

/-- A walk can be resumed from the position it reached. -/
theorem position_add (before steps : Nat) :
    position length stride start (before + steps) =
      position length stride (position length stride start before) steps := by
  rw [position, position, position, Nat.mod_add_mod, Nat.mul_add,
    Nat.add_assoc]

@[simp]
theorem length_walk (count : Nat) :
    (walk length stride start count).length = count := by
  simp [walk]

theorem lt_of_mem_walk (positive : 0 < length) {count index : Nat}
    (member : index ∈ walk length stride start count) : index < length := by
  obtain ⟨steps, -, rfl⟩ := List.mem_map.mp member
  exact position_lt positive steps

/-- A walk visits its start, and then walks on from the next position. -/
theorem walk_succ (inside : start < length) (count : Nat) :
    walk length stride start (count + 1) =
      start :: walk length stride (position length stride start 1) count := by
  rw [walk, List.range_succ_eq_map, List.map_cons, position_zero inside,
    List.map_map, walk]
  congr 1
  apply List.map_congr_left
  intro steps _
  rw [← position_add, Nat.add_comm]
  rfl

/-- A walk keeps its residue modulo every common divisor of the length and
the stride. -/
theorem position_modEq {divisor : Nat} (dividesLength : divisor ∣ length)
    (dividesStride : divisor ∣ stride) (steps : Nat) :
    position length stride start steps ≡ start [MOD divisor] := by
  have reduced : position length stride start steps ≡
      start + stride * steps [MOD divisor] :=
    (Nat.mod_modEq _ _).of_dvd dividesLength
  have stepsVanish : stride * steps ≡ 0 [MOD divisor] :=
    Nat.modEq_zero_iff_dvd.mpr (dividesStride.mul_right steps)
  exact reduced.trans (stepsVanish.add_left start)

/-- With a coprime stride no position recurs within `length` steps. -/
theorem position_injective (coprime : Nat.Coprime stride length)
    {first second : Nat} (firstLt : first < length)
    (secondLt : second < length)
    (equal : position length stride start first =
      position length stride start second) :
    first = second := by
  have shifted : start + stride * first ≡ start + stride * second
      [MOD length] := equal
  have scaled : stride * first ≡ stride * second [MOD length] :=
    Nat.ModEq.add_left_cancel' start shifted
  have same : first ≡ second [MOD length] :=
    Nat.ModEq.cancel_left_of_coprime coprime.symm scaled
  exact same.eq_of_lt_of_lt firstLt secondLt

theorem walk_nodup (coprime : Nat.Coprime stride length) :
    (walk length stride start length).Nodup := by
  apply List.Nodup.map_on _ List.nodup_range
  intro first firstMem second secondMem equal
  exact position_injective coprime (List.mem_range.mp firstMem)
    (List.mem_range.mp secondMem) equal

/-- With a coprime stride `length` steps visit every position once. -/
theorem walk_perm_range (coprime : Nat.Coprime stride length) :
    (walk length stride start length).Perm (List.range length) := by
  rcases Nat.eq_zero_or_pos length with rfl | positive
  · exact List.Perm.refl []
  have nodup : (walk length stride start length).Nodup := walk_nodup coprime
  have subset : walk length stride start length ⊆ List.range length :=
    fun _ member => List.mem_range.mpr (lt_of_mem_walk positive member)
  apply (List.subperm_of_subset nodup subset).perm_of_length_le
  rw [length_walk, List.length_range]

/-- A stride that leads to the position next to the start is coprime to the
length. -/
theorem coprime_of_visits_next {steps : Nat}
    (visits : position length stride start steps = (start + 1) % length) :
    Nat.Coprime stride length := by
  have kept : position length stride start steps ≡ start
      [MOD Nat.gcd stride length] :=
    position_modEq (Nat.gcd_dvd_right stride length)
      (Nat.gcd_dvd_left stride length) steps
  have next : (start + 1) % length ≡ start + 1
      [MOD Nat.gcd stride length] :=
    (Nat.mod_modEq _ _).of_dvd (Nat.gcd_dvd_right stride length)
  have oneVanishes : start + 1 ≡ start + 0 [MOD Nat.gcd stride length] :=
    next.symm.trans (visits ▸ kept)
  have dividesOne : Nat.gcd stride length ∣ 1 :=
    Nat.modEq_zero_iff_dvd.mp (Nat.ModEq.add_left_cancel' start oneVanishes)
  exact Nat.dvd_one.mp dividesOne

/-- The first `length` steps visit every position once exactly when the stride
is coprime to the length. -/
theorem walk_perm_range_iff (positive : 0 < length) :
    (walk length stride start length).Perm (List.range length) ↔
      Nat.Coprime stride length := by
  constructor
  · intro perm
    have nextMem : (start + 1) % length ∈ walk length stride start length :=
      perm.mem_iff.mpr (List.mem_range.mpr (Nat.mod_lt _ positive))
    obtain ⟨steps, -, visits⟩ := List.mem_map.mp nextMem
    exact coprime_of_visits_next visits
  · exact walk_perm_range

end StrideCycle

end LatencyBenchmark
