import Mathlib.Data.List.Chain
import Mathlib.Data.List.Perm.Lattice
import Mathlib.Order.Lattice

/-!
# Order statistics of a list

In a sorted arrangement of some samples the entry at an index is below a
bound exactly when more samples than the index are.  The entry therefore has
its index as its rank, whatever ties there are.
-/

namespace LatencyBenchmark

namespace OrderStatistics

variable {Sample : Type*} [LinearOrder Sample]

/-- `value` is a sample with more than `rank` samples at most as large, and
all but `rank` samples at least as large. -/
structure HasRank (samples : List Sample) (rank : ℕ) (value : Sample) :
    Prop where
  mem : value ∈ samples
  below : rank < samples.countP (· ≤ value)
  above : samples.length ≤ rank + samples.countP (value ≤ ·)

/-- `sorted` lists the samples in ascending order. -/
structure Sorts (samples sorted : List Sample) : Prop where
  perm : sorted.Perm samples
  ascending : sorted.Pairwise (· ≤ ·)

variable {samples sorted : List Sample} {rank : ℕ} {bound value : Sample}

/-- The entries of an ascending list that satisfy a predicate closed
downwards are the first ones. -/
theorem getElem_of_downward_closed {holds : Sample → Bool}
    (closed : ∀ low high, low ≤ high → holds high = true → holds low = true)
    (ascending : sorted.Pairwise (· ≤ ·)) (inside : rank < sorted.length) :
    holds sorted[rank] = true ↔ rank < sorted.countP holds := by
  induction sorted generalizing rank with
  | nil => simp at inside
  | cons first rest induction =>
      obtain ⟨firstLe, restAscending⟩ := List.pairwise_cons.mp ascending
      by_cases firstHolds : holds first = true
      · rw [List.countP_cons_of_pos firstHolds]
        cases rank with
        | zero => simpa using firstHolds
        | succ rank =>
            rw [List.getElem_cons_succ, induction restAscending
              (Nat.lt_of_succ_lt_succ inside)]
            omega
      · -- Nothing holds after an entry that does not.
        have noneHolds : ∀ entry ∈ first :: rest, ¬holds entry = true := by
          intro entry mem entryHolds
          rcases List.mem_cons.mp mem with rfl | later
          · exact firstHolds entryHolds
          · exact firstHolds
              (closed first entry (firstLe entry later) entryHolds)
        rw [List.countP_eq_zero.mpr noneHolds]
        constructor
        · intro entryHolds
          exact absurd entryHolds (noneHolds _ (List.getElem_mem inside))
        · intro absurdLt
          exact absurd absurdLt (Nat.not_lt_zero rank)

namespace Sorts

theorem length_eq (sorts : Sorts samples sorted) :
    sorted.length = samples.length :=
  sorts.perm.length_eq

/-- The entry of rank `rank` is below a bound exactly when more than `rank`
samples are. -/
theorem getElem_lt_iff (sorts : Sorts samples sorted)
    (inside : rank < sorted.length) :
    sorted[rank] < bound ↔ rank < samples.countP (· < bound) := by
  have closed : ∀ low high : Sample, low ≤ high →
      decide (high < bound) = true → decide (low < bound) = true := by
    intro low high lowLe highLt
    exact decide_eq_true (lowLe.trans_lt (of_decide_eq_true highLt))
  rw [← sorts.perm.countP_eq,
    ← getElem_of_downward_closed closed sorts.ascending inside,
    decide_eq_true_iff]

/-- The entry of rank `rank` is at most a bound exactly when more than `rank`
samples are. -/
theorem getElem_le_iff (sorts : Sorts samples sorted)
    (inside : rank < sorted.length) :
    sorted[rank] ≤ bound ↔ rank < samples.countP (· ≤ bound) := by
  have closed : ∀ low high : Sample, low ≤ high →
      decide (high ≤ bound) = true → decide (low ≤ bound) = true := by
    intro low high lowLe highLe
    exact decide_eq_true (lowLe.trans (of_decide_eq_true highLe))
  rw [← sorts.perm.countP_eq,
    ← getElem_of_downward_closed closed sorts.ascending inside,
    decide_eq_true_iff]

/-- The entry of rank `rank` is a given value exactly when the ranks of that
value include `rank`. -/
theorem getElem_eq_iff (sorts : Sorts samples sorted)
    (inside : rank < sorted.length) :
    sorted[rank] = value ↔ samples.countP (· < value) ≤ rank ∧
      rank < samples.countP (· ≤ value) := by
  rw [eq_iff_le_not_lt, sorts.getElem_le_iff inside,
    sorts.getElem_lt_iff inside, Nat.not_lt, and_comm]

/-- Sorted entries do not decrease. -/
theorem getElem_le_getElem (sorts : Sorts samples sorted) {low high : ℕ}
    (le : low ≤ high) (lowInside : low < sorted.length)
    (inside : high < sorted.length) : sorted[low] ≤ sorted[high] := by
  rcases Nat.eq_or_lt_of_le le with rfl | lt
  · exact le_refl _
  · exact List.pairwise_iff_getElem.mp sorts.ascending low high _ inside lt

/-- Every entry of the sorted arrangement has its index as its rank. -/
theorem hasRank (sorts : Sorts samples sorted)
    (inside : rank < sorted.length) : HasRank samples rank sorted[rank] := by
  constructor
  case mem => exact sorts.perm.mem_iff.mp (List.getElem_mem inside)
  case below => exact (sorts.getElem_le_iff inside).mp (le_refl _)
  case above =>
    have notBelow : samples.countP (· < sorted[rank]) ≤ rank :=
      Nat.not_lt.mp fun more =>
        lt_irrefl _ ((sorts.getElem_lt_iff inside).mpr more)
    have split := List.length_eq_countP_add_countP
      (fun sample => decide (sample < sorted[rank])) (l := samples)
    have others : samples.countP
        (fun sample => decide (¬decide (sample < sorted[rank]) = true)) =
          samples.countP (sorted[rank] ≤ ·) := by
      apply List.countP_congr
      intro sample _
      simp
    omega

/-- The first entry is the least sample. -/
theorem first_le (sorts : Sorts samples sorted) {sample : Sample}
    (mem : sample ∈ samples) (inside : 0 < sorted.length) :
    sorted[0] ≤ sample := by
  obtain ⟨index, indexInside, rfl⟩ :=
    List.mem_iff_getElem.mp (sorts.perm.mem_iff.mpr mem)
  exact sorts.getElem_le_getElem (Nat.zero_le index) inside indexInside

/-- The last entry is the largest sample. -/
theorem le_last (sorts : Sorts samples sorted) {sample : Sample}
    (mem : sample ∈ samples) (inside : sorted.length - 1 < sorted.length) :
    sample ≤ sorted[sorted.length - 1] := by
  obtain ⟨index, indexInside, rfl⟩ :=
    List.mem_iff_getElem.mp (sorts.perm.mem_iff.mpr mem)
  exact sorts.getElem_le_getElem (Nat.le_sub_one_of_lt indexInside)
    indexInside inside

end Sorts

/-- A merge sort sorts. -/
theorem sorts_mergeSort (samples : List Sample) :
    Sorts samples
      (samples.mergeSort (fun low high => decide (low ≤ high))) := by
  constructor
  case perm => exact List.mergeSort_perm samples _
  case ascending =>
    have transitive : ∀ low middle high : Sample,
        decide (low ≤ middle) = true → decide (middle ≤ high) = true →
          decide (low ≤ high) = true := by
      intro low middle high lowLe highLe
      exact decide_eq_true
        ((of_decide_eq_true lowLe).trans (of_decide_eq_true highLe))
    have total : ∀ low high : Sample,
        (decide (low ≤ high) || decide (high ≤ low)) = true := by
      intro low high
      simpa using le_total low high
    exact (List.pairwise_mergeSort transitive total samples).imp
      of_decide_eq_true

/-- An arrangement whose neighbours ascend sorts. -/
theorem sorts_of_isChain (perm : sorted.Perm samples)
    (chain : sorted.IsChain (· ≤ ·)) : Sorts samples sorted where
  perm := perm
  ascending := List.isChain_iff_pairwise.mp chain

/-- There is only one ascending arrangement. -/
theorem Sorts.unique {first second : List Sample}
    (firstSorts : Sorts samples first) (secondSorts : Sorts samples second) :
    first = second :=
  (firstSorts.perm.trans secondSorts.perm.symm).eq_of_pairwise
    (fun _ _ _ _ le ge => le_antisymm le ge) firstSorts.ascending
      secondSorts.ascending

end OrderStatistics

end LatencyBenchmark
