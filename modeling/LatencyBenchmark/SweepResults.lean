import LatencyBenchmark.Binary64
import LatencyBenchmark.MachineInteger
import LatencyBenchmark.OrderStatistics

/-!
# Results of the thread sweep

`benchmark_std_atomic` sorts the results of its threads with `qsort` and
prints the first, the last and the middle one.  The comparator returns the
difference of two times as an `int`, so it takes different times less than
one nanosecond apart for equal.

The times are exact rationals here.
-/

namespace LatencyBenchmark

namespace SweepResults

/-- `benchmark_item`. -/
structure BenchmarkItem where
  cpu : Nat
  node : Nat
  elapsed : ℚ
  deriving DecidableEq

/-- The conversion of a `double` to `int`, for values in the range of `int`
truncation toward zero. -/
def doubleToInt (value : ℚ) : Int :=
  toInt32 (truncateDouble value)

/-- `cmp_benchmark_item`. -/
def cmpBenchmarkItem (p1 p2 : BenchmarkItem) : Int :=
  doubleToInt (p1.elapsed - p2.elapsed)

/-- What `qsort` may leave: the results in an order in which no neighbours
compare as greater. -/
structure IsQsortResult (results sorted : List BenchmarkItem) : Prop where
  perm : sorted.Perm results
  chain : sorted.IsChain fun p1 p2 => cmpBenchmarkItem p1 p2 ≤ 0

/-- The times `main` prints after the sort. -/
structure Printed where
  minimum : ℚ
  maximum : ℚ
  median : ℚ
  deriving DecidableEq

/-- `results[0]`, `results[cnt - 1]` and `results[cnt / 2]`. -/
def printed (sorted : List BenchmarkItem) : Option Printed := do
  let first ← sorted[0]?
  let last ← sorted[sorted.length - 1]?
  let middle ← sorted[sorted.length / 2]?
  return { minimum := first.elapsed
           maximum := last.elapsed
           median := middle.elapsed }

/-- The measured times. -/
def times (results : List BenchmarkItem) : List ℚ :=
  results.map BenchmarkItem.elapsed

/-- The comparator is a total preorder on the results that agrees with the
order of their times. -/
structure OrdersNumerically (results : List BenchmarkItem) : Prop where
  total : ∀ p1 ∈ results, ∀ p2 ∈ results,
    cmpBenchmarkItem p1 p2 ≤ 0 ∨ cmpBenchmarkItem p2 p1 ≤ 0
  transitive : ∀ p1 ∈ results, ∀ p2 ∈ results, ∀ p3 ∈ results,
    cmpBenchmarkItem p1 p2 ≤ 0 → cmpBenchmarkItem p2 p3 ≤ 0 →
      cmpBenchmarkItem p1 p3 ≤ 0
  lt_iff : ∀ p1 ∈ results, ∀ p2 ∈ results,
    cmpBenchmarkItem p1 p2 < 0 ↔ p1.elapsed < p2.elapsed
  gt_iff : ∀ p1 ∈ results, ∀ p2 ∈ results,
    0 < cmpBenchmarkItem p1 p2 ↔ p2.elapsed < p1.elapsed

/-- The printed times are the minimum, the maximum and the time of rank
`cnt / 2`. -/
structure ShowsStatistics (results : List BenchmarkItem)
    (shown : Printed) : Prop where
  minimum_mem : shown.minimum ∈ times results
  minimum_le : ∀ time ∈ times results, shown.minimum ≤ time
  maximum_mem : shown.maximum ∈ times results
  le_maximum : ∀ time ∈ times results, time ≤ shown.maximum
  median : OrderStatistics.HasRank (times results) (results.length / 2)
    shown.median

/-- The sweep is reported rightly: the comparator orders the results, and
whatever `qsort` leaves, the printed times are the right ones. -/
structure ReportedRightly (results : List BenchmarkItem) : Prop where
  orders : OrdersNumerically results
  shows : ∀ sorted, IsQsortResult results sorted →
    ∃ shown, printed sorted = some shown ∧ ShowsStatistics results shown

/-- Different times are at least one nanosecond apart. -/
def SpacedApart (results : List BenchmarkItem) : Prop :=
  ∀ p1 ∈ results, ∀ p2 ∈ results,
    p1.elapsed = p2.elapsed ∨ 1 ≤ |p1.elapsed - p2.elapsed|

/-- All differences are in the range of `int`. -/
def InIntRange (results : List BenchmarkItem) : Prop :=
  ∀ p1 ∈ results, ∀ p2 ∈ results,
    -2 ^ 31 ≤ truncateDouble (p1.elapsed - p2.elapsed) ∧
      truncateDouble (p1.elapsed - p2.elapsed) < 2 ^ 31

variable {results sorted : List BenchmarkItem}

theorem InIntRange.cmp_eq (inRange : InIntRange results)
    {p1 p2 : BenchmarkItem} (first : p1 ∈ results) (second : p2 ∈ results) :
    cmpBenchmarkItem p1 p2 = truncateDouble (p1.elapsed - p2.elapsed) := by
  obtain ⟨low, high⟩ := inRange p1 first p2 second
  exact toInt32_eq_self low high

/-- For times that are spaced apart the comparator tells their order. -/
theorem SpacedApart.ordersNumerically (inRange : InIntRange results)
    (spaced : SpacedApart results) : OrdersNumerically results := by
  have below : ∀ p1 ∈ results, ∀ p2 ∈ results,
      cmpBenchmarkItem p1 p2 < 0 ↔ p1.elapsed < p2.elapsed := by
    intro p1 first p2 second
    rw [inRange.cmp_eq first second, truncateDouble_neg_iff]
    constructor
    · intro apart
      linarith
    · intro lt
      rcases spaced p1 first p2 second with same | apart
      · exact absurd same lt.ne
      · rw [abs_of_neg (by linarith)] at apart
        linarith
  have above : ∀ p1 ∈ results, ∀ p2 ∈ results,
      0 < cmpBenchmarkItem p1 p2 ↔ p2.elapsed < p1.elapsed := by
    intro p1 first p2 second
    rw [inRange.cmp_eq first second, truncateDouble_pos_iff]
    constructor
    · intro apart
      linarith
    · intro lt
      rcases spaced p1 first p2 second with same | apart
      · exact absurd same lt.ne'
      · rwa [abs_of_pos (by linarith)] at apart
  have le : ∀ p1 ∈ results, ∀ p2 ∈ results,
      cmpBenchmarkItem p1 p2 ≤ 0 ↔ p1.elapsed ≤ p2.elapsed := by
    intro p1 first p2 second
    rw [← not_lt, above p1 first p2 second, not_lt]
  constructor
  case lt_iff => exact below
  case gt_iff => exact above
  case total =>
    intro p1 first p2 second
    rw [le p1 first p2 second, le p2 second p1 first]
    exact le_total _ _
  case transitive =>
    intro p1 first p2 second p3 third
    rw [le p1 first p2 second, le p2 second p3 third, le p1 first p3 third]
    exact le_trans

/-- A comparator that tells the order tells apart what differs. -/
theorem OrdersNumerically.spacedApart (inRange : InIntRange results)
    (orders : OrdersNumerically results) : SpacedApart results := by
  intro p1 first p2 second
  have below := orders.lt_iff p1 first p2 second
  have above := orders.gt_iff p1 first p2 second
  rw [inRange.cmp_eq first second, truncateDouble_neg_iff] at below
  rw [inRange.cmp_eq first second, truncateDouble_pos_iff] at above
  rcases lt_trichotomy p1.elapsed p2.elapsed with lt | same | gt
  · right
    rw [abs_of_neg (by linarith)]
    linarith only [below.mpr lt]
  · exact Or.inl same
  · right
    rw [abs_of_pos (by linarith)]
    exact above.mpr gt

/-- Sorting with a comparator that tells the order sorts the times. -/
theorem OrdersNumerically.sorts_times (orders : OrdersNumerically results)
    (qsorted : IsQsortResult results sorted) :
    OrderStatistics.Sorts (times results) (times sorted) := by
  apply OrderStatistics.sorts_of_isChain
  · exact qsorted.perm.map _
  · rw [times, List.isChain_map]
    apply List.IsChain.imp_of_mem_imp _ qsorted.chain
    intro p1 p2 first second le
    by_contra gt
    have greater := (orders.gt_iff p1 (qsorted.perm.mem_iff.mp first) p2
      (qsorted.perm.mem_iff.mp second)).mpr (not_le.mp gt)
    omega

theorem length_times (results : List BenchmarkItem) :
    (times results).length = results.length :=
  List.length_map _

theorem getElem_times {index : Nat} (inside : index < sorted.length)
    (inTimes : index < (times sorted).length) :
    (times sorted)[index] = sorted[index].elapsed :=
  List.getElem_map _

/-- From sorted times the right ones are printed. -/
theorem exists_printed (nonempty : results ≠ [])
    (sorts : OrderStatistics.Sorts (times results) (times sorted)) :
    ∃ shown, printed sorted = some shown ∧ ShowsStatistics results shown := by
  have sortedLength : sorted.length = results.length := by
    rw [← length_times, sorts.length_eq, length_times]
  have positive : 0 < sorted.length := by
    rw [sortedLength]
    exact List.length_pos_of_ne_nil nonempty
  have lastInside : sorted.length - 1 < sorted.length := by omega
  have middleInside : sorted.length / 2 < sorted.length :=
    Nat.div_lt_self positive (by decide)
  have inTimes : ∀ {index : Nat}, index < sorted.length →
      index < (times sorted).length := by
    intro index inside
    rwa [length_times]
  have shown : printed sorted = some
      { minimum := sorted[0].elapsed
        maximum := sorted[sorted.length - 1].elapsed
        median := sorted[sorted.length / 2].elapsed } := by
    simp [printed, positive, lastInside, middleInside]
  refine ⟨_, shown, ?_⟩
  constructor
  case minimum_mem =>
    exact sorts.perm.mem_iff.mp
      (List.mem_map_of_mem (List.getElem_mem positive))
  case minimum_le =>
    intro time mem
    dsimp only
    rw [← getElem_times positive (inTimes positive)]
    exact sorts.first_le mem (inTimes positive)
  case maximum_mem =>
    exact sorts.perm.mem_iff.mp
      (List.mem_map_of_mem (List.getElem_mem lastInside))
  case le_maximum =>
    intro time mem
    dsimp only
    have timesLast : (times sorted).length - 1 < (times sorted).length := by
      rw [length_times]
      exact lastInside
    have lastIndex : (times sorted).length - 1 = sorted.length - 1 := by
      rw [length_times]
    have below := sorts.le_last mem timesLast
    simp only [lastIndex] at below
    rwa [getElem_times lastInside] at below
  case median =>
    dsimp only
    rw [← getElem_times middleInside (inTimes middleInside), ← sortedLength]
    exact sorts.hasRank (inTimes middleInside)

/-- **The thread sweep.**  The comparator orders the results as their times
and the minimum, the maximum and the median are printed rightly, exactly when
different times are at least one nanosecond apart. -/
theorem reportedRightly_iff_spacedApart (nonempty : results ≠ [])
    (inRange : InIntRange results) :
    ReportedRightly results ↔ SpacedApart results := by
  constructor
  · intro rightly
    exact rightly.orders.spacedApart inRange
  · intro spaced
    have orders := spaced.ordersNumerically inRange
    exact ⟨orders, fun sorted qsorted =>
      exists_printed nonempty (orders.sorts_times qsorted)⟩

theorem reportedRightly_iff_spacedApart_pair :
    ReportedRightly [⟨0, 0, 5⟩, ⟨1, 0, 7⟩] ↔
      SpacedApart [⟨0, 0, 5⟩, ⟨1, 0, 7⟩] := by
  apply reportedRightly_iff_spacedApart (List.cons_ne_nil _ _)
  unfold InIntRange
  decide +kernel

/-- Two threads that need 5.25 and 5.75 nanoseconds compare as equal, so the
minimum may be printed as 5.75. -/
theorem close_times_compare_equal :
    InIntRange [⟨0, 0, 21 / 4⟩, ⟨1, 0, 23 / 4⟩] ∧
      cmpBenchmarkItem ⟨0, 0, 21 / 4⟩ ⟨1, 0, 23 / 4⟩ = 0 ∧
      IsQsortResult [⟨0, 0, 21 / 4⟩, ⟨1, 0, 23 / 4⟩]
        [⟨1, 0, 23 / 4⟩, ⟨0, 0, 21 / 4⟩] ∧
      printed [⟨1, 0, 23 / 4⟩, ⟨0, 0, 21 / 4⟩] =
        some ⟨23 / 4, 21 / 4, 21 / 4⟩ ∧
      ¬ReportedRightly [⟨0, 0, 21 / 4⟩, ⟨1, 0, 23 / 4⟩] := by
  have inRange : InIntRange [⟨0, 0, 21 / 4⟩, ⟨1, 0, 23 / 4⟩] := by
    unfold InIntRange
    decide +kernel
  have equal : cmpBenchmarkItem ⟨0, 0, 21 / 4⟩ ⟨1, 0, 23 / 4⟩ = 0 := by
    decide +kernel
  refine ⟨inRange, equal, ⟨List.Perm.swap _ _ _, ?_⟩, rfl, ?_⟩
  · decide +kernel
  · intro rightly
    have below := (rightly.orders.lt_iff _ List.mem_cons_self _
      (List.mem_cons_of_mem _ (List.mem_singleton_self _))).mpr
        (by norm_num : (21 / 4 : ℚ) < 23 / 4)
    rw [equal] at below
    exact absurd below (lt_irrefl 0)

end SweepResults

end LatencyBenchmark
