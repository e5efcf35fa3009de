import LatencyBenchmark.ReportRanking

/-!
# The average column

The loop of `genLatencyReportBody` leaves missing records out of the sum, but
the sum is divided by the number of all records.  The average is that of the
measured latencies exactly when the larger divisor does not change the
truncated quotient.
-/

namespace LatencyBenchmark

/-! ## Truncated averages -/

namespace TruncatedAverage

/-- A larger divisor keeps the truncated quotient exactly when the quotient
still fits into the remainder as often as the divisor grew. -/
theorem tdiv_add_eq_iff {sum : Int} {count more : Nat} (positive : 0 < count) :
    sum.tdiv (count + more : Nat) = sum.tdiv count ↔
      sum.natAbs / count * more ≤ sum.natAbs % count := by
  have natural : sum.natAbs / (count + more) = sum.natAbs / count ↔
      sum.natAbs / count * more ≤ sum.natAbs % count := by
    have split := Nat.div_add_mod sum.natAbs count
    have smaller : sum.natAbs / (count + more) ≤ sum.natAbs / count :=
      Nat.div_le_div_left (Nat.le_add_right _ _) positive
    have larger : sum.natAbs / count ≤ sum.natAbs / (count + more) ↔
        sum.natAbs / count * (count + more) ≤ sum.natAbs :=
      Nat.le_div_iff_mul_le (by omega)
    rw [Nat.mul_comm] at split
    rw [Nat.mul_add] at larger
    omega
  rw [← natural]
  rcases Int.natAbs_eq sum with nonneg | negative
  · rw [nonneg, Int.natAbs_natCast, ← Int.ofNat_tdiv, ← Int.ofNat_tdiv]
    exact Int.ofNat_inj
  · rw [negative, Int.neg_tdiv, Int.neg_tdiv, Int.natAbs_neg,
      Int.natAbs_natCast, ← Int.ofNat_tdiv, ← Int.ofNat_tdiv, Int.neg_inj]
    exact Int.ofNat_inj

/-- A truncated quotient is not below a lower bound of the exact one. -/
theorem le_tdiv {sum lower : Int} {count : Nat} (positive : 0 < count)
    (bound : lower * count ≤ sum) : lower ≤ sum.tdiv count := by
  have divisor : (0 : Int) < count := by exact_mod_cast positive
  rcases le_or_gt 0 sum with nonneg | negative
  · rw [Int.tdiv_eq_ediv_of_nonneg nonneg]
    exact (Int.le_ediv_iff_mul_le divisor).mpr bound
  · have flipped : sum.tdiv count = -((-sum) / count) := by
      rw [← Int.tdiv_eq_ediv_of_nonneg (by omega), Int.neg_tdiv, neg_neg]
    have quotient : (-sum) / count < -lower + 1 := by
      rw [Int.ediv_lt_iff_lt_mul divisor]
      nlinarith only [bound, divisor]
    rw [flipped]
    omega

/-- A truncated quotient is not above an upper bound of the exact one. -/
theorem tdiv_le {sum upper : Int} {count : Nat} (positive : 0 < count)
    (bound : sum ≤ upper * count) : sum.tdiv count ≤ upper := by
  have negated : -upper ≤ (-sum).tdiv count :=
    le_tdiv positive (by rw [neg_mul]; omega)
  rw [Int.neg_tdiv] at negated
  omega

/-- The average of some values lies between their smallest and largest. -/
theorem exists_bounds {values : List Int} (nonempty : values ≠ []) :
    ∃ smallest ∈ values, ∃ largest ∈ values,
      (∀ value ∈ values, smallest ≤ value ∧ value ≤ largest) ∧
        smallest ≤ values.sum.tdiv values.length ∧
          values.sum.tdiv values.length ≤ largest := by
  have positive := List.length_pos_of_ne_nil nonempty
  have sorts := OrderStatistics.sorts_mergeSort values
  have first := sorts.length_eq.symm ▸ positive
  have last : (values.mergeSort).length - 1 < (values.mergeSort).length := by
    omega
  have lower : ∀ value ∈ values, values.mergeSort[0] ≤ value :=
    fun value mem => sorts.first_le mem first
  have upper : ∀ value ∈ values,
      value ≤ values.mergeSort[values.mergeSort.length - 1] :=
    fun value mem => sorts.le_last mem last
  refine ⟨_, sorts.perm.mem_iff.mp (List.getElem_mem first), _,
    sorts.perm.mem_iff.mp (List.getElem_mem last),
    fun value mem => ⟨lower value mem, upper value mem⟩, ?_, ?_⟩
  · apply le_tdiv positive
    rw [mul_comm, ← nsmul_eq_mul]
    exact List.card_nsmul_le_sum values _ lower
  · apply tdiv_le positive
    rw [mul_comm, ← nsmul_eq_mul]
    exact List.sum_le_card_nsmul values _ upper

end TruncatedAverage

namespace LatencyBenchmarkHandle

/-- The average is the truncated quotient of the latencies' sum and their
number, and lies between the smallest and the largest of them. -/
structure AveragesMeasured (latencies : List Int) (avg : Int) : Prop where
  quotient : avg = latencies.sum.tdiv latencies.length
  between : ∃ smallest ∈ latencies, ∃ largest ∈ latencies,
    (∀ latency ∈ latencies, smallest ≤ latency ∧ latency ≤ largest) ∧
      smallest ≤ avg ∧ avg ≤ largest

/-- Counting the missing records in leaves the truncated quotient as it is:
the quotient fits into the remainder once for each of them. -/
def KeepsQuotient (latencies : List Int) (missing : Nat) : Prop :=
  latencies.sum.natAbs / latencies.length * missing ≤
    latencies.sum.natAbs % latencies.length

/-- The measuring loop sums the measured elapsed times. -/
theorem measure_total {begs ends : List LatencyBenchmarkRecord}
    (sameLength : begs.length = ends.length) {sum : Int}
    (reduced : toInt64 sum = sum) :
    measure (begs.map some) (ends.map some) sum =
      .ok (List.zipWith shownElapsed begs ends,
        toInt64 (sum + (measuredBy elapsedTime begs ends).sum)) := by
  induction begs generalizing ends sum with
  | nil =>
      have nothing : (measuredBy elapsedTime [] ends).sum = 0 := rfl
      rw [nothing, Int.add_zero, reduced]
      cases ends <;> rfl
  | cons beg begs induction =>
      cases ends with
      | nil => simp at sameLength
      | cons end_ ends =>
          have tailLength : begs.length = ends.length := by
            simpa using sameLength
          by_cases missing : IsMissing end_
          · have measured : measuredBy elapsedTime (beg :: begs)
                (end_ :: ends) = measuredBy elapsedTime begs ends := by
              simp [measuredBy, missing]
            rw [measured]
            simp only [List.map_cons, measure, missing, if_true,
              induction tailLength reduced, List.zipWith_cons_cons,
              shownElapsed]
            rfl
          · have measured : measuredBy elapsedTime (beg :: begs)
                (end_ :: ends) =
                  elapsedTime beg end_ :: measuredBy elapsedTime begs ends := by
              simp [measuredBy, missing]
            have added : toInt64 (toInt64 (sum + elapsedTime beg end_)) =
                toInt64 (sum + elapsedTime beg end_) :=
              Int.bmod_bmod
            have total : toInt64 (toInt64 (sum + elapsedTime beg end_) +
                (measuredBy elapsedTime begs ends).sum) =
                  toInt64 (sum + (measuredBy elapsedTime (beg :: begs)
                    (end_ :: ends)).sum) := by
              rw [measured, List.sum_cons, ← Int.add_assoc]
              exact Int.bmod_add_bmod
            rw [← total]
            simp only [List.map_cons, measure, missing, if_false,
              induction tailLength added, List.zipWith_cons_cons, shownElapsed]
            rfl

/-- Each record is measured or missing. -/
theorem length_measuredBy {begs ends : List LatencyBenchmarkRecord}
    (sameLength : begs.length = ends.length) :
    (measuredBy elapsedTime begs ends).length + countMissing ends =
      begs.length := by
  have lengths := (shown_perm sameLength).length_eq
  rw [List.length_zipWith, ← sameLength, Nat.min_self, List.length_append,
    List.length_replicate] at lengths
  exact lengths.symm

theorem measuredBy_ne_nil {begs ends : List LatencyBenchmarkRecord}
    (sameLength : begs.length = ends.length) {end_ : LatencyBenchmarkRecord}
    (mem : end_ ∈ ends) (present : ¬IsMissing end_) :
    measuredBy elapsedTime begs ends ≠ [] := by
  have counted : countMissing ends ≠ ends.length := by
    intro all
    exact present (of_decide_eq_true (List.countP_eq_length.mp all end_ mem))
  have bounded : countMissing ends ≤ ends.length := List.countP_le_length
  have split := length_measuredBy sameLength
  apply List.ne_nil_of_length_pos
  omega

/-- The row begins with the columns up to the average, whose divisor is the
number of all records. -/
theorem genLatencyReportBody_average {handle : LatencyBenchmarkHandle}
    {latencyPair : Int × Int} {config : LatencyBenchmarkConfig}
    {caseName : String} {sort : Bool}
    {begs ends : List LatencyBenchmarkRecord} {row : List String}
    (begRecords : handle.getActionTimestampRecords latencyPair.1 =
      some (begs.map some))
    (endRecords : handle.getActionTimestampRecords latencyPair.2 =
      some (ends.map some))
    (sameLength : begs.length = ends.length)
    (written : handle.genLatencyReportBody latencyPair config caseName sort =
      .ok row) :
    ∃ cells, row = rowPrefix config caseName
      ((toInt64 (measuredBy elapsedTime begs ends).sum).tdiv begs.length) ::
        cells := by
  have measured := measure_total sameLength (rfl : toInt64 0 = 0)
  have length : (List.zipWith shownElapsed begs ends).length =
      begs.length := by
    rw [List.length_zipWith, ← sameLength, Nat.min_self]
  unfold genLatencyReportBody at written
  rw [begRecords, endRecords] at written
  simp only [measured, ExceptTraversal.ok_bind, length, Int.zero_add]
    at written
  split at written
  · cases written
  · obtain ⟨cells, _, done⟩ := ExceptTraversal.exists_of_bind_eq_ok written
    exact ⟨cells, (Except.ok.inj done).symm⟩

/-- **The average column.**  Over complete arrays with a measured record and
a sum that fits a `long`, the row begins with an average, which is that of the
measured latencies exactly when counting the missing records in keeps the
truncated quotient. -/
theorem genLatencyReportBody_averagesMeasured_iff
    {handle : LatencyBenchmarkHandle} {latencyPair : Int × Int}
    {config : LatencyBenchmarkConfig} {caseName : String} {sort : Bool}
    {begs ends : List LatencyBenchmarkRecord}
    (begRecords : handle.getActionTimestampRecords latencyPair.1 =
      some (begs.map some))
    (endRecords : handle.getActionTimestampRecords latencyPair.2 =
      some (ends.map some))
    (sameLength : begs.length = ends.length)
    (measuredOne : ∃ end_ ∈ ends, ¬IsMissing end_)
    (low : -2 ^ 63 ≤ (measuredBy elapsedTime begs ends).sum)
    (high : (measuredBy elapsedTime begs ends).sum < 2 ^ 63) :
    ∃ avg,
      (∀ row, handle.genLatencyReportBody latencyPair config caseName sort =
          .ok row →
        ∃ cells, row = rowPrefix config caseName avg :: cells) ∧
      (1 ≤ config.reportStep → config.reportStep < 2 ^ 31 →
        ∃ row, handle.genLatencyReportBody latencyPair config caseName sort =
          .ok row) ∧
      (AveragesMeasured (measuredBy elapsedTime begs ends) avg ↔
        KeepsQuotient (measuredBy elapsedTime begs ends)
          (countMissing ends)) := by
  obtain ⟨end_, mem, present⟩ := measuredOne
  have someMeasured := measuredBy_ne_nil sameLength mem present
  have positive := List.length_pos_of_ne_nil someMeasured
  have nonempty : begs ≠ [] := by
    rintro rfl
    exact someMeasured rfl
  have divisor := length_measuredBy sameLength
  refine ⟨(measuredBy elapsedTime begs ends).sum.tdiv begs.length,
    ?_, ?_, ?_⟩
  · intro row written
    have leading := genLatencyReportBody_average begRecords endRecords
      sameLength written
    rwa [toInt64_eq_self low high] at leading
  · intro positiveStep isInt
    obtain ⟨avg, written⟩ := genLatencyReportBody_eq_ok caseName sort
      positiveStep isInt begRecords endRecords sameLength nonempty
    exact ⟨_, written⟩
  · rw [← divisor, KeepsQuotient,
      ← TruncatedAverage.tdiv_add_eq_iff positive]
    constructor
    · intro averages
      exact averages.quotient
    · intro same
      have bounds := TruncatedAverage.exists_bounds someMeasured
      rw [← same] at bounds
      exact ⟨same, bounds⟩

/-- The theorem on three messages, one of them missing. -/
theorem genLatencyReportBody_averagesMeasured_iff_three :
    ∃ handle, recordedHandle 3 (0, 1) ("write", "read") threeBegs
        (threeEnds.map some) = .ok handle ∧
      ∃ avg,
        (∀ row, handle.genLatencyReportBody (0, 1) {} "by idx" false =
            .ok row → ∃ cells, row = rowPrefix {} "by idx" avg :: cells) ∧
        (1 ≤ ({} : LatencyBenchmarkConfig).reportStep →
          ({} : LatencyBenchmarkConfig).reportStep < 2 ^ 31 →
            ∃ row, handle.genLatencyReportBody (0, 1) {} "by idx" false =
              .ok row) ∧
        (AveragesMeasured (measuredBy elapsedTime threeBegs threeEnds) avg ↔
          KeepsQuotient (measuredBy elapsedTime threeBegs threeEnds)
            (countMissing threeEnds)) := by
  obtain ⟨handle, recorded, begRecords, endRecords⟩ :=
    exists_recordedHandle_three
  exact ⟨handle, recorded, genLatencyReportBody_averagesMeasured_iff
    begRecords endRecords rfl ⟨_, List.mem_cons_self, by decide⟩
      (by decide) (by decide)⟩

/-- One latency of ten nanoseconds beside a missing record: the average
column shows five. -/
theorem missing_record_halves_average :
    ∃ handle, recordedHandle 2 (0, 1) ("write", "read") [{}, {}]
        [some { nsec := 10 }, some {}] = .ok handle ∧
      measuredBy elapsedTime [{}, {}] [{ nsec := 10 }, {}] = [10] ∧
      ¬AveragesMeasured [10] 5 ∧
      ∃ cells, handle.genLatencyReportBody (0, 1) {} "by idx" false =
        .ok (rowPrefix {} "by idx" 5 :: cells) := by
  obtain ⟨handle, recorded, begRecords, endRecords⟩ :
      ∃ handle, recordedHandle 2 (0, 1) ("write", "read") [{}, {}]
          [some { nsec := 10 }, some {}] = .ok handle ∧
        handle.getActionTimestampRecords (0, 1).1 =
          some ([{}, {}].map some) ∧
        handle.getActionTimestampRecords (0, 1).2 =
          some ([{ nsec := 10 }, {}].map some) :=
    ⟨_, rfl, rfl, rfl⟩
  have sameLength : ([{}, {}] : List LatencyBenchmarkRecord).length =
      ([{ nsec := 10 }, {}] : List LatencyBenchmarkRecord).length :=
    rfl
  obtain ⟨avg, written⟩ : ∃ avg, handle.genLatencyReportBody (0, 1) {}
      "by idx" false = .ok (shownRow {} "by idx" avg [10, maxInt32]) :=
    genLatencyReportBody_eq_ok _ false (by decide) (by decide) begRecords
      endRecords sameLength (List.cons_ne_nil _ _)
  obtain ⟨cells, leading⟩ := genLatencyReportBody_average begRecords
    endRecords sameLength written
  refine ⟨handle, recorded, rfl, ?_, cells, ?_⟩
  · rintro ⟨quotient, _⟩
    exact absurd quotient (by decide)
  · rw [written, leading]
    rfl

end LatencyBenchmarkHandle

end LatencyBenchmark
