import LatencyBenchmark.ArrayBlockingQueueProgress

/-!
# The sweep of the ArrayBlockingQueue benchmark

A case completes when its constructor succeeds, every interleaving of `run`
returns and the report that follows ends without an exception.  All cases of
the sweep complete on a machine with at least two processors.  With one
processor `hc / 2` is zero, and a case without producers has no message to
average over.
-/

namespace LatencyBenchmark

namespace ArrayBlockingQueue

open ThreadTrans

variable {config : LatencyBenchmarkConfig}

/-- Every interleaving of `run` returns, and `genReport` then completes. -/
structure CaseCompletes (config : LatencyBenchmarkConfig) : Prop where
  constructed : ∃ state, (system config).initial state
  progress : ∀ state, (system config).ReachableUnder Uninterrupted state →
    (∃ total, state.main = .returned total) ∨
      (system config).CanStepUnder Uninterrupted state
  bounded : ∃ bound, ∀ trace state, (system config).Run trace state →
    TransitionSystem.Meets Uninterrupted trace → trace.length ≤ bound
  reported : ∀ state total,
    (system config).ReachableUnder Uninterrupted state →
      state.main = .returned total →
        ∃ report, genReport state.handle config = .ok report

/-- A case with at least one message completes. -/
theorem caseCompletes_of_pos (admissible : Admissible config)
    (positive : 0 < messageCount config)
    (positiveStep : 1 ≤ config.reportStep)
    (isInt : config.reportStep < 2 ^ 31) : CaseCompletes config := by
  refine ⟨?_, ?_, ⟨initialWork config, ?_⟩, ?_⟩
  · obtain ⟨handle, constructed⟩ := admissible.exists_newHandle
    exact ⟨_, handle, 0, constructed, rfl⟩
  · intro state reachable
    obtain ⟨phases, delivery⟩ :=
      invariant_of_reachable admissible reachable.reachable
    by_cases canStep : (system config).CanStepUnder Uninterrupted state
    · exact Or.inr canStep
    · exact Or.inl (returned_of_stuck admissible phases delivery canStep)
  · intro trace state run meets
    exact length_le_initialWork admissible run meets
  · intro state total reachable returned
    obtain ⟨phases, delivery⟩ :=
      invariant_of_reachable admissible reachable.reachable
    obtain ⟨producersEnded, consumersEnded⟩ :=
      delivery.all_ended phases returned
    have recorded := delivery.recorded producersEnded
      (fun consumerId =>
        (delivery.consumer_ended (consumersEnded consumerId)).1)
      (delivery.items_eq_nil phases admissible consumersEnded)
    obtain ⟨records, dumped⟩ := delivery.allocated.exists_dump recorded
    obtain ⟨latency, reported⟩ :=
      delivery.allocated.exists_latencyReport positive recorded positiveStep
        isInt [(actionWriteBegin, actionWriteEnd),
          (actionWriteBegin, actionRead)] (by decide)
    refine ⟨(records, latency), ?_⟩
    rw [genReport, dumped, ExceptTraversal.ok_bind, reported]
    rfl

/-- Over empty arrays the average divides by zero. -/
theorem genReport_ne_ok_of_empty {handle : LatencyBenchmarkHandle}
    (allocated : handle.Allocated recordedActions 0)
    (report : List String × List String) :
    genReport handle config ≠ .ok report := by
  have none : ∀ action ∈ recordedActions,
      handle.getActionTimestampRecords action = some [] := by
    intro action mem
    obtain ⟨records, present, length⟩ := allocated.arrays action mem
    rw [present, List.eq_nil_of_length_eq_zero length]
  have body : ∀ name, handle.genLatencyReportBody
      (actionWriteBegin, actionWriteEnd) config name false =
        .error .arithmetic := by
    intro name
    unfold LatencyBenchmarkHandle.genLatencyReportBody
    dsimp only
    rw [none actionWriteBegin (by decide), none actionWriteEnd (by decide)]
    rfl
  intro reported
  unfold genReport at reported
  cases dumped : handle.genTimestampRecordsReport with
  | error exception =>
      rw [dumped] at reported
      cases reported
  | ok records =>
      rw [dumped, ExceptTraversal.ok_bind,
        LatencyBenchmarkHandle.genLatencyReport, List.mapM_cons, body]
        at reported
      cases reported

/-- A case without producers does not complete: `run` returns and the report
divides by zero. -/
theorem not_caseCompletes_of_no_producer (admissible : Admissible config)
    (none : config.producer = 0) : ¬CaseCompletes config := by
  intro completes
  obtain ⟨state, reachable, total, returned⟩ := exists_returned admissible
  obtain ⟨report, reported⟩ :=
    completes.reported state total reachable returned
  obtain ⟨_, delivery⟩ :=
    invariant_of_reachable admissible reachable.reachable
  have empty : messageCount config = 0 := by
    unfold messageCount
    rw [none]
    simp
  have allocated := delivery.allocated
  rw [empty] at allocated
  exact genReport_ne_ok_of_empty allocated report reported

/-- The sweep's numbers on a machine with at least two processors. -/
theorem mem_sweepNums_bounds {hc num : Int} (several : 2 ≤ hc)
    (fits : hc * 4 < 2 ^ 31) (mem : num ∈ sweepNums hc) :
    1 ≤ num ∧ num ≤ hc * 4 := by
  have half : hc.tdiv 2 = hc / 2 := Int.tdiv_eq_ediv_of_nonneg (by omega)
  have positive : ¬hc ≤ 0 := by omega
  simp only [sweepNums, positive, if_false, half,
    toInt32_eq_self (by omega : -2 ^ 31 ≤ hc * 2) (by omega),
    toInt32_eq_self (by omega : -2 ^ 31 ≤ hc * 4) (by omega),
    List.mem_cons, List.not_mem_nil, or_false] at mem
  omega

/-- A case of the sweep is admissible unless it overflows. -/
theorem admissible_caseConfig {producerNum consumerNum most : Int}
    (rounds : 1 ≤ config.totalRounds) (records : 1 ≤ config.recordPerRound)
    (capacity : 1 ≤ config.capacity) (producers : 0 ≤ producerNum)
    (few : producerNum ≤ most) (consumers : 1 ≤ consumerNum)
    (fits : config.totalRounds * config.recordPerRound * most < 2 ^ 31) :
    Admissible (caseConfig config producerNum consumerNum) := by
  refine ⟨rounds, records, producers, consumers, capacity, ?_⟩
  have nonneg : 0 ≤ config.totalRounds * config.recordPerRound := by
    positivity
  exact lt_of_le_of_lt (mul_le_mul_of_nonneg_left few nonneg) fits

/-- **The sweep.**  Without overflow, every case completes exactly on a
machine with at least two processors. -/
theorem sweep_completes_iff {hc : Int} (positive : 1 ≤ hc)
    (rounds : 1 ≤ config.totalRounds) (records : 1 ≤ config.recordPerRound)
    (capacity : 1 ≤ config.capacity) (positiveStep : 1 ≤ config.reportStep)
    (isInt : config.reportStep < 2 ^ 31) (fewThreads : hc * 4 < 2 ^ 31)
    (fits : config.totalRounds * config.recordPerRound * (hc * 4) < 2 ^ 31) :
    (∀ producerNum ∈ sweepNums hc, ∀ consumerNum ∈ sweepNums hc,
      CaseCompletes (caseConfig config producerNum consumerNum)) ↔
        2 ≤ hc := by
  constructor
  · intro completes
    by_contra single
    obtain rfl : hc = 1 := by omega
    have admissible := admissible_caseConfig rounds records capacity
      (le_refl 0) (by omega) (le_refl 1) fits
    exact not_caseCompletes_of_no_producer admissible rfl
      (completes 0 (by decide) 1 (by decide))
  · intro several producerNum producerMem consumerNum consumerMem
    obtain ⟨producers, few⟩ :=
      mem_sweepNums_bounds several fewThreads producerMem
    obtain ⟨consumers, _⟩ :=
      mem_sweepNums_bounds several fewThreads consumerMem
    have admissible := admissible_caseConfig rounds records capacity
      (by omega) few consumers fits
    apply caseCompletes_of_pos admissible _ positiveStep isInt
    have count := admissible.messageCount_eq
    have product : 0 < config.totalRounds * config.recordPerRound *
        producerNum := by
      positivity
    have count : (messageCount (caseConfig config producerNum consumerNum) :
        Int) = config.totalRounds * config.recordPerRound * producerNum :=
      count
    omega

theorem sweep_completes_iff_default :
    (∀ producerNum ∈ sweepNums 2, ∀ consumerNum ∈ sweepNums 2,
      CaseCompletes (caseConfig {} producerNum consumerNum)) ↔
        (2 : Int) ≤ 2 :=
  sweep_completes_iff (by decide) (by decide) (by decide) (by decide)
    (by decide) (by decide) (by decide) (by decide)

/-- With one processor the sweep reaches a case without producers. -/
theorem sweep_fails_on_one_processor :
    ¬∀ producerNum ∈ sweepNums 1, ∀ consumerNum ∈ sweepNums 1,
      CaseCompletes (caseConfig {} producerNum consumerNum) := by
  intro completes
  have admissible : Admissible (caseConfig {} 0 1) := by
    constructor <;> decide
  exact not_caseCompletes_of_no_producer admissible rfl
    (completes 0 (by decide) 1 (by decide))

end ArrayBlockingQueue

end LatencyBenchmark
