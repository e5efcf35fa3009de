import LatencyBenchmark.OrderStatistics
import LatencyBenchmark.ThreadTransReport
import LatencyBenchmark.WsDisconnect

/-!
# Sorted rows

The sorted rows of the Go and the C++ reports show order statistics: the cell
of a quantile is the sample whose rank is the sampled position, for every
rounding of the position that keeps the order of its arguments.
-/

namespace LatencyBenchmark

namespace WsReport

/-- Double arithmetic that converts counts exactly, as it does below
`2 ^ 53`. -/
def exactCounts (rounding : ℚ → ℚ) : DoubleArithmetic where
  rounding := rounding
  ofInt := fun value => value

theorem exactCounts_ofInt (rounding : ℚ → ℚ) (value : Int) :
    (exactCounts rounding).ofInt value = value :=
  rfl

/-- The position sampled for column `i`. -/
theorem samplePosition_exactCounts (rounding : ℚ → ℚ) (i cnt : Int) :
    samplePosition (exactCounts rounding) i cnt =
      truncateDouble (rounding (rounding (i / 100) * cnt)) :=
  rfl

theorem exactCounts_accurate {rounding : ℚ → ℚ}
    (doubleError : HasDoubleError rounding) :
    (exactCounts rounding).Accurate where
  rounding := doubleError
  ofInt := by
    intro value
    rw [exactCounts_ofInt, sub_self, abs_zero]
    positivity

/-- The row over `sorted` shows the order statistics of the samples. -/
structure ShowsOrderStatistics (arithmetic : DoubleArithmetic) (step : Int)
    (samples sorted : List Int) : Prop where
  sorts : OrderStatistics.Sorts samples sorted
  inside : ∀ i ∈ columns step,
    0 ≤ samplePosition arithmetic i samples.length ∧
      samplePosition arithmetic i samples.length < samples.length
  ascending : ((columns step).map (cellAt arithmetic sorted) ++
    [lastAt sorted]).Pairwise (· ≤ ·)
  minimum : ∃ least,
    ((columns step).map (cellAt arithmetic sorted)).head? = some least ∧
      least ∈ samples ∧ ∀ sample ∈ samples, least ≤ sample
  maximum : lastAt sorted ∈ samples ∧ ∀ sample ∈ samples,
    sample ≤ lastAt sorted
  ranks : ∀ i ∈ columns step, OrderStatistics.HasRank samples
    (samplePosition arithmetic i samples.length).toNat
      (cellAt arithmetic sorted i)

variable {arithmetic : DoubleArithmetic} {step : Int}
  {samples sorted : List Int}

/-- A later column is not sampled at an earlier position. -/
theorem samplePosition_mono (accurate : arithmetic.Accurate)
    (monotone : RoundsMonotonically arithmetic.rounding) {low high cnt : Int}
    (nonneg : 0 ≤ low) (le : low ≤ high) (cntNonneg : 0 ≤ cnt) :
    samplePosition arithmetic low cnt ≤
      samplePosition arithmetic high cnt := by
  have lowNonneg : (0 : ℚ) ≤ low := by exact_mod_cast nonneg
  have lowLe : (low : ℚ) ≤ high := by exact_mod_cast le
  have count : (0 : ℚ) ≤ cnt := by exact_mod_cast cntNonneg
  have converted : 0 ≤ arithmetic.ofInt cnt := by
    have error := accurate.ofInt cnt
    rw [abs_of_nonneg count, abs_le] at error
    have small : (2⁻¹ : ℚ) ^ 53 * cnt ≤ 1 * cnt :=
      mul_le_mul_of_nonneg_right (by norm_num) count
    linarith only [error.1, small]
  exact monotone.truncate_share_le accurate.rounding (by linarith)
    (by linarith) converted

/-- The first column samples the first position. -/
theorem samplePosition_zero (accurate : arithmetic.Accurate) (cnt : Int) :
    samplePosition arithmetic 0 cnt = 0 := by
  have zero := accurate.rounding.rounding_zero
  simp [samplePosition, zero, truncateDouble]

theorem cellAt_eq_getElem {i : Int}
    (inside : (samplePosition arithmetic i sorted.length).toNat <
      sorted.length) :
    cellAt arithmetic sorted i =
      sorted[(samplePosition arithmetic i sorted.length).toNat] := by
  rw [cellAt, List.getD_eq_getElem?_getD, List.getElem?_eq_getElem inside,
    Option.getD_some]

theorem lastAt_eq_getElem (inside : sorted.length - 1 < sorted.length) :
    lastAt sorted = sorted[sorted.length - 1] := by
  rw [lastAt, List.getD_eq_getElem?_getD, List.getElem?_eq_getElem inside,
    Option.getD_some]

/-- The first column shows the first entry. -/
theorem cellAt_zero (accurate : arithmetic.Accurate)
    (positive : 0 < sorted.length) :
    cellAt arithmetic sorted 0 = sorted[0] := by
  have position := samplePosition_zero accurate sorted.length
  have inside : (samplePosition arithmetic 0 sorted.length).toNat <
      sorted.length := by
    rw [position]
    exact positive
  rw [cellAt_eq_getElem inside]
  congr 1
  rw [position]
  rfl

/-- A row over a sorted nonempty array shows order statistics. -/
theorem showsOrderStatistics (accurate : arithmetic.Accurate)
    (monotone : RoundsMonotonically arithmetic.rounding)
    (positive : 1 ≤ step) (nonempty : samples ≠ [])
    (sorts : OrderStatistics.Sorts samples sorted) :
    ShowsOrderStatistics arithmetic step samples sorted := by
  have sortedLength := sorts.length_eq
  have lengthPos : 0 < sorted.length := by
    rw [sortedLength]
    exact List.length_pos_of_ne_nil nonempty
  have lastInside : sorted.length - 1 < sorted.length := by omega
  have inside : ∀ i ∈ columns step,
      0 ≤ samplePosition arithmetic i samples.length ∧
        samplePosition arithmetic i samples.length < samples.length := by
    intro i mem
    obtain ⟨nonneg, below⟩ := mem_columns positive mem
    exact samplePosition_bounds accurate nonneg below (by omega)
  have indexInside : ∀ i ∈ columns step,
      (samplePosition arithmetic i sorted.length).toNat < sorted.length := by
    intro i mem
    obtain ⟨low, high⟩ := inside i mem
    rw [sortedLength]
    omega
  constructor
  case sorts => exact sorts
  case inside => exact inside
  case ascending =>
    rw [List.pairwise_append, List.pairwise_map]
    refine ⟨?_, List.pairwise_singleton _ _, ?_⟩
    · apply (columnsFrom_ascending positive 100 0).imp_of_mem
      intro low high lowMem highMem lt
      rw [cellAt_eq_getElem (indexInside low lowMem),
        cellAt_eq_getElem (indexInside high highMem)]
      apply sorts.getElem_le_getElem
      exact Int.toNat_le_toNat (samplePosition_mono accurate monotone
        (mem_columns positive lowMem).1 lt.le (Int.natCast_nonneg _))
    · intro cell cellMem last lastMem
      obtain ⟨i, mem, rfl⟩ := List.mem_map.mp cellMem
      rw [List.mem_singleton.mp lastMem, lastAt_eq_getElem lastInside,
        cellAt_eq_getElem (indexInside i mem)]
      apply sorts.getElem_le_getElem
      have := indexInside i mem
      omega
  case minimum =>
    refine ⟨sorted[0], ?_, sorts.perm.mem_iff.mp (List.getElem_mem _),
      fun sample mem => sorts.first_le mem lengthPos⟩
    rw [List.head?_map, head_columns, Option.map_some,
      cellAt_zero accurate lengthPos]
  case maximum =>
    rw [lastAt_eq_getElem lastInside]
    exact ⟨sorts.perm.mem_iff.mp (List.getElem_mem _),
      fun sample mem => sorts.le_last mem lastInside⟩
  case ranks =>
    intro i mem
    rw [cellAt_eq_getElem (indexInside i mem), ← sortedLength]
    exact sorts.hasRank (indexInside i mem)

/-- **Sorted rows.**  For every rounding with the error of a double that
keeps the order, the Go and the C++ websocket reports have one row over the
samples in arrival order and one over the sorted samples, and the sorted row,
like the sorted row of the channel benchmark, shows order statistics. -/
theorem reports_showOrderStatistics {rounding : ℚ → ℚ}
    (doubleError : HasDoubleError rounding)
    (monotone : RoundsMonotonically rounding) {samples : List Int}
    (nonempty : samples ≠ []) {iterations : Nat}
    (enough : 100 ≤ iterations) :
    (∀ config : WsConfig, 1 ≤ config.reportStep →
      config.reportStep < 2 ^ 63 → ∃ (leads : Bool → String) (sorted : _),
        Golang.genWsReport (exactCounts rounding) true samples samples.length
            config iterations =
          .ok (headTexts ++ columnTexts config.reportStep ++ ["100", "\n"] ++
            rowTexts (exactCounts rounding) config.reportStep (leads false)
              samples ++
            rowTexts (exactCounts rounding) config.reportStep (leads true)
              sorted) ∧
          ShowsOrderStatistics (exactCounts rounding) config.reportStep
            samples sorted) ∧
    (∀ config : WsConfig, 1 ≤ config.reportStep →
      config.reportStep < 2 ^ 31 → ∃ (leads : Bool → String) (sorted : _),
        Cpp.genWsReport (exactCounts rounding) true samples samples.length
            config iterations =
          .ok (headTexts ++ columnTexts config.reportStep ++ ["100", "\n"] ++
            rowTexts (exactCounts rounding) config.reportStep (leads false)
              samples ++
            rowTexts (exactCounts rounding) config.reportStep (leads true)
              sorted) ∧
          ShowsOrderStatistics (exactCounts rounding) config.reportStep
            samples sorted) ∧
    (∀ (config : ThreadTransReport.ThreadTransConfig)
      (blocks : List ThreadTransReport.Stamps) (caseName : String)
      (cnt tsBeginIdx tsEndIdx : Nat), 1 ≤ config.reportStep →
      config.reportStep < 2 ^ 63 →
      ThreadTransReport.fillElapseds blocks cnt tsBeginIdx tsEndIdx =
        .ok samples →
      ∃ (lead : String) (sorted : _),
        ThreadTransReport.genThreadLantencyReportsBody (exactCounts rounding)
            config blocks caseName cnt tsBeginIdx tsEndIdx true iterations =
          .ok (rowTexts (exactCounts rounding) config.reportStep lead
            sorted) ∧
          ShowsOrderStatistics (exactCounts rounding) config.reportStep
            samples sorted) := by
  have accurate := exactCounts_accurate doubleError
  have sorts := OrderStatistics.sorts_mergeSort samples
  refine ⟨?_, ?_, ?_⟩
  · intro config positive isInt
    obtain ⟨leads, written⟩ := Golang.exists_genWsReport_eq_ok accurate true
      positive isInt enough nonempty
    exact ⟨leads, _, written,
      showsOrderStatistics accurate monotone positive nonempty sorts⟩
  · intro config positive isInt
    obtain ⟨leads, written⟩ := Cpp.exists_genWsReport_eq_ok accurate positive
      isInt enough nonempty
    exact ⟨leads, _, written,
      showsOrderStatistics accurate monotone positive nonempty sorts⟩
  · intro config blocks caseName cnt tsBeginIdx tsEndIdx positive isInt filled
    have written := ThreadTransReport.genThreadLantencyReportsBody_eq_ok
      accurate positive isInt enough caseName true filled nonempty
    exact ⟨_, _, written,
      showsOrderStatistics accurate monotone positive nonempty sorts⟩

theorem reports_showOrderStatistics_three :
    ∃ (goLeads cppLeads : Bool → String) (lead : String)
      (goSorted cppSorted sorted : List Int),
      (Golang.genWsReport (exactCounts roundBinary64) true [30, 10, 20] 3
          (oneMessageConfig "cts") 100 =
        .ok (headTexts ++ columnTexts 10 ++ ["100", "\n"] ++
          rowTexts (exactCounts roundBinary64) 10 (goLeads false)
            [30, 10, 20] ++
          rowTexts (exactCounts roundBinary64) 10 (goLeads true) goSorted) ∧
        ShowsOrderStatistics (exactCounts roundBinary64) 10 [30, 10, 20]
          goSorted) ∧
      (Cpp.genWsReport (exactCounts roundBinary64) true [30, 10, 20] 3
          (oneMessageConfig "cts") 100 =
        .ok (headTexts ++ columnTexts 10 ++ ["100", "\n"] ++
          rowTexts (exactCounts roundBinary64) 10 (cppLeads false)
            [30, 10, 20] ++
          rowTexts (exactCounts roundBinary64) 10 (cppLeads true)
            cppSorted) ∧
        ShowsOrderStatistics (exactCounts roundBinary64) 10 [30, 10, 20]
          cppSorted) ∧
      ThreadTransReport.genThreadLantencyReportsBody
          (exactCounts roundBinary64) ⟨3, 1, 0, 25⟩
          [fun k => k * 30, fun k => k * 10, fun k => k * 20] "1w1r" 3 0 1
          true 100 =
        .ok (rowTexts (exactCounts roundBinary64) 25 lead sorted) ∧
      ShowsOrderStatistics (exactCounts roundBinary64) 25 [30, 10, 20]
        sorted := by
  obtain ⟨golang, cpp, body⟩ := reports_showOrderStatistics
    roundBinary64_hasDoubleError roundBinary64_roundsMonotonically
    (List.cons_ne_nil 30 [10, 20]) (le_refl 100)
  obtain ⟨goLeads, goSorted, go⟩ := golang (oneMessageConfig "cts")
    (by decide) (by decide)
  obtain ⟨cppLeads, cppSorted, cpp⟩ := cpp (oneMessageConfig "cts")
    (by decide) (by decide)
  obtain ⟨lead, sorted, row, order⟩ := body ⟨3, 1, 0, 25⟩
    [fun k => k * 30, fun k => k * 10, fun k => k * 20] "1w1r" 3 0 1
    (by decide) (by decide) rfl
  exact ⟨goLeads, cppLeads, lead, goSorted, cppSorted, sorted, go, cpp,
    row, order⟩

end WsReport

end LatencyBenchmark
