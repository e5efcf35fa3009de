import LatencyBenchmark.MissingRecords
import LatencyBenchmark.OrderStatistics

/-!
# Missing records in the sorted row

`genLatencyReportBody` keeps missing records in the array of latencies, as
`Integer.MAX_VALUE` nanoseconds, and finds them again by that value after the
sort.  The sorted row ranks and marks them faithfully exactly when no longer
latency is sorted behind a missing record, and no sampled latency has that
value itself.
-/

namespace LatencyBenchmark

namespace LatencyBenchmarkHandle

/-- The elapsed time of a message as a number. -/
def exactElapsed (beg end_ : LatencyBenchmarkRecord) : Int :=
  (end_.sec - beg.sec) * 1000000000 + end_.nsec - beg.nsec

/-- The elapsed times of the messages that are not missing. -/
def measuredBy (elapsed : LatencyBenchmarkRecord → LatencyBenchmarkRecord →
    Int) (begs ends : List LatencyBenchmarkRecord) : List Int :=
  ((begs.zip ends).filter fun message => ¬IsMissing message.2).map
    fun message => elapsed message.1 message.2

/-- The number of missing end records. -/
def countMissing (ends : List LatencyBenchmarkRecord) : Nat :=
  ends.countP fun end_ => IsMissing end_

/-- All measured elapsed times fit a `long`. -/
def FitsLong (begs ends : List LatencyBenchmarkRecord) : Prop :=
  ∀ latency ∈ measuredBy exactElapsed begs ends,
    -2 ^ 63 ≤ latency ∧ latency < 2 ^ 63

/-- What follows the number in a column of the row. -/
def cellSeparator (config : LatencyBenchmarkConfig) (column : Nat) : String :=
  if column < (quantiles config.reportStep).length then "," else ""

/-- The array is sorted with the measured latencies `ranked` in front of the
missing records, and each cell of the row shows the latency at its rank, or
the marker when a missing record stands there. -/
structure RanksFaithfully (config : LatencyBenchmarkConfig)
    (begs ends : List LatencyBenchmarkRecord) (sorted : List Int)
    (row : List String) (ranked : List Int) : Prop where
  sorts : OrderStatistics.Sorts (measuredBy exactElapsed begs ends) ranked
  missingLast : sorted =
    ranked ++ List.replicate (countMissing ends) maxInt32
  marked : ∀ column rank : Nat,
    (sampledPositions config begs.length)[column]? = some rank →
      (row[column + 1]? = some "-" ↔ ranked.length ≤ rank)
  numeric : ∀ (column rank : Nat) (latency : Int),
    (sampledPositions config begs.length)[column]? = some rank →
      ranked[rank]? = some latency →
        row[column + 1]? =
          some (s!"{latency}" ++ cellSeparator config column)
  ascending : ∀ (low high lowRank highRank : Nat)
    (lowLatency highLatency : Int), low ≤ high →
      (sampledPositions config begs.length)[low]? = some lowRank →
      (sampledPositions config begs.length)[high]? = some highRank →
      ranked[lowRank]? = some lowLatency →
      ranked[highRank]? = some highLatency → lowLatency ≤ highLatency

/-- With a missing record no measured latency exceeds the marker value, and
no sampled rank belongs to measured latencies of that value. -/
structure DistinguishesMissing (config : LatencyBenchmarkConfig)
    (begs ends : List LatencyBenchmarkRecord) : Prop where
  noneAbove : countMissing ends = 0 ∨
    ∀ latency ∈ measuredBy exactElapsed begs ends, latency ≤ maxInt32
  noneSampledAt : ∀ rank ∈ sampledPositions config begs.length,
    rank < (measuredBy exactElapsed begs ends).countP (· < maxInt32) ∨
      (measuredBy exactElapsed begs ends).countP (· ≤ maxInt32) ≤ rank

/-! ## The shown values -/

theorem elapsedTime_eq_toInt64 (beg end_ : LatencyBenchmarkRecord) :
    elapsedTime beg end_ = toInt64 (exactElapsed beg end_) := by
  unfold elapsedTime exactElapsed toInt64
  rw [Int.bmod_sub_bmod, Int.bmod_mul_bmod, Int.add_sub_assoc,
    Int.bmod_add_bmod, ← Int.add_sub_assoc]

theorem measuredBy_exactElapsed {begs ends : List LatencyBenchmarkRecord}
    (fits : FitsLong begs ends) :
    measuredBy elapsedTime begs ends = measuredBy exactElapsed begs ends := by
  unfold measuredBy
  apply List.map_congr_left
  intro message mem
  obtain ⟨low, high⟩ := fits _ (List.mem_map_of_mem mem)
  rw [elapsedTime_eq_toInt64, toInt64_eq_self low high]

/-- The shown values are the measured latencies and one marker value for
each missing record. -/
theorem shown_perm {begs ends : List LatencyBenchmarkRecord}
    (sameLength : begs.length = ends.length) :
    (List.zipWith shownElapsed begs ends).Perm
      (measuredBy elapsedTime begs ends ++
        List.replicate (countMissing ends) maxInt32) := by
  induction begs generalizing ends with
  | nil =>
      cases ends with
      | nil => exact List.Perm.refl _
      | cons end_ ends => simp at sameLength
  | cons beg begs induction =>
      cases ends with
      | nil => simp at sameLength
      | cons end_ ends =>
          have later := induction (by simpa using sameLength)
          rw [List.zipWith_cons_cons]
          by_cases missing : IsMissing end_
          · have measured : measuredBy elapsedTime (beg :: begs)
                (end_ :: ends) = measuredBy elapsedTime begs ends := by
              simp [measuredBy, missing]
            have counted : countMissing (end_ :: ends) =
                countMissing ends + 1 := by
              simp [countMissing, missing]
            rw [measured, counted, shownElapsed, if_pos missing,
              List.replicate_succ]
            exact (later.cons maxInt32).trans List.perm_middle.symm
          · have measured : measuredBy elapsedTime (beg :: begs)
                (end_ :: ends) =
                  elapsedTime beg end_ :: measuredBy elapsedTime begs ends := by
              simp [measuredBy, missing]
            have counted : countMissing (end_ :: ends) =
                countMissing ends := by
              simp [countMissing, missing]
            rw [measured, counted, shownElapsed, if_neg missing]
            exact later.cons _

/-! ## The sampled columns -/

section

variable {config : LatencyBenchmarkConfig} {cnt column rank : Nat}

theorem sampledPositions_ascending (positiveStep : 1 ≤ config.reportStep)
    (isInt : config.reportStep < 2 ^ 31) (positive : 0 < cnt) :
    (sampledPositions config cnt).Pairwise (· ≤ ·) := by
  rw [sampledPositions, List.pairwise_append]
  refine ⟨?_, List.pairwise_singleton _ _, ?_⟩
  · rw [List.pairwise_map]
    apply (quantiles_ascending positiveStep isInt).imp_of_mem
    intro low high lowMem _ lt
    have nonneg := (mem_quantiles positiveStep isInt lowMem).1
    exact Int.toNat_le_toNat (quantilePosition_mono
      roundBinary64_hasDoubleError roundBinary64_roundsMonotonically nonneg
        lt.le (Int.natCast_nonneg cnt))
  · intro position positionMem last lastMem
    have inside := sampledPositions_lt positiveStep isInt positive position
      (List.mem_append_left _ positionMem)
    rw [List.mem_singleton.mp lastMem]
    omega

/-- Each cell of a row belongs to one sampled position. -/
theorem shownRow_getElem? {caseName : String} {avg : Int}
    {elapsed : List Int}
    (sampled : (sampledPositions config elapsed.length)[column]? =
      some rank) :
    (shownRow config caseName avg elapsed)[column + 1]? =
      some (if column < (quantiles config.reportStep).length then
          quantileCell (elapsed.getD rank 0)
        else lastCell (elapsed.getD rank 0)) := by
  rw [shownRow, List.getElem?_cons_succ]
  rw [sampledPositions] at sampled
  rcases Nat.lt_or_ge column (quantiles config.reportStep).length with
    quantile | last
  · rw [List.getElem?_append_left (by simpa using quantile),
      List.getElem?_map, Option.map_eq_some_iff] at sampled
    obtain ⟨i, iAt, rfl⟩ := sampled
    rw [List.getElem?_append_left (by simpa using quantile),
      List.getElem?_map, iAt, if_pos quantile]
    rfl
  · rw [List.getElem?_append_right (by simpa using last),
      List.length_map] at sampled
    obtain ⟨offset, rfl⟩ := Nat.exists_eq_add_of_le last
    rw [Nat.add_sub_cancel_left] at sampled
    have first : offset = 0 := by
      by_contra nonzero
      rw [List.getElem?_eq_none (by simp; omega)] at sampled
      cases sampled
    rw [first] at sampled ⊢
    have rankEq : elapsed.length - 1 = rank := by simpa using sampled
    rw [List.getElem?_append_right (by simp), List.length_map, if_neg
      (by omega), rankEq]
    simp

/-- A cell shows the marker exactly for the marker value, and else the
number. -/
theorem exists_cell {elapsed : List Int} (caseName : String) (avg : Int)
    (sampled : (sampledPositions config elapsed.length)[column]? =
      some rank) :
    ∃ cell, (shownRow config caseName avg elapsed)[column + 1]? = some cell ∧
      (elapsed.getD rank 0 = maxInt32 → cell = "-") ∧
      (elapsed.getD rank 0 ≠ maxInt32 → cell ≠ "-" ∧
        cell = s!"{elapsed.getD rank 0}" ++ cellSeparator config column) := by
  refine ⟨_, shownRow_getElem? sampled, ?_⟩
  unfold cellSeparator
  split
  · constructor
    · intro marker
      rw [quantileCell, if_pos marker]
    · intro different
      rw [quantileCell_elsewhere different]
      exact ⟨quantileText_ne_marker _, rfl⟩
  · constructor
    · intro marker
      rw [lastCell, if_pos marker]
    · intro different
      rw [lastCell_elsewhere different]
      exact ⟨lastText_ne_marker _, rfl⟩

end

/-! ## Exactly when the sorted row is faithful -/

section

variable {config : LatencyBenchmarkConfig}
  {begs ends : List LatencyBenchmarkRecord} {sorted ranked : List Int}

/-- Where no measured latency would be sorted behind a missing record, the
sorted array lists the measured latencies first. -/
theorem sorted_eq_append (sameLength : begs.length = ends.length)
    (fits : FitsLong begs ends)
    (sorts : OrderStatistics.Sorts (List.zipWith shownElapsed begs ends)
      sorted)
    (ranks : OrderStatistics.Sorts (measuredBy exactElapsed begs ends) ranked)
    (noneAbove : countMissing ends = 0 ∨
      ∀ latency ∈ measuredBy exactElapsed begs ends, latency ≤ maxInt32) :
    sorted = ranked ++ List.replicate (countMissing ends) maxInt32 := by
  have shown := shown_perm sameLength
  rw [measuredBy_exactElapsed fits] at shown
  have appended : OrderStatistics.Sorts
      (List.zipWith shownElapsed begs ends)
      (ranked ++ List.replicate (countMissing ends) maxInt32) := by
    constructor
    case perm => exact (ranks.perm.append_right _).trans shown.symm
    case ascending =>
      refine List.pairwise_append.mpr ⟨ranks.ascending,
        List.pairwise_replicate_of_refl, ?_⟩
      intro latency latencyMem marker markerMem
      obtain ⟨someMissing, rfl⟩ := List.mem_replicate.mp markerMem
      rcases noneAbove with noneMissing | below
      · exact absurd noneMissing someMissing
      · exact below latency (ranks.perm.mem_iff.mp latencyMem)
  exact sorts.unique appended

theorem getElem_append_missing {rank : Nat} (inside : rank < ranked.length)
    (missing : Nat) :
    (ranked ++ List.replicate missing maxInt32).getD rank 0 =
      ranked[rank] := by
  rw [List.getD_eq_getElem?_getD, List.getElem?_append_left inside,
    List.getElem?_eq_getElem inside, Option.getD_some]

theorem getD_append_missing_of_le {rank missing : Nat}
    (behind : ranked.length ≤ rank) (inside : rank < ranked.length + missing) :
    (ranked ++ List.replicate missing maxInt32).getD rank 0 = maxInt32 := by
  rw [List.getD_eq_getElem?_getD, List.getElem?_append_right behind,
    List.getElem?_replicate, if_pos (by omega), Option.getD_some]

/-- A later column does not sample a lower rank. -/
theorem sampledPositions_le (positiveStep : 1 ≤ config.reportStep)
    (isInt : config.reportStep < 2 ^ 31) {count : Nat} (positive : 0 < count)
    {low high lowRank highRank : Nat} (le : low ≤ high)
    (lowAt : (sampledPositions config count)[low]? = some lowRank)
    (highAt : (sampledPositions config count)[high]? = some highRank) :
    lowRank ≤ highRank := by
  obtain ⟨lowColumn, rfl⟩ := List.getElem?_eq_some_iff.mp lowAt
  obtain ⟨highColumn, rfl⟩ := List.getElem?_eq_some_iff.mp highAt
  rcases Nat.eq_or_lt_of_le le with rfl | lt
  · exact le_refl _
  · exact List.pairwise_iff_getElem.mp
      (sampledPositions_ascending positiveStep isInt positive) low high
        lowColumn highColumn lt

/-- With distinguishable records no sampled latency is the marker value. -/
theorem DistinguishesMissing.getElem_ne_maxInt32
    (distinguishes : DistinguishesMissing config begs ends)
    (ranks : OrderStatistics.Sorts (measuredBy exactElapsed begs ends) ranked)
    {rank : Nat} (mem : rank ∈ sampledPositions config begs.length)
    (inside : rank < ranked.length) : ranked[rank] ≠ maxInt32 := by
  have notSampledAt := distinguishes.noneSampledAt rank mem
  intro atMarker
  have atRank := (ranks.getElem_eq_iff inside).mp atMarker
  omega

/-- A faithfully ranked row comes from distinguishable records. -/
theorem RanksFaithfully.distinguishes {caseName : String} {avg : Int}
    (sortedLength : sorted.length = begs.length)
    (sorts : sorted.Pairwise (· ≤ ·))
    (faithful : RanksFaithfully config begs ends sorted
      (shownRow config caseName avg sorted) ranked) :
    DistinguishesMissing config begs ends := by
  have ranksLength := faithful.sorts.length_eq
  constructor
  case noneAbove =>
    rw [faithful.missingLast] at sorts
    by_cases noneMissing : countMissing ends = 0
    · exact Or.inl noneMissing
    · right
      intro latency mem
      exact (List.pairwise_append.mp sorts).2.2 latency
        (faithful.sorts.perm.mem_iff.mpr mem) maxInt32
          (List.mem_replicate.mpr ⟨noneMissing, rfl⟩)
  case noneSampledAt =>
    intro rank mem
    by_contra sampledAt
    have countLe : (measuredBy exactElapsed begs ends).countP
        (· ≤ maxInt32) ≤ (measuredBy exactElapsed begs ends).length :=
      List.countP_le_length
    have inside : rank < ranked.length := by omega
    have atMarker : ranked[rank] = maxInt32 :=
      (faithful.sorts.getElem_eq_iff inside).mpr (by omega)
    obtain ⟨column, columnInside, columnAt⟩ := List.mem_iff_getElem.mp mem
    have sampled : (sampledPositions config begs.length)[column]? =
        some rank := by
      rw [List.getElem?_eq_getElem columnInside, columnAt]
    obtain ⟨cell, cellAt, markerCell, _⟩ := exists_cell caseName avg
      (sortedLength ▸ sampled)
    have shown : sorted.getD rank 0 = maxInt32 := by
      rw [faithful.missingLast, getElem_append_missing inside, atMarker]
    rw [markerCell shown] at cellAt
    have behind := (faithful.marked column rank sampled).mp cellAt
    omega

/-- Distinguishable records are ranked faithfully. -/
theorem DistinguishesMissing.ranksFaithfully (caseName : String) (avg : Int)
    (positiveStep : 1 ≤ config.reportStep)
    (isInt : config.reportStep < 2 ^ 31)
    (sameLength : begs.length = ends.length) (nonempty : begs ≠ [])
    (fits : FitsLong begs ends)
    (sorts : OrderStatistics.Sorts (List.zipWith shownElapsed begs ends)
      sorted)
    (ranks : OrderStatistics.Sorts (measuredBy exactElapsed begs ends) ranked)
    (distinguishes : DistinguishesMissing config begs ends) :
    RanksFaithfully config begs ends sorted
      (shownRow config caseName avg sorted) ranked := by
  have positive := List.length_pos_of_ne_nil nonempty
  have split := sorted_eq_append sameLength fits sorts ranks
    distinguishes.noneAbove
  have sortedLength : sorted.length = begs.length := by
    rw [sorts.length_eq, List.length_zipWith, ← sameLength, Nat.min_self]
  have splitLength : ranked.length + countMissing ends = begs.length := by
    rw [← sortedLength, split, List.length_append, List.length_replicate]
  have positionMem : ∀ {column rank : Nat},
      (sampledPositions config begs.length)[column]? = some rank →
        rank ∈ sampledPositions config begs.length := List.mem_of_getElem?
  have measuredAt : ∀ {rank : Nat}, rank ∈ sampledPositions config
      begs.length → (inside : rank < ranked.length) →
        sorted.getD rank 0 = ranked[rank] ∧ ranked[rank] ≠ maxInt32 := by
    intro rank mem inside
    rw [split, getElem_append_missing inside]
    exact ⟨rfl, distinguishes.getElem_ne_maxInt32 ranks mem inside⟩
  constructor
  case sorts => exact ranks
  case missingLast => exact split
  case marked =>
    intro column rank sampled
    have mem := positionMem sampled
    obtain ⟨cell, cellAt, markerCell, numberCell⟩ := exists_cell caseName avg
      (sortedLength ▸ sampled)
    rw [cellAt, Option.some.injEq]
    rcases Nat.lt_or_ge rank ranked.length with inside | behind
    · obtain ⟨shown, different⟩ := measuredAt mem inside
      have notMarker := (numberCell (shown ▸ different)).1
      constructor
      · intro marker
        exact absurd marker notMarker
      · intro behind
        omega
    · have inside := sampledPositions_lt positiveStep isInt positive rank mem
      have shown : sorted.getD rank 0 = maxInt32 := by
        rw [split, getD_append_missing_of_le behind (by omega)]
      exact iff_of_true (markerCell shown) behind
  case numeric =>
    intro column rank latency sampled latencyAt
    obtain ⟨inside, rfl⟩ := List.getElem?_eq_some_iff.mp latencyAt
    obtain ⟨cell, cellAt, _, numberCell⟩ := exists_cell caseName avg
      (sortedLength ▸ sampled)
    obtain ⟨shown, different⟩ := measuredAt (positionMem sampled) inside
    rw [cellAt, (numberCell (shown ▸ different)).2, shown]
  case ascending =>
    intro low high lowRank highRank lowLatency highLatency le lowAt highAt
      lowLatencyAt highLatencyAt
    obtain ⟨lowInside, rfl⟩ := List.getElem?_eq_some_iff.mp lowLatencyAt
    obtain ⟨highInside, rfl⟩ := List.getElem?_eq_some_iff.mp highLatencyAt
    have rankLe : lowRank ≤ highRank :=
      sampledPositions_le positiveStep isInt positive le lowAt highAt
    exact ranks.getElem_le_getElem rankLe lowInside highInside

end

/-- **Missing records in the sorted row.**  Over complete nonempty arrays the
array that is sorted is the one measured, and the sorted row ranks the
latencies and marks the missing records faithfully exactly when the records
can be distinguished. -/
theorem genLatencyReportBody_ranksFaithfully_iff
    {handle : LatencyBenchmarkHandle} {latencyPair : Int × Int}
    {config : LatencyBenchmarkConfig} {caseName : String}
    {begs ends : List LatencyBenchmarkRecord}
    (positiveStep : 1 ≤ config.reportStep)
    (isInt : config.reportStep < 2 ^ 31)
    (begRecords : handle.getActionTimestampRecords latencyPair.1 =
      some (begs.map some))
    (endRecords : handle.getActionTimestampRecords latencyPair.2 =
      some (ends.map some))
    (sameLength : begs.length = ends.length) (nonempty : begs ≠ [])
    (fits : FitsLong begs ends) :
    ∃ (elapsed : List Int) (sum : Int) (row : List String),
      measure (begs.map some) (ends.map some) 0 = .ok (elapsed, sum) ∧
        handle.genLatencyReportBody latencyPair config caseName true =
          .ok row ∧
        ((∃ ranked, RanksFaithfully config begs ends elapsed.mergeSort row
            ranked) ↔
          DistinguishesMissing config begs ends) := by
  obtain ⟨sum, measured⟩ := measure_map_some begs ends sameLength 0
  obtain ⟨avg, written⟩ := genLatencyReportBody_eq_ok caseName true
    positiveStep isInt begRecords endRecords sameLength nonempty
  have sorts := OrderStatistics.sorts_mergeSort
    (List.zipWith shownElapsed begs ends)
  refine ⟨_, sum, _, measured, written, ?_⟩
  constructor
  · rintro ⟨ranked, faithful⟩
    have sortedLength := sorts.length_eq.trans (List.length_zipWith.trans
      (by rw [← sameLength, Nat.min_self]))
    exact faithful.distinguishes sortedLength sorts.ascending
  · intro distinguishes
    exact ⟨_, distinguishes.ranksFaithfully caseName avg positiveStep isInt
      sameLength nonempty fits sorts (OrderStatistics.sorts_mergeSort _)⟩

theorem exists_recordedHandle_three :
    ∃ handle, recordedHandle 3 (0, 1) ("write", "read") threeBegs
        (threeEnds.map some) = .ok handle ∧
      handle.getActionTimestampRecords 0 = some (threeBegs.map some) ∧
      handle.getActionTimestampRecords 1 = some (threeEnds.map some) :=
  ⟨_, rfl, rfl, rfl⟩

/-- The theorem on three messages, one of them missing. -/
theorem genLatencyReportBody_ranksFaithfully_iff_three :
    ∃ handle, recordedHandle 3 (0, 1) ("write", "read") threeBegs
        (threeEnds.map some) = .ok handle ∧
      ∃ (elapsed : List Int) (sum : Int) (row : List String),
        measure (threeBegs.map some) (threeEnds.map some) 0 =
            .ok (elapsed, sum) ∧
          handle.genLatencyReportBody (0, 1) {} "by elapsed" true =
            .ok row ∧
          ((∃ ranked, RanksFaithfully {} threeBegs threeEnds
              elapsed.mergeSort row ranked) ↔
            DistinguishesMissing {} threeBegs threeEnds) := by
  obtain ⟨handle, recorded, begRecords, endRecords⟩ :=
    exists_recordedHandle_three
  have fits : FitsLong threeBegs threeEnds := by
    unfold FitsLong
    decide
  have positiveStep : 1 ≤ ({} : LatencyBenchmarkConfig).reportStep := by
    decide
  have isInt : ({} : LatencyBenchmarkConfig).reportStep < 2 ^ 31 := by decide
  exact ⟨handle, recorded, genLatencyReportBody_ranksFaithfully_iff
    positiveStep isInt begRecords endRecords rfl (List.cons_ne_nil _ _) fits⟩

/-- A latency of three seconds beside a missing record: the missing record is
sorted in front of the latency. -/
theorem long_latency_behind_missing :
    ∃ handle, recordedHandle 2 (0, 1) ("write", "read") [{}, {}]
        [some { sec := 3 }, some {}] = .ok handle ∧
      FitsLong [{}, {}] [{ sec := 3 }, {}] ∧
      ∃ (elapsed : List Int) (sum : Int) (row : List String),
        measure [some {}, some {}] [some { sec := 3 }, some {}] 0 =
            .ok (elapsed, sum) ∧
          handle.genLatencyReportBody (0, 1) {} "by elapsed" true =
            .ok row ∧
          elapsed.mergeSort = [maxInt32, 3000000000] ∧
          ¬∃ ranked, RanksFaithfully {} [{}, {}] [{ sec := 3 }, {}]
            elapsed.mergeSort row ranked := by
  obtain ⟨handle, recorded, begRecords, endRecords⟩ :
      ∃ handle, recordedHandle 2 (0, 1) ("write", "read") [{}, {}]
          [some { sec := 3 }, some {}] = .ok handle ∧
        handle.getActionTimestampRecords (0, 1).1 =
          some ([{}, {}].map some) ∧
        handle.getActionTimestampRecords (0, 1).2 =
          some ([{ sec := 3 }, {}].map some) :=
    ⟨_, rfl, rfl, rfl⟩
  have fits : FitsLong [{}, {}] [{ sec := 3 }, {}] := by
    unfold FitsLong
    decide
  have positiveStep : 1 ≤ ({} : LatencyBenchmarkConfig).reportStep := by
    decide
  have isInt : ({} : LatencyBenchmarkConfig).reportStep < 2 ^ 31 := by decide
  have sameLength : ([{}, {}] : List LatencyBenchmarkRecord).length =
      ([{ sec := 3 }, {}] : List LatencyBenchmarkRecord).length :=
    rfl
  obtain ⟨avg, written⟩ : ∃ avg, handle.genLatencyReportBody (0, 1) {}
      "by elapsed" true = .ok (shownRow {} "by elapsed" avg
        [(3000000000 : Int), maxInt32].mergeSort) :=
    genLatencyReportBody_eq_ok _ true positiveStep isInt begRecords
      endRecords sameLength (List.cons_ne_nil _ _)
  have sorts := OrderStatistics.sorts_mergeSort
    [(3000000000 : Int), maxInt32]
  have sorted : [(3000000000 : Int), maxInt32].mergeSort =
      [maxInt32, 3000000000] :=
    sorts.unique ⟨List.Perm.swap _ _ _, by decide⟩
  refine ⟨handle, recorded, fits, [3000000000, maxInt32], 3000000000, _,
    rfl, written, sorted, ?_⟩
  rintro ⟨ranked, faithful⟩
  have distinguishes := faithful.distinguishes sorts.length_eq
    sorts.ascending
  rcases distinguishes.noneAbove with noneMissing | below
  · exact absurd noneMissing (by decide)
  · exact absurd (below 3000000000 (by decide)) (by decide)

end LatencyBenchmarkHandle

end LatencyBenchmark
