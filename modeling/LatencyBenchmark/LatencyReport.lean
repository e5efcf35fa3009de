import LatencyBenchmark.ExceptTraversal
import LatencyBenchmark.Handle

/-!
# When the reports complete

The positions sampled by a report row lie inside the array, whatever the
rounding of the double arithmetic, so a report over arrays without null slots
completes.  It does not complete when a slot is null, which is how
`addAction` leaves the slots of messages that were never read, while
`genLatencyReportBody` looks for a record whose fields are zero.
-/

namespace LatencyBenchmark

namespace LatencyBenchmarkHandle

/-! ## Sampled positions -/

/-- A loop that starts at zero, or whose step is below its bound, adds
without wrapping as long as it runs. -/
private theorem toInt32_loop_step {step i : Int} (positive : 1 ≤ step)
    (isInt : step < 2 ^ 31) (nonneg : 0 ≤ i) (below : i < 100)
    (early : i = 0 ∨ step < 100) : toInt32 (i + step) = i + step := by
  apply toInt32_eq_self <;> omega

theorem mem_loopValues {step : Int} (positive : 1 ≤ step)
    (isInt : step < 2 ^ 31) {count : Nat} {i value : Int} (nonneg : 0 ≤ i)
    (early : i = 0 ∨ step < 100) (mem : value ∈ loopValues step count i) :
    0 ≤ value ∧ value < 100 := by
  induction count generalizing i with
  | zero => simp [loopValues] at mem
  | succ count induction =>
      unfold loopValues at mem
      split at mem
      · next below =>
          rcases List.mem_cons.mp mem with rfl | later
          · exact ⟨nonneg, below⟩
          · rw [toInt32_loop_step positive isInt nonneg below early] at later
            by_cases small : step < 100
            · exact induction (by omega) (Or.inr small) later
            · cases count <;> simp [loopValues] at later
              omega
      · simp at mem

/-- Every quantile lies in `[0, 100)`. -/
theorem mem_quantiles {step value : Int} (positive : 1 ≤ step)
    (isInt : step < 2 ^ 31) (mem : value ∈ quantiles step) :
    0 ≤ value ∧ value < 100 :=
  mem_loopValues positive isInt (le_refl 0) (Or.inl rfl) mem

theorem le_of_mem_loopValues {step : Int} (positive : 1 ≤ step)
    (isInt : step < 2 ^ 31) {count : Nat} {i value : Int} (nonneg : 0 ≤ i)
    (early : i = 0 ∨ step < 100) (mem : value ∈ loopValues step count i) :
    i ≤ value := by
  induction count generalizing i with
  | zero => simp [loopValues] at mem
  | succ count induction =>
      unfold loopValues at mem
      split at mem
      · next below =>
          rcases List.mem_cons.mp mem with rfl | later
          · exact le_refl value
          · rw [toInt32_loop_step positive isInt nonneg below early] at later
            by_cases small : step < 100
            · have := induction (by omega) (Or.inr small) later
              omega
            · cases count <;> simp [loopValues] at later
              omega
      · simp at mem

/-- The loop counts upwards. -/
theorem loopValues_ascending {step : Int} (positive : 1 ≤ step)
    (isInt : step < 2 ^ 31) {count : Nat} {i : Int} (nonneg : 0 ≤ i)
    (early : i = 0 ∨ step < 100) :
    (loopValues step count i).Pairwise (· < ·) := by
  induction count generalizing i with
  | zero => exact List.Pairwise.nil
  | succ count induction =>
      unfold loopValues
      split
      · next below =>
          rw [toInt32_loop_step positive isInt nonneg below early]
          by_cases small : step < 100
          · refine List.pairwise_cons.mpr
              ⟨?_, induction (by omega) (Or.inr small)⟩
            intro value mem
            have := le_of_mem_loopValues positive isInt
              (by omega : 0 ≤ i + step) (Or.inr small) mem
            omega
          · have finished : ¬ i + step < 100 := by omega
            cases count <;> simp [loopValues, finished]
      · exact List.Pairwise.nil

theorem quantiles_ascending {step : Int} (positive : 1 ≤ step)
    (isInt : step < 2 ^ 31) : (quantiles step).Pairwise (· < ·) :=
  loopValues_ascending positive isInt (le_refl 0) (Or.inl rfl)

/-- For a positive step the loop ends within 100 iterations, so `quantiles`
lists all its values. -/
theorem loopValues_eq_quantiles {step : Int} (positive : 1 ≤ step)
    (isInt : step < 2 ^ 31) {count : Nat} (enough : 100 ≤ count) :
    loopValues step count 0 = quantiles step := by
  have ends : ∀ (first second : Nat) (i : Int), 0 ≤ i →
      (i = 0 ∨ step < 100) → 100 - i ≤ first → 100 - i ≤ second →
        loopValues step first i = loopValues step second i := by
    intro first
    induction first with
    | zero =>
        intro second i nonneg _ past _
        cases second with
        | zero => rfl
        | succ second =>
            have finished : ¬ i < 100 := by omega
            simp [loopValues, finished]
    | succ first induction =>
        intro second i nonneg early enoughFirst enoughSecond
        cases second with
        | zero =>
            have finished : ¬ i < 100 := by omega
            simp [loopValues, finished]
        | succ second =>
            unfold loopValues
            split
            · next below =>
                rw [toInt32_loop_step positive isInt nonneg below early]
                by_cases small : step < 100
                · rw [induction second (i + step) (by omega) (Or.inr small)
                    (by omega) (by omega)]
                · have finished : ¬ i + step < 100 := by omega
                  cases first <;> cases second <;> simp [loopValues, finished]
            · rfl
  exact ends count 100 0 (le_refl 0) (Or.inl rfl) (by omega) (by omega)

/-- The sampled position lies inside an array of `cnt` elements, for every
rounding with the relative error of a double. -/
theorem quantilePosition_bounds {rounding : ℚ → ℚ}
    (doubleError : HasDoubleError rounding) {i cnt : Int} (nonneg : 0 ≤ i)
    (below : i < 100) (positive : 1 ≤ cnt) :
    0 ≤ quantilePosition rounding i cnt ∧
      quantilePosition rounding i cnt < cnt := by
  obtain ⟨shareNonneg, shareLe⟩ := quantile_share_bounds nonneg below
  -- The conversion of an `int` to `double` is exact.
  have exact : |(cnt : ℚ) - cnt| ≤ 2⁻¹ ^ 53 * |(cnt : ℚ)| := by
    rw [sub_self, abs_zero]
    positivity
  exact doubleError.truncate_share_bounds shareNonneg shareLe positive exact

/-- A later quantile is not sampled at an earlier position. -/
theorem quantilePosition_mono {rounding : ℚ → ℚ}
    (doubleError : HasDoubleError rounding)
    (monotone : RoundsMonotonically rounding) {low high cnt : Int}
    (nonneg : 0 ≤ low) (le : low ≤ high) (cntNonneg : 0 ≤ cnt) :
    quantilePosition rounding low cnt ≤ quantilePosition rounding high cnt := by
  have shareNonneg : (0 : ℚ) ≤ low / 100 := by
    have : (0 : ℚ) ≤ low := by exact_mod_cast nonneg
    linarith
  have shareLe : (low : ℚ) / 100 ≤ high / 100 := by
    have : (low : ℚ) ≤ high := by exact_mod_cast le
    linarith
  exact monotone.truncate_share_le doubleError shareNonneg shareLe
    (by exact_mod_cast cntNonneg)

/-! ## Rows over complete arrays -/

/-- The value a row shows for a message: the elapsed time, or the marker
value when the end record is missing. -/
def shownElapsed (beg end_ : LatencyBenchmarkRecord) : Int :=
  if IsMissing end_ then maxInt32 else elapsedTime beg end_

/-- Over less than `2 ^ 63` nanoseconds no elapsed time wraps. -/
theorem elapsedTime_eq {beg end_ : LatencyBenchmarkRecord}
    (begSec : beg.sec = 0) (endSec : end_.sec = 0)
    (ordered : beg.nsec ≤ end_.nsec) (near : end_.nsec < beg.nsec + 2 ^ 63) :
    elapsedTime beg end_ = end_.nsec - beg.nsec := by
  have zero : toInt64 (toInt64 (0 - 0) * 1000000000) = 0 := by decide
  unfold elapsedTime
  rw [begSec, endSec, zero, Int.zero_add, toInt64_toInt64_sub]
  exact toInt64_eq_self (by omega) (by omega)

theorem shownElapsed_nonneg {beg end_ : LatencyBenchmarkRecord}
    (begSec : beg.sec = 0) (endSec : end_.sec = 0)
    (ordered : beg.nsec ≤ end_.nsec) (near : end_.nsec < beg.nsec + 2 ^ 63) :
    0 ≤ shownElapsed beg end_ := by
  unfold shownElapsed
  split
  · decide
  · rw [elapsedTime_eq begSec endSec ordered near]
    omega

/-- Over arrays without null slots the measuring loop completes. -/
theorem measure_map_some (begs ends : List LatencyBenchmarkRecord)
    (sameLength : begs.length = ends.length) (sum : Int) :
    ∃ total, measure (begs.map some) (ends.map some) sum =
      .ok (List.zipWith shownElapsed begs ends, total) := by
  induction begs generalizing ends sum with
  | nil =>
      refine ⟨sum, ?_⟩
      cases ends <;> rfl
  | cons beg begs induction =>
      cases ends with
      | nil => simp at sameLength
      | cons end_ ends =>
          have tailLength : begs.length = ends.length := by
            simpa using sameLength
          by_cases missing : IsMissing end_
          · obtain ⟨total, later⟩ := induction ends tailLength sum
            refine ⟨total, ?_⟩
            simp only [List.map_cons, measure, missing, if_true, later,
              List.zipWith_cons_cons, shownElapsed]
            rfl
          · obtain ⟨total, later⟩ :=
              induction ends tailLength (toInt64 (sum + elapsedTime beg end_))
            refine ⟨total, ?_⟩
            simp only [List.map_cons, measure, missing, if_false, later,
              List.zipWith_cons_cons, shownElapsed]
            rfl

/-- Reading inside the array succeeds. -/
theorem elapsedAt_eq_ok {elapsed : List Int} {index : Int}
    (nonneg : 0 ≤ index) (inside : index < elapsed.length) :
    elapsedAt elapsed index = .ok (elapsed.getD index.toNat 0) := by
  have bound : index.toNat < elapsed.length := by omega
  rw [elapsedAt, if_neg (by omega), List.getD_eq_getElem?_getD,
    List.getElem?_eq_getElem bound]
  rfl

/-- The cells of a row over a nonempty array. -/
theorem rowCells_eq_ok {config : LatencyBenchmarkConfig} {elapsed : List Int}
    (positiveStep : 1 ≤ config.reportStep)
    (isInt : config.reportStep < 2 ^ 31) (nonempty : elapsed ≠ []) :
    rowCells config elapsed =
      .ok (((quantiles config.reportStep).map fun i =>
          quantileCell (elapsed.getD
            (quantilePosition roundBinary64 i elapsed.length).toNat 0)) ++
        [lastCell (elapsed.getD (elapsed.length - 1) 0), "\n"]) := by
  have lengthPos : 0 < elapsed.length := List.length_pos_of_ne_nil nonempty
  have sampled : (quantiles config.reportStep).mapM (fun i => do
        let value ← elapsedAt elapsed
          (quantilePosition roundBinary64 i elapsed.length)
        return quantileCell value : Int → Except JavaException String) =
      .ok ((quantiles config.reportStep).map fun i =>
        quantileCell (elapsed.getD
          (quantilePosition roundBinary64 i elapsed.length).toNat 0)) := by
    apply ExceptTraversal.mapM_eq_ok
    intro i mem
    obtain ⟨nonneg, below⟩ := mem_quantiles positiveStep isInt mem
    obtain ⟨low, high⟩ := quantilePosition_bounds
      roundBinary64_hasDoubleError nonneg below
        (by omega : (1 : Int) ≤ elapsed.length)
    rw [elapsedAt_eq_ok low high]
    rfl
  have lastNat : ((elapsed.length : Int) - 1).toNat = elapsed.length - 1 := by
    omega
  have last : elapsedAt elapsed ((elapsed.length : Int) - 1) =
      .ok (elapsed.getD (elapsed.length - 1) 0) := by
    rw [elapsedAt_eq_ok (by omega) (by omega), lastNat]
  unfold rowCells
  dsimp only
  rw [sampled, last]
  rfl

/-- The strings of a report row whose shown values are `elapsed`. -/
def shownRow (config : LatencyBenchmarkConfig) (caseName : String)
    (avg : Int) (elapsed : List Int) : List String :=
  rowPrefix config caseName avg ::
    (((quantiles config.reportStep).map fun i =>
        quantileCell (elapsed.getD
          (quantilePosition roundBinary64 i elapsed.length).toNat 0)) ++
      [lastCell (elapsed.getD (elapsed.length - 1) 0), "\n"])

/-- A report row over nonempty arrays without null slots completes. -/
theorem genLatencyReportBody_eq_ok {handle : LatencyBenchmarkHandle}
    {latencyPair : Int × Int} {config : LatencyBenchmarkConfig}
    {begs ends : List LatencyBenchmarkRecord} (caseName : String)
    (sort : Bool) (positiveStep : 1 ≤ config.reportStep)
    (isInt : config.reportStep < 2 ^ 31)
    (begRecords : handle.getActionTimestampRecords latencyPair.1 =
      some (begs.map some))
    (endRecords : handle.getActionTimestampRecords latencyPair.2 =
      some (ends.map some))
    (sameLength : begs.length = ends.length) (nonempty : begs ≠ []) :
    ∃ avg, handle.genLatencyReportBody latencyPair config caseName sort =
      .ok (shownRow config caseName avg
        (if sort then (List.zipWith shownElapsed begs ends).mergeSort
          else List.zipWith shownElapsed begs ends)) := by
  obtain ⟨total, measured⟩ := measure_map_some begs ends sameLength 0
  have length : (List.zipWith shownElapsed begs ends).length =
      begs.length := by
    rw [List.length_zipWith, ← sameLength, Nat.min_self]
  have lengthPos : begs.length ≠ 0 := by
    simpa using nonempty
  have shownNonempty : (if sort then
      (List.zipWith shownElapsed begs ends).mergeSort
        else List.zipWith shownElapsed begs ends) ≠ [] := by
    apply List.ne_nil_of_length_pos
    cases sort <;> simp only [if_true, if_false, Bool.false_eq_true,
      List.length_mergeSort, length] <;> omega
  refine ⟨total.tdiv (List.zipWith shownElapsed begs ends).length, ?_⟩
  unfold genLatencyReportBody
  rw [begRecords, endRecords]
  simp only [measured]
  change (if (List.zipWith shownElapsed begs ends).length = 0 then _
    else _) = _
  rw [if_neg (by rw [length]; exact lengthPos)]
  rw [rowCells_eq_ok positiveStep isInt shownNonempty]
  rfl

/-- The whole latency report completes when each of its pairs names two
nonempty arrays of one length without null slots. -/
theorem exists_genLatencyReport_eq_ok {handle : LatencyBenchmarkHandle}
    {latencyPairs : List (Int × Int)} {config : LatencyBenchmarkConfig}
    (positiveStep : 1 ≤ config.reportStep)
    (isInt : config.reportStep < 2 ^ 31)
    (complete : ∀ latencyPair ∈ latencyPairs,
      ∃ begs ends : List LatencyBenchmarkRecord,
      handle.getActionTimestampRecords latencyPair.1 = some (begs.map some) ∧
        handle.getActionTimestampRecords latencyPair.2 =
          some (ends.map some) ∧
            begs.length = ends.length ∧ begs ≠ []) :
    ∃ report, handle.genLatencyReport latencyPairs config = .ok report := by
  have bodies : ∀ latencyPair ∈ latencyPairs, ∃ rows, (do
        let byIdx ← handle.genLatencyReportBody latencyPair config
          (handle.caseName latencyPair "idx") false
        let byElapsed ← handle.genLatencyReportBody latencyPair config
          (handle.caseName latencyPair "elapsed") true
        return byIdx ++ byElapsed : Except JavaException (List String)) =
      .ok rows := by
    intro latencyPair mem
    obtain ⟨begs, ends, begRecords, endRecords, sameLength, nonempty⟩ :=
      complete latencyPair mem
    obtain ⟨_, byIdx⟩ := genLatencyReportBody_eq_ok
      (handle.caseName latencyPair "idx") false positiveStep isInt begRecords
        endRecords sameLength nonempty
    obtain ⟨_, byElapsed⟩ := genLatencyReportBody_eq_ok
      (handle.caseName latencyPair "elapsed") true positiveStep isInt
        begRecords endRecords sameLength nonempty
    rw [byIdx, byElapsed]
    exact ⟨_, rfl⟩
  obtain ⟨rows, traversed⟩ := ExceptTraversal.exists_mapM_eq_ok bodies
  refine ⟨reportHead config ++ rows.flatten, ?_⟩
  unfold genLatencyReport
  rw [traversed]
  rfl

/-! ## The record dump -/

theorem recordAt_eq_ok_iff {records : RecordArray} {index : Nat}
    {record : LatencyBenchmarkRecord} :
    recordAt records index = .ok record ↔
      records[index]? = some (some record) := by
  unfold recordAt
  rw [if_neg (by omega), Int.toNat_natCast]
  rcases records[index]? with _ | _ | slot
  · simp [throw, throwThe, MonadExceptOf.throw]
  · simp [throw, throwThe, MonadExceptOf.throw]
  · simp [pure, Except.pure]

/-- The record dump completes exactly when every array has a record in each
of the first `recordCount` slots. -/
theorem exists_genTimestampRecordsReport_eq_ok_iff
    (handle : LatencyBenchmarkHandle) :
    (∃ dump, handle.genTimestampRecordsReport = .ok dump) ↔
      ∀ index < handle.recordCount.toNat,
        ∀ entry ∈ handle.actionTimeRecords,
          ∃ record, entry.2[index]? = some (some record) := by
  constructor
  · rintro ⟨dump, dumped⟩ index inRange entry mem
    unfold genTimestampRecordsReport at dumped
    cases traversed : (List.range handle.recordCount.toNat).mapM
        fun index : Nat => handle.actionTimeRecords.mapM fun entry => do
          let record ← recordAt entry.2 index
          return handle.recordLine index entry.1 record with
    | error exception =>
        rw [traversed] at dumped
        cases dumped
    | ok lines =>
        obtain ⟨line, lineOk⟩ := ExceptTraversal.exists_eq_ok_of_mapM
          traversed index (List.mem_range.mpr inRange)
        obtain ⟨text, textOk⟩ := ExceptTraversal.exists_eq_ok_of_mapM
          lineOk entry mem
        cases read : recordAt entry.2 index with
        | error exception =>
            rw [read] at textOk
            cases textOk
        | ok record => exact ⟨record, recordAt_eq_ok_iff.mp read⟩
  · intro complete
    have lines : ∀ index ∈ List.range handle.recordCount.toNat, ∃ line,
        (handle.actionTimeRecords.mapM fun entry => do
          let record ← recordAt entry.2 index
          return handle.recordLine index entry.1 record :
            Except JavaException (List String)) = .ok line := by
      intro index mem
      apply ExceptTraversal.exists_mapM_eq_ok
      intro entry entryMem
      obtain ⟨record, read⟩ :=
        complete index (List.mem_range.mp mem) entry entryMem
      refine ⟨handle.recordLine index entry.1 record, ?_⟩
      rw [recordAt_eq_ok_iff.mpr read]
      rfl
    obtain ⟨texts, traversed⟩ := ExceptTraversal.exists_mapM_eq_ok lines
    refine ⟨texts.flatten, ?_⟩
    unfold genTimestampRecordsReport
    rw [traversed]
    rfl

end LatencyBenchmarkHandle

end LatencyBenchmark
