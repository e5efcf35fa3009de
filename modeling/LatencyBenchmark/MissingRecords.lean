import LatencyBenchmark.RecordArrays

/-!
# Reports over messages that were never read

The report is meant to tolerate messages whose end record was never stored:
`genLatencyReportBody` shows a marker for an end record whose fields are both
zero.  `addAction` however leaves such slots null, so the record dump ends
with a `NullPointerException` as soon as one message is missing, and the
marker is shown only for stored records that happen to look missing.
-/

namespace LatencyBenchmark

namespace LatencyBenchmarkHandle

/-- Store the given records of an action from slot `index` on, and nothing
for the messages without one. -/
def storeRecords (handle : LatencyBenchmarkHandle) (action : Int) :
    Nat → RecordArray → Except JavaException LatencyBenchmarkHandle
  | _, [] => return handle
  | index, none :: rest => handle.storeRecords action (index + 1) rest
  | index, some record :: rest => do
      let stored ← handle.storeRecord action index record
      stored.storeRecords action (index + 1) rest

/-- A handle with a begin and an end action, all begin records stored and
those end records that exist. -/
def recordedHandle (recordCount : Nat) (latencyPair : Int × Int)
    (names : String × String) (begs : List LatencyBenchmarkRecord)
    (ends : RecordArray) : Except JavaException LatencyBenchmarkHandle := do
  let handle ← (new recordCount).addAction latencyPair.1 names.1
  let handle ← handle.addAction latencyPair.2 names.2
  let handle ← handle.storeRecords latencyPair.1 0 (begs.map some)
  handle.storeRecords latencyPair.2 0 ends

/-- The cell in record order for one message: the marker when its end record
was never stored, else its elapsed time. -/
def faithfulCell (begs : List LatencyBenchmarkRecord) (ends : RecordArray)
    (separator : String) (index : Nat) : String :=
  match begs[index]?, ends[index]? with
  | some beg, some (some end_) => s!"{elapsedTime beg end_}" ++ separator
  | _, _ => "-"

/-- The row in record order as it should read. -/
def faithfulRow (config : LatencyBenchmarkConfig) (caseName : String)
    (avg : Int) (begs : List LatencyBenchmarkRecord) (ends : RecordArray) :
    List String :=
  rowPrefix config caseName avg ::
    (((quantiles config.reportStep).map fun i =>
        faithfulCell begs ends ","
          (quantilePosition roundBinary64 i begs.length).toNat) ++
      [faithfulCell begs ends "" (begs.length - 1), "\n"])

/-- Both reports complete and the row in record order is faithful. -/
def ReportsTolerateMissing (handle : LatencyBenchmarkHandle)
    (latencyPair : Int × Int) (config : LatencyBenchmarkConfig)
    (begs : List LatencyBenchmarkRecord) (ends : RecordArray) : Prop :=
  (∃ dump, handle.genTimestampRecordsReport = .ok dump) ∧
    ∃ avg byElapsed, handle.genLatencyReport [latencyPair] config =
      .ok (reportHead config ++
        (faithfulRow config (handle.caseName latencyPair "idx") avg begs ends
          ++ byElapsed))

/-- The positions a report row samples. -/
def sampledPositions (config : LatencyBenchmarkConfig) (cnt : Nat) :
    List Nat :=
  ((quantiles config.reportStep).map fun i =>
    (quantilePosition roundBinary64 i cnt).toNat) ++ [cnt - 1]

/-! ## The handle that was recorded -/

theorem storeRecords_eq_ok {handle : LatencyBenchmarkHandle} {action : Int}
    {done rest : RecordArray}
    (allocated : handle.getActionTimestampRecords action =
      some (done ++ List.replicate rest.length none)) :
    handle.storeRecords action done.length rest =
      .ok { handle with actionTimeRecords :=
        handle.actionTimeRecords.put action (done ++ rest) } := by
  induction rest generalizing handle done with
  | nil =>
      simp only [List.length_nil, List.replicate_zero] at allocated
      rw [EntryMap.put_of_get_eq_some allocated]
      rfl
  | cons slot rest induction =>
      have shifted : done ++ List.replicate (slot :: rest).length none =
          (done ++ [none]) ++ List.replicate rest.length none := by
        simp [List.replicate_succ]
      cases slot with
      | none =>
          rw [shifted] at allocated
          have later := induction allocated
          simpa [storeRecords] using later
      | some record =>
          let filled : LatencyBenchmarkHandle := { handle with
            actionTimeRecords := handle.actionTimeRecords.put action
              ((done ++ [some record]) ++
                List.replicate rest.length none) }
          have stored : handle.storeRecord action done.length record =
              .ok filled := by
            have inside : (0 : Int) ≤ done.length ∧
                (done.length : Int).toNat <
                  (done ++ List.replicate (some record :: rest).length
                    none : RecordArray).length := by
              simp
            rw [storeRecord, allocated]
            simp only [inside]
            rw [shifted]
            simp [filled, pure, Except.pure]
          have reallocated : filled.getActionTimestampRecords action =
              some ((done ++ [some record]) ++
                List.replicate rest.length none) :=
            EntryMap.get_put_self _ _ _
          have later := induction reallocated
          rw [storeRecords, stored, ExceptTraversal.ok_bind]
          simpa [filled] using later

/-- The handle after all existing records have been stored. -/
theorem recordedHandle_eq_ok {recordCount : Nat} {latencyPair : Int × Int}
    {names : String × String} {begs : List LatencyBenchmarkRecord}
    {ends : RecordArray} (different : latencyPair.1 ≠ latencyPair.2)
    (begsLength : begs.length = recordCount)
    (endsLength : ends.length = recordCount) :
    recordedHandle recordCount latencyPair names begs ends =
      .ok { recordCount := recordCount
            actionMap := [(latencyPair.1, names.1), (latencyPair.2, names.2)]
            actionTimeRecords :=
              [(latencyPair.1, begs.map some), (latencyPair.2, ends)] } := by
  let allocated : LatencyBenchmarkHandle :=
    { recordCount := recordCount
      actionMap := [(latencyPair.1, names.1), (latencyPair.2, names.2)]
      actionTimeRecords :=
        [(latencyPair.1, List.replicate recordCount none),
          (latencyPair.2, List.replicate recordCount none)] }
  let begun : LatencyBenchmarkHandle :=
    { allocated with
      actionTimeRecords :=
        [(latencyPair.1, begs.map some),
          (latencyPair.2, List.replicate recordCount none)] }
  have addBegin : (new recordCount).addAction latencyPair.1 names.1 =
      .ok { recordCount := recordCount
            actionMap := [(latencyPair.1, names.1)]
            actionTimeRecords :=
              [(latencyPair.1, List.replicate recordCount none)] } := by
    rw [addAction, if_neg (by simp [new])]
    simp [new, EntryMap.put, pure, Except.pure]
  have addEnd : LatencyBenchmarkHandle.addAction
      { recordCount := recordCount
        actionMap := [(latencyPair.1, names.1)]
        actionTimeRecords :=
          [(latencyPair.1, List.replicate recordCount none)] }
      latencyPair.2 names.2 = .ok allocated := by
    rw [addAction, if_neg (by simp)]
    simp [EntryMap.put, different, allocated, pure, Except.pure]
  have storeBegins : allocated.storeRecords latencyPair.1 0 (begs.map some) =
      .ok begun := by
    change allocated.storeRecords latencyPair.1 ([] : RecordArray).length _ =
      _
    rw [storeRecords_eq_ok
      (by simp [allocated, getActionTimestampRecords, EntryMap.get,
        begsLength])]
    simp [allocated, begun, EntryMap.put]
  have storeEnds : begun.storeRecords latencyPair.2 0 ends = .ok
      { begun with actionTimeRecords :=
        [(latencyPair.1, begs.map some), (latencyPair.2, ends)] } := by
    change begun.storeRecords latencyPair.2 ([] : RecordArray).length _ = _
    rw [storeRecords_eq_ok
      (by simp [begun, getActionTimestampRecords, EntryMap.get, different,
        endsLength])]
    simp [begun, EntryMap.put, different]
  rw [recordedHandle, addBegin, ExceptTraversal.ok_bind, addEnd,
    ExceptTraversal.ok_bind, storeBegins, ExceptTraversal.ok_bind, storeEnds]

/-! ## Exactly when the reports are right -/

theorem quantileText_ne_marker (value : Int) :
    s!"{value}" ++ "," ≠ "-" := by
  intro same
  have lengths := congrArg String.length same
  have one : "-".length = 1 := rfl
  have comma : ",".length = 1 := rfl
  have digits : 0 < (toString value).length := by
    rw [Int.toString_eq_repr, Int.repr_eq_if]
    split
    · exact Nat.length_repr_pos
    · rw [String.length_append, one]
      omega
  rw [String.length_append, one, comma] at lengths
  omega

theorem lastText_ne_marker (value : Int) : s!"{value}" ++ "" ≠ "-" := by
  rw [String.append_empty]
  rw [Int.toString_eq_repr, Int.repr_eq_if]
  split
  · intro same
    have minus : '-' ∈ Nat.toDigits 10 value.toNat := by
      rw [← Nat.toList_repr, same]
      decide
    exact absurd (Nat.isDigit_of_mem_toDigits (by decide) (by decide) minus)
      (by decide)
  · intro same
    have lengths := congrArg String.length same
    have one : "-".length = 1 := rfl
    have digits : 0 < ((-value).toNat.repr).length := Nat.length_repr_pos
    rw [String.length_append, one] at lengths
    omega

private theorem cell_faithful_iff {beg end_ : LatencyBenchmarkRecord}
    {separator : String} {cell : Int → String}
    (cellAtMarker : cell maxInt32 = "-")
    (cellElsewhere : ∀ value, value ≠ maxInt32 →
      cell value = s!"{value}" ++ separator)
    (notMarker : ∀ value : Int, s!"{value}" ++ separator ≠ "-") :
    cell (shownElapsed beg end_) = s!"{elapsedTime beg end_}" ++ separator ↔
      ¬IsMissing end_ ∧ elapsedTime beg end_ ≠ maxInt32 := by
  unfold shownElapsed
  by_cases missing : IsMissing end_
  · rw [if_pos missing, cellAtMarker]
    constructor
    · intro same
      exact absurd same.symm (notMarker _)
    · rintro ⟨present, _⟩
      exact absurd missing present
  · rw [if_neg missing]
    by_cases atMarker : elapsedTime beg end_ = maxInt32
    · rw [atMarker, cellAtMarker]
      constructor
      · intro same
        exact absurd same.symm (notMarker _)
      · rintro ⟨_, different⟩
        exact absurd rfl different
    · constructor
      · intro _
        exact ⟨missing, atMarker⟩
      · intro _
        exact cellElsewhere _ atMarker

theorem quantileCell_elsewhere {value : Int}
    (different : value ≠ maxInt32) :
    quantileCell value = s!"{value}" ++ "," := by
  rw [quantileCell, if_neg different]
  rfl

theorem lastCell_elsewhere {value : Int}
    (different : value ≠ maxInt32) :
    lastCell value = s!"{value}" ++ "" := by
  rw [lastCell, if_neg different, String.append_empty]

/-- At the positions a row samples, no stored end record looks missing and
no elapsed time is the marker value. -/
def SampledLegibly (config : LatencyBenchmarkConfig)
    (begs ends : List LatencyBenchmarkRecord) : Prop :=
  ∀ index ∈ sampledPositions config begs.length, ∀ beg end_,
    begs[index]? = some beg → ends[index]? = some end_ →
      ¬IsMissing end_ ∧ elapsedTime beg end_ ≠ maxInt32

theorem sampledPositions_lt {config : LatencyBenchmarkConfig} {cnt : Nat}
    (positiveStep : 1 ≤ config.reportStep)
    (isInt : config.reportStep < 2 ^ 31) (positive : 0 < cnt) :
    ∀ index ∈ sampledPositions config cnt, index < cnt := by
  intro index mem
  rcases List.mem_append.mp mem with quantile | last
  · obtain ⟨i, iMem, rfl⟩ := List.mem_map.mp quantile
    obtain ⟨nonneg, below⟩ := mem_quantiles positiveStep isInt iMem
    obtain ⟨low, high⟩ := quantilePosition_bounds roundBinary64_hasDoubleError
      nonneg below (by omega : (1 : Int) ≤ cnt)
    omega
  · rw [List.mem_singleton.mp last]
    omega

/-- Where both records are stored, a shown cell is the faithful one exactly
when the end record does not look missing and the elapsed time is not the
marker. -/
private theorem cell_faithful_at_iff {begs ends : List LatencyBenchmarkRecord}
    {separator : String} {cell : Int → String}
    (cellAtMarker : cell maxInt32 = "-")
    (cellElsewhere : ∀ value, value ≠ maxInt32 →
      cell value = s!"{value}" ++ separator)
    (notMarker : ∀ value : Int, s!"{value}" ++ separator ≠ "-")
    {index : Nat} {beg end_ : LatencyBenchmarkRecord}
    (begAt : begs[index]? = some beg) (endAt : ends[index]? = some end_) :
    cell ((List.zipWith shownElapsed begs ends).getD index 0) =
        faithfulCell begs (ends.map some) separator index ↔
      ¬IsMissing end_ ∧ elapsedTime beg end_ ≠ maxInt32 := by
  have shownAt : (List.zipWith shownElapsed begs ends).getD index 0 =
      shownElapsed beg end_ := by
    rw [List.getD_eq_getElem?_getD, List.getElem?_zipWith, begAt, endAt]
    rfl
  have slotAt : (ends.map some)[index]? = some (some end_) := by
    rw [List.getElem?_map, endAt]
    rfl
  rw [shownAt, faithfulCell, begAt, slotAt]
  exact cell_faithful_iff cellAtMarker cellElsewhere notMarker

private theorem quantileCell_faithful_iff
    {begs ends : List LatencyBenchmarkRecord} {index : Nat}
    {beg end_ : LatencyBenchmarkRecord}
    (begAt : begs[index]? = some beg) (endAt : ends[index]? = some end_) :
    quantileCell ((List.zipWith shownElapsed begs ends).getD index 0) =
        faithfulCell begs (ends.map some) "," index ↔
      ¬IsMissing end_ ∧ elapsedTime beg end_ ≠ maxInt32 :=
  cell_faithful_at_iff rfl (fun _ => quantileCell_elsewhere)
    quantileText_ne_marker begAt endAt

private theorem lastCell_faithful_iff
    {begs ends : List LatencyBenchmarkRecord} {index : Nat}
    {beg end_ : LatencyBenchmarkRecord}
    (begAt : begs[index]? = some beg) (endAt : ends[index]? = some end_) :
    lastCell ((List.zipWith shownElapsed begs ends).getD index 0) =
        faithfulCell begs (ends.map some) "" index ↔
      ¬IsMissing end_ ∧ elapsedTime beg end_ ≠ maxInt32 :=
  cell_faithful_at_iff rfl (fun _ => lastCell_elsewhere)
    lastText_ne_marker begAt endAt

/-- At every sampled position both arrays hold a record. -/
theorem exists_records_at {config : LatencyBenchmarkConfig}
    {begs ends : List LatencyBenchmarkRecord}
    (positiveStep : 1 ≤ config.reportStep)
    (isInt : config.reportStep < 2 ^ 31)
    (sameLength : begs.length = ends.length) (nonempty : begs ≠ [])
    {index : Nat} (mem : index ∈ sampledPositions config begs.length) :
    ∃ beg end_, begs[index]? = some beg ∧ ends[index]? = some end_ := by
  have inBegs := sampledPositions_lt positiveStep isInt
    (List.length_pos_of_ne_nil nonempty) index mem
  exact ⟨_, _, List.getElem?_eq_getElem inBegs,
    List.getElem?_eq_getElem (sameLength ▸ inBegs)⟩

/-- A shown row is the faithful one exactly when it is sampled legibly. -/
theorem shownRow_eq_faithfulRow_iff {config : LatencyBenchmarkConfig}
    {caseName : String} {avg : Int}
    {begs ends : List LatencyBenchmarkRecord}
    (positiveStep : 1 ≤ config.reportStep)
    (isInt : config.reportStep < 2 ^ 31)
    (sameLength : begs.length = ends.length) (nonempty : begs ≠ []) :
    shownRow config caseName avg (List.zipWith shownElapsed begs ends) =
        faithfulRow config caseName avg begs (ends.map some) ↔
      SampledLegibly config begs ends := by
  have shownLength : (List.zipWith shownElapsed begs ends).length =
      begs.length := by
    rw [List.length_zipWith, ← sameLength, Nat.min_self]
  unfold shownRow faithfulRow
  rw [List.cons_eq_cons, shownLength]
  constructor
  · rintro ⟨_, cells⟩ index mem beg end_ begAt endAt
    obtain ⟨quantilesSame, lastSame⟩ :=
      List.append_inj cells (by rw [List.length_map, List.length_map])
    rcases List.mem_append.mp mem with quantile | last
    · obtain ⟨i, iMem, rfl⟩ := List.mem_map.mp quantile
      exact (quantileCell_faithful_iff begAt endAt).mp
        (List.map_inj_left.mp quantilesSame i iMem)
    · rw [List.mem_singleton.mp last] at begAt endAt
      rw [List.cons_eq_cons] at lastSame
      exact (lastCell_faithful_iff begAt endAt).mp lastSame.1
  · intro legible
    constructor
    · rfl
    congr 1
    · apply List.map_inj_left.mpr
      intro i iMem
      have mem : (quantilePosition roundBinary64 i begs.length).toNat ∈
          sampledPositions config begs.length :=
        List.mem_append_left _ (List.mem_map_of_mem iMem)
      obtain ⟨beg, end_, begAt, endAt⟩ :=
        exists_records_at positiveStep isInt sameLength nonempty mem
      exact (quantileCell_faithful_iff begAt endAt).mpr
        (legible _ mem beg end_ begAt endAt)
    · have mem : begs.length - 1 ∈ sampledPositions config begs.length :=
        List.mem_append_right _ (List.mem_singleton_self _)
      obtain ⟨beg, end_, begAt, endAt⟩ :=
        exists_records_at positiveStep isInt sameLength nonempty mem
      rw [(lastCell_faithful_iff begAt endAt).mpr
        (legible _ mem beg end_ begAt endAt)]

/-- The report over one pair of complete arrays. -/
theorem genLatencyReport_singleton_eq_ok {handle : LatencyBenchmarkHandle}
    {latencyPair : Int × Int} {config : LatencyBenchmarkConfig}
    {begs ends : List LatencyBenchmarkRecord}
    (positiveStep : 1 ≤ config.reportStep)
    (isInt : config.reportStep < 2 ^ 31)
    (begRecords : handle.getActionTimestampRecords latencyPair.1 =
      some (begs.map some))
    (endRecords : handle.getActionTimestampRecords latencyPair.2 =
      some (ends.map some))
    (sameLength : begs.length = ends.length) (nonempty : begs ≠ []) :
    ∃ avg byElapsed, handle.genLatencyReport [latencyPair] config =
      .ok (reportHead config ++
        (shownRow config (handle.caseName latencyPair "idx") avg
          (List.zipWith shownElapsed begs ends) ++ byElapsed)) := by
  obtain ⟨avg, byIdx⟩ := genLatencyReportBody_eq_ok
    (handle.caseName latencyPair "idx") false positiveStep isInt begRecords
      endRecords sameLength nonempty
  obtain ⟨sortedAvg, byElapsed⟩ := genLatencyReportBody_eq_ok
    (handle.caseName latencyPair "elapsed") true positiveStep isInt begRecords
      endRecords sameLength nonempty
  refine ⟨avg, shownRow config (handle.caseName latencyPair "elapsed")
    sortedAvg (List.zipWith shownElapsed begs ends).mergeSort, ?_⟩
  unfold genLatencyReport
  rw [List.mapM_cons, byIdx, byElapsed, List.mapM_nil]
  simp [pure, Except.pure]

/-- The record dump of two arrays, of which the first is complete, ends
without an exception exactly when the second one is complete too. -/
theorem dumps_iff_filled {handle : LatencyBenchmarkHandle}
    {latencyPair : Int × Int} {begs : List LatencyBenchmarkRecord}
    {ends : RecordArray}
    (entries : handle.actionTimeRecords =
      [(latencyPair.1, begs.map some), (latencyPair.2, ends)])
    (begsLength : begs.length = handle.recordCount.toNat)
    (endsLength : ends.length = handle.recordCount.toNat) :
    (∃ dump, handle.genTimestampRecordsReport = .ok dump) ↔
      ∀ slot ∈ ends, slot ≠ none := by
  rw [exists_genTimestampRecordsReport_eq_ok_iff, entries]
  constructor
  · intro stored slot mem
    obtain ⟨index, inside, slotAt⟩ := List.mem_iff_getElem.mp mem
    obtain ⟨record, atIndex⟩ :=
      stored index (endsLength ▸ inside) (latencyPair.2, ends) (by simp)
    rw [List.getElem?_eq_getElem inside, slotAt, Option.some.injEq] at atIndex
    rw [atIndex]
    exact Option.some_ne_none record
  · intro filled index inRange entry mem
    obtain ⟨records, rfl⟩ := exists_eq_map_some filled
    have stored : ∀ slots : List LatencyBenchmarkRecord,
        slots.length = handle.recordCount.toNat →
          ∃ record, (slots.map some)[index]? = some (some record) := by
      intro slots length
      have inside : index < slots.length := length ▸ inRange
      refine ⟨slots[index], ?_⟩
      rw [List.getElem?_map, List.getElem?_eq_getElem inside]
      rfl
    rcases List.mem_cons.mp mem with rfl | later
    · exact stored begs begsLength
    · rw [List.mem_singleton.mp later]
      exact stored records (by rw [← endsLength, List.length_map])

/-- No message is missing, and no message that a row samples has an end
record or an elapsed time that reads as missing. -/
def ReadsAsRecorded (config : LatencyBenchmarkConfig)
    (begs : List LatencyBenchmarkRecord) (ends : RecordArray) : Prop :=
  (∀ slot ∈ ends, slot ≠ none) ∧
    ∀ index ∈ sampledPositions config begs.length, ∀ beg end_,
      begs[index]? = some beg → ends[index]? = some (some end_) →
        ¬IsMissing end_ ∧ elapsedTime beg end_ ≠ maxInt32

theorem readsAsRecorded_map_some_iff {config : LatencyBenchmarkConfig}
    {begs ends : List LatencyBenchmarkRecord} :
    ReadsAsRecorded config begs (ends.map some) ↔
      SampledLegibly config begs ends := by
  constructor
  · rintro ⟨_, legible⟩ index mem beg end_ begAt endAt
    apply legible index mem beg end_ begAt
    rw [List.getElem?_map, endAt]
    rfl
  · intro legible
    constructor
    · intro slot mem
      obtain ⟨record, _, rfl⟩ := List.mem_map.mp mem
      exact Option.some_ne_none record
    · intro index mem beg end_ begAt slotAt
      rw [List.getElem?_map, Option.map_eq_some_iff] at slotAt
      obtain ⟨stored, storedAt, same⟩ := slotAt
      rw [Option.some.inj same] at storedAt
      exact legible index mem beg end_ begAt storedAt

/-- **Reports over partly recorded arrays.**  Both reports complete with a
faithful row in record order exactly when no message is missing and no
sampled message reads as missing: a single slot that `addAction` left null
ends the record dump with an exception. -/
theorem reportsTolerateMissing_iff_readsAsRecorded {recordCount : Nat}
    {latencyPair : Int × Int} {names : String × String}
    {config : LatencyBenchmarkConfig} {begs : List LatencyBenchmarkRecord}
    {ends : RecordArray} (positive : 1 ≤ recordCount)
    (different : latencyPair.1 ≠ latencyPair.2)
    (begsLength : begs.length = recordCount)
    (endsLength : ends.length = recordCount)
    (positiveStep : 1 ≤ config.reportStep)
    (isInt : config.reportStep < 2 ^ 31) :
    ∃ handle, recordedHandle recordCount latencyPair names begs ends =
        .ok handle ∧
      (ReportsTolerateMissing handle latencyPair config begs ends ↔
        ReadsAsRecorded config begs ends) := by
  refine ⟨_, recordedHandle_eq_ok different begsLength endsLength, ?_⟩
  generalize recorded : ({ recordCount := recordCount
                           actionMap := [(latencyPair.1, names.1),
                             (latencyPair.2, names.2)]
                           actionTimeRecords :=
                             [(latencyPair.1, begs.map some),
                               (latencyPair.2, ends)] } :
    LatencyBenchmarkHandle) = handle
  have count : handle.recordCount.toNat = recordCount := by
    rw [← recorded]
    rfl
  have entries : handle.actionTimeRecords =
      [(latencyPair.1, begs.map some), (latencyPair.2, ends)] := by
    rw [← recorded]
  have begRecords : handle.getActionTimestampRecords latencyPair.1 =
      some (begs.map some) := by
    simp [getActionTimestampRecords, entries, EntryMap.get]
  have endRecords : handle.getActionTimestampRecords latencyPair.2 =
      some ends := by
    simp [getActionTimestampRecords, entries, EntryMap.get, different]
  have nonempty : begs ≠ [] := by
    apply List.ne_nil_of_length_pos
    omega
  have dumpIff := dumps_iff_filled entries (begsLength.trans count.symm)
    (endsLength.trans count.symm)
  constructor
  · rintro ⟨dumped, avg, byElapsed, reported⟩
    obtain ⟨records, rfl⟩ := exists_eq_map_some (dumpIff.mp dumped)
    have sameLength : begs.length = records.length := by
      rw [begsLength, ← endsLength, List.length_map]
    obtain ⟨shownAvg, shownByElapsed, shown⟩ :=
      genLatencyReport_singleton_eq_ok positiveStep isInt begRecords
        endRecords sameLength nonempty
    have sameReport := Except.ok.inj (shown.symm.trans reported)
    have sameRows := List.append_cancel_left sameReport
    obtain ⟨sameRow, _⟩ := List.append_inj sameRows (by
      simp [shownRow, faithfulRow])
    obtain ⟨_, sameCells⟩ := List.cons_eq_cons.mp sameRow
    rw [readsAsRecorded_map_some_iff]
    apply (shownRow_eq_faithfulRow_iff positiveStep isInt sameLength
      nonempty).mp
    exact congrArg (rowPrefix config (handle.caseName latencyPair "idx")
      shownAvg :: ·) sameCells
  · intro asRecorded
    have dumped := dumpIff.mpr asRecorded.1
    obtain ⟨records, rfl⟩ := exists_eq_map_some asRecorded.1
    have sameLength : begs.length = records.length := by
      rw [begsLength, ← endsLength, List.length_map]
    obtain ⟨avg, byElapsed, shown⟩ :=
      genLatencyReport_singleton_eq_ok positiveStep isInt begRecords
        endRecords sameLength nonempty
    rw [readsAsRecorded_map_some_iff,
      ← shownRow_eq_faithfulRow_iff positiveStep isInt sameLength
        nonempty] at asRecorded
    exact ⟨dumped, avg, byElapsed, asRecorded ▸ shown⟩

/-- The begin records of three messages. -/
def threeBegs : List LatencyBenchmarkRecord :=
  [{ sec := 1 }, { sec := 1, nsec := 500 }, { sec := 2 }]

/-- Their end records; the second one is the record that reads as missing. -/
def threeEnds : List LatencyBenchmarkRecord :=
  [{ sec := 1, nsec := 300 }, {}, { sec := 2, nsec := 100 }]

/-- The theorem where the second end record was never stored. -/
theorem reportsTolerateMissing_iff_readsAsRecorded_three :
    ∃ handle, recordedHandle 3 (0, 1) ("write", "read") threeBegs
        ((threeEnds.map some).set 1 none) = .ok handle ∧
      (ReportsTolerateMissing handle (0, 1) {} threeBegs
          ((threeEnds.map some).set 1 none) ↔
        ReadsAsRecorded {} threeBegs ((threeEnds.map some).set 1 none)) :=
  reportsTolerateMissing_iff_readsAsRecorded (by decide) (by decide) rfl rfl
    (by decide) (by decide)

/-- One message whose end record was never stored: the dump ends with a
`NullPointerException`, and so does the latency report. -/
theorem missing_record_ends_reports :
    ∃ handle, recordedHandle 1 (0, 1) ("write", "read") [{ sec := 1 }]
        [none] = .ok handle ∧
      handle.genTimestampRecordsReport = .error .nullPointer ∧
      handle.genLatencyReport [(0, 1)] {} = .error .nullPointer ∧
      ¬ReportsTolerateMissing handle (0, 1) {} [{ sec := 1 }] [none] := by
  refine ⟨_, rfl, rfl, rfl, ?_⟩
  rintro ⟨⟨dump, dumped⟩, _⟩
  cases dumped

end LatencyBenchmarkHandle

end LatencyBenchmark
