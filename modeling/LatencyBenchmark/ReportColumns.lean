import Mathlib
import LatencyBenchmark.CsvTable
import LatencyBenchmark.MissingRecords
import LatencyBenchmark.OrderStatistics

/-!
# Columns of the latency report

`genLatencyReport` and `genLatencyReportBody` write the header and the rows
in loops of their own.  A quantile cell carries its separator with it, and
the marker of a missing record is written without one, so a row has the
columns of the header exactly when no quantile column shows the marker.
-/

namespace LatencyBenchmark

namespace LatencyBenchmarkHandle

/-- The comma-separated fields of a written line, its line end left out. -/
def csvFields (strings : List String) : List String :=
  ((strings.flatMap String.toList).dropLast.splitOn ',').map String.ofList

/-- The column header, the second line of the head. -/
def columnHead (config : LatencyBenchmarkConfig) : List String :=
  (reportHead config).drop 1

/-- The quantile columns, each with the position it samples. -/
def quantileColumns (config : LatencyBenchmarkConfig) (cnt : Nat) :
    List (Int × Nat) :=
  ((quantiles config.reportStep).map fun i =>
    (i, (quantilePosition roundBinary64 i cnt).toNat)) ++ [(100, cnt - 1)]

/-- A row has the columns of the header, and under each quantile the cell of
that quantile. -/
def RowFollowsHead (config : LatencyBenchmarkConfig) (elapsed : List Int)
    (row : List String) : Prop :=
  (csvFields row).length = (csvFields (columnHead config)).length ∧
    ∀ column : Nat, ∀ quantile ∈ quantileColumns config elapsed.length,
      (csvFields (columnHead config))[column]? =
          some (toString quantile.1) →
        (csvFields row)[column]? = some (lastCell (elapsed.getD quantile.2 0))

/-- The records stored for an action. -/
def recordsOf (handle : LatencyBenchmarkHandle) (action : Int) :
    List LatencyBenchmarkRecord :=
  ((handle.getActionTimestampRecords action).getD []).filterMap id

/-- A registered action with a name without commas and a record in each of
its slots. -/
structure IsRecorded (handle : LatencyBenchmarkHandle) (action : Int) :
    Prop where
  named : ∃ name, handle.actionMap.get action = some name ∧
    ',' ∉ name.toList
  filled : ∃ records : List LatencyBenchmarkRecord,
    handle.getActionTimestampRecords action = some (records.map some) ∧
      records.length = handle.recordCount

/-- The messages whose latency was measured and is below the marker value. -/
def countBelowMarker (begs ends : List LatencyBenchmarkRecord) : Nat :=
  (begs.zip ends).countP fun message =>
    ¬IsMissing message.2 ∧ elapsedTime message.1 message.2 < maxInt32

/-- The messages that are missing or measured up to the marker value. -/
def countUpToMarker (begs ends : List LatencyBenchmarkRecord) : Nat :=
  (begs.zip ends).countP fun message =>
    IsMissing message.2 ∨ elapsedTime message.1 message.2 ≤ maxInt32

/-- `genLatencyReport` writes the header and then, for each pair, the row by
idx and the row by elapsed. -/
def WritesRows (handle : LatencyBenchmarkHandle)
    (latencyPairs : List (Int × Int)) (config : LatencyBenchmarkConfig)
    (byIdx byElapsed : Int × Int → List String) : Prop :=
  (∀ latencyPair ∈ latencyPairs,
    handle.genLatencyReportBody latencyPair config
        (handle.caseName latencyPair "idx") false =
          .ok (byIdx latencyPair) ∧
      handle.genLatencyReportBody latencyPair config
        (handle.caseName latencyPair "elapsed") true =
          .ok (byElapsed latencyPair)) ∧
    handle.genLatencyReport latencyPairs config =
      .ok (reportHead config ++ latencyPairs.flatMap fun latencyPair =>
        byIdx latencyPair ++ byElapsed latencyPair)

/-- The values a pair's rows show, in record order. -/
def shownLatencies (handle : LatencyBenchmarkHandle)
    (latencyPair : Int × Int) : List Int :=
  List.zipWith shownElapsed (handle.recordsOf latencyPair.1)
    (handle.recordsOf latencyPair.2)

/-- Every row of the report follows the head. -/
def IsRectangular (handle : LatencyBenchmarkHandle)
    (latencyPairs : List (Int × Int)) (config : LatencyBenchmarkConfig)
    (byIdx byElapsed : Int × Int → List String) : Prop :=
  ∀ latencyPair ∈ latencyPairs,
    RowFollowsHead config (handle.shownLatencies latencyPair)
        (byIdx latencyPair) ∧
      RowFollowsHead config (handle.shownLatencies latencyPair).mergeSort
        (byElapsed latencyPair)

/-- No quantile column of either row falls on a missing message or on a
latency that equals the marker value. -/
structure SeparatesCells (config : LatencyBenchmarkConfig)
    (begs ends : List LatencyBenchmarkRecord) : Prop where
  byIdx : ∀ i ∈ quantiles config.reportStep, ∀ beg end_,
    begs[(quantilePosition roundBinary64 i begs.length).toNat]? = some beg →
      ends[(quantilePosition roundBinary64 i begs.length).toNat]? =
          some end_ →
        ¬IsMissing end_ ∧ elapsedTime beg end_ ≠ maxInt32
  byElapsed : ∀ i ∈ quantiles config.reportStep,
    (quantilePosition roundBinary64 i begs.length).toNat <
        countBelowMarker begs ends ∨
      countUpToMarker begs ends ≤
        (quantilePosition roundBinary64 i begs.length).toNat

/-! ## Texts without commas -/

theorem comma_notMem_toString (value : Int) :
    ',' ∉ (toString value).toList :=
  (Csv.isCell_toString value).1

theorem comma_notMem_lastCell (value : Int) :
    ',' ∉ (lastCell value).toList := by
  unfold lastCell
  split
  · decide
  · exact comma_notMem_toString value

theorem comma_notMem_caseName {handle : LatencyBenchmarkHandle}
    {latencyPair : Int × Int} {order : String}
    (first : handle.IsRecorded latencyPair.1)
    (second : handle.IsRecorded latencyPair.2)
    (orderFree : ',' ∉ order.toList) :
    ',' ∉ (handle.caseName latencyPair order).toList := by
  obtain ⟨firstName, firstNamed, firstFree⟩ := first.named
  obtain ⟨secondName, secondNamed, secondFree⟩ := second.named
  have written : handle.caseName latencyPair order =
      firstName ++ "->" ++ (secondName ++ " by " ++ order) := by
    rw [caseName, getActionName, getActionName, firstNamed, secondNamed]
    rfl
  rw [written]
  simp only [String.toList_append, List.mem_append, not_or]
  exact ⟨⟨firstFree, by decide⟩, ⟨secondFree, by decide⟩, orderFree⟩

/-- The fields of a line whose strings close all fields but the last. -/
theorem csvFields_eq {strings fields : List String} {last : String}
    (written : strings.flatMap String.toList =
      fields.flatMap (fun field => field.toList ++ [',']) ++
        (last.toList ++ ['\n']))
    (fieldsFree : ∀ field ∈ fields, ',' ∉ field.toList)
    (lastFree : ',' ∉ last.toList) :
    csvFields strings = fields ++ [last] := by
  have listsFree : ∀ field ∈ fields.map String.toList, ',' ∉ field := by
    simpa using fieldsFree
  have closed := SeparatedFields.splitOn_closed_fields listsFree lastFree
  rw [List.flatMap_map] at closed
  rw [csvFields, written, ← List.append_assoc, List.dropLast_concat, closed]
  simp [Function.comp_def]

/-! ## The header line -/

/-- The names of the columns in front of the quantiles. -/
def leadingColumns : List String :=
  ["case_name", "rounds", "record_per_round", "interval_ms", "capacity",
    "producer", "consumer", "avg"]

theorem toString_notMem_leadingColumns (value : Int) :
    toString value ∉ leadingColumns := by
  intro mem
  have lettered : ∀ name ∈ leadingColumns,
      'a' ∈ name.toList ∨ 'r' ∈ name.toList := by
    decide
  rcases lettered _ mem with letter | letter
  · exact absurd (Csv.isDigit_or_minus_of_mem_toString letter) (by decide)
  · exact absurd (Csv.isDigit_or_minus_of_mem_toString letter) (by decide)

private theorem toList_closed (value : Int) :
    (s!"{value},").toList = (toString value).toList ++ [','] := by
  change (toString value ++ ",").toList = _
  rw [String.toList_append]
  rfl

theorem csvFields_columnHead (config : LatencyBenchmarkConfig) (cnt : Nat) :
    csvFields (columnHead config) = leadingColumns ++
      (quantileColumns config cnt).map fun quantile =>
        toString quantile.1 := by
  have leading : ("case_name,rounds,record_per_round,interval_ms," ++
      "capacity,producer,consumer,avg,").toList =
        leadingColumns.flatMap fun field => field.toList ++ [','] := by
    decide
  have fields : csvFields (columnHead config) =
      (leadingColumns ++ (quantiles config.reportStep).map toString) ++
        ["100"] := by
    apply csvFields_eq
    case written =>
      change _ ++ ((quantiles config.reportStep).map (fun i => s!"{i},") ++
        ["100\n"]).flatMap String.toList = _
      rw [List.flatMap_append, List.flatMap_append, List.flatMap_map,
        List.flatMap_map, List.append_assoc, ← leading]
      simp only [toList_closed]
      rfl
    case fieldsFree =>
      intro field mem
      rcases List.mem_append.mp mem with inLeading | quantile
      · have free : ∀ name ∈ leadingColumns, ',' ∉ name.toList := by decide
        exact free field inLeading
      · obtain ⟨i, _, rfl⟩ := List.mem_map.mp quantile
        exact comma_notMem_toString i
    case lastFree => decide
  rw [fields, quantileColumns, List.map_append, List.map_map,
    List.append_assoc]
  rfl

/-! ## The rows -/

/-- The fields in front of the quantiles. -/
def leadingFields (config : LatencyBenchmarkConfig) (caseName : String)
    (avg : Int) : List String :=
  [caseName, toString config.totalRounds, toString config.recordPerRound,
    toString config.intervalBetweenRound, toString config.capacity,
    toString config.producer, toString config.consumer, toString avg]

theorem toList_rowPrefix (config : LatencyBenchmarkConfig)
    (caseName : String) (avg : Int) :
    (rowPrefix config caseName avg).toList =
      (leadingFields config caseName avg).flatMap
        fun field => field.toList ++ [','] := by
  have comma : ",".toList = [','] := rfl
  simp [rowPrefix, leadingFields, String.toList_append, comma, toString]

/-- The values in the quantile columns of a row. -/
def sampledValues (config : LatencyBenchmarkConfig) (elapsed : List Int) :
    List Int :=
  (quantiles config.reportStep).map fun i =>
    elapsed.getD (quantilePosition roundBinary64 i elapsed.length).toNat 0

theorem flatMap_toList_shownRow (config : LatencyBenchmarkConfig)
    (caseName : String) (avg : Int) (elapsed : List Int) :
    (shownRow config caseName avg elapsed).flatMap String.toList =
      (leadingFields config caseName avg).flatMap
          (fun field => field.toList ++ [',']) ++
        (sampledValues config elapsed).flatMap
          (fun value => (quantileCell value).toList) ++
        ((lastCell (elapsed.getD (elapsed.length - 1) 0)).toList ++
          ['\n']) := by
  rw [shownRow, List.flatMap_cons, toList_rowPrefix, List.flatMap_append,
    List.flatMap_map, sampledValues, List.flatMap_map, List.flatMap_cons,
    List.flatMap_singleton, List.append_assoc]
  rfl

/-- Each quantile cell that is not the marker brings a separator. -/
theorem count_quantileCells (values : List Int) :
    (values.flatMap fun value => (quantileCell value).toList).count ',' =
      values.countP (· ≠ maxInt32) := by
  induction values with
  | nil => rfl
  | cons value values induction =>
      rw [List.flatMap_cons, List.count_append, induction]
      by_cases marker : value = maxInt32
      · have cell : quantileCell value = "-" := if_pos marker
        rw [cell, List.countP_cons_of_neg (by simpa using marker)]
        simp
      · have cell : quantileCell value = s!"{value}," := if_neg marker
        rw [cell, toList_closed, List.count_append,
          List.count_eq_zero.mpr (comma_notMem_toString value),
          List.countP_cons_of_pos (by simpa using marker)]
        simp [Nat.add_comm]

theorem comma_notMem_leadingFields {config : LatencyBenchmarkConfig}
    {caseName : String} (nameFree : ',' ∉ caseName.toList) (avg : Int) :
    ∀ field ∈ leadingFields config caseName avg, ',' ∉ field.toList := by
  intro field mem
  rcases List.mem_cons.mp mem with rfl | number
  · exact nameFree
  · have written : ∃ value : Int, field = toString value := by
      simp only [List.mem_cons, List.not_mem_nil, or_false] at number
      rcases number with rfl | rfl | rfl | rfl | rfl | rfl | rfl <;>
        exact ⟨_, rfl⟩
    obtain ⟨value, rfl⟩ := written
    exact comma_notMem_toString value

theorem count_leadingFields {config : LatencyBenchmarkConfig}
    {caseName : String} (nameFree : ',' ∉ caseName.toList) (avg : Int) :
    ((leadingFields config caseName avg).flatMap
      (fun field => field.toList ++ [','])).count ',' = 8 := by
  have listsFree : ∀ field ∈ (leadingFields config caseName avg).map
      String.toList, ',' ∉ field := by
    simpa using comma_notMem_leadingFields nameFree avg
  have closed := SeparatedFields.count_closed_fields listsFree
  rw [List.flatMap_map] at closed
  rw [closed]
  rfl

theorem length_csvFields_shownRow {config : LatencyBenchmarkConfig}
    {caseName : String} {elapsed : List Int}
    (nameFree : ',' ∉ caseName.toList) (avg : Int) :
    (csvFields (shownRow config caseName avg elapsed)).length =
      (sampledValues config elapsed).countP (· ≠ maxInt32) + 9 := by
  rw [csvFields, List.length_map, SeparatedFields.length_splitOn,
    flatMap_toList_shownRow, ← List.append_assoc, List.dropLast_concat,
    List.count_append, List.count_append, count_leadingFields nameFree,
    count_quantileCells, List.count_eq_zero.mpr (comma_notMem_lastCell _)]
  omega

/-- Where no quantile column shows the marker, every column has its
field. -/
theorem csvFields_shownRow {config : LatencyBenchmarkConfig}
    {caseName : String} {elapsed : List Int}
    (nameFree : ',' ∉ caseName.toList) (avg : Int)
    (unmarked : ∀ value ∈ sampledValues config elapsed, value ≠ maxInt32) :
    csvFields (shownRow config caseName avg elapsed) =
      leadingFields config caseName avg ++
        (quantileColumns config elapsed.length).map fun quantile =>
          lastCell (elapsed.getD quantile.2 0) := by
  have cells : (sampledValues config elapsed).flatMap
        (fun value => (quantileCell value).toList) =
      ((sampledValues config elapsed).map lastCell).flatMap
        fun field => field.toList ++ [','] := by
    rw [List.flatMap_map]
    apply List.flatMap_congr
    intro value mem
    have different := unmarked value mem
    have cell : quantileCell value = s!"{value}," := if_neg different
    have text : lastCell value = toString value := if_neg different
    rw [cell, toList_closed, text]
  have fields : csvFields (shownRow config caseName avg elapsed) =
      (leadingFields config caseName avg ++
        (sampledValues config elapsed).map lastCell) ++
          [lastCell (elapsed.getD (elapsed.length - 1) 0)] := by
    apply csvFields_eq
    case written =>
      rw [flatMap_toList_shownRow, cells, List.flatMap_append]
    case fieldsFree =>
      intro field mem
      rcases List.mem_append.mp mem with leading | cell
      · exact comma_notMem_leadingFields nameFree avg field leading
      · obtain ⟨value, _, rfl⟩ := List.mem_map.mp cell
        exact comma_notMem_lastCell value
    case lastFree => exact comma_notMem_lastCell _
  rw [fields, quantileColumns, List.map_append, List.map_map,
    List.append_assoc, sampledValues, List.map_map]
  rfl

/-- The position of a quantile column depends on its name only. -/
theorem quantileColumns_position {config : LatencyBenchmarkConfig} {cnt : Nat}
    (positiveStep : 1 ≤ config.reportStep)
    (isInt : config.reportStep < 2 ^ 31) {first second : Int × Nat}
    (firstMem : first ∈ quantileColumns config cnt)
    (secondMem : second ∈ quantileColumns config cnt)
    (sameName : first.1 = second.1) : first = second := by
  have cases : ∀ quantile ∈ quantileColumns config cnt,
      (quantile.1 < 100 ∧ quantile.2 =
        (quantilePosition roundBinary64 quantile.1 cnt).toNat) ∨
          quantile = (100, cnt - 1) := by
    intro quantile mem
    rcases List.mem_append.mp mem with sampled | last
    · obtain ⟨i, iMem, rfl⟩ := List.mem_map.mp sampled
      exact Or.inl ⟨(mem_quantiles positiveStep isInt iMem).2, rfl⟩
    · exact Or.inr (List.mem_singleton.mp last)
  rcases cases first firstMem with ⟨firstBelow, firstAt⟩ | rfl <;>
    rcases cases second secondMem with ⟨secondBelow, secondAt⟩ | rfl
  · exact Prod.ext sameName (by rw [firstAt, secondAt, sameName])
  · dsimp only at sameName
    omega
  · dsimp only at sameName
    omega
  · rfl

/-- A row over comma-free names follows the head exactly when no quantile
column shows the marker. -/
theorem shownRow_followsHead_iff {config : LatencyBenchmarkConfig}
    {caseName : String} {elapsed : List Int}
    (positiveStep : 1 ≤ config.reportStep)
    (isInt : config.reportStep < 2 ^ 31)
    (nameFree : ',' ∉ caseName.toList) (avg : Int) :
    RowFollowsHead config elapsed (shownRow config caseName avg elapsed) ↔
      ∀ value ∈ sampledValues config elapsed, value ≠ maxInt32 := by
  have headFields := csvFields_columnHead config elapsed.length
  constructor
  · rintro ⟨sameLength, _⟩
    rw [length_csvFields_shownRow nameFree, headFields] at sameLength
    have counted : (sampledValues config elapsed).countP (· ≠ maxInt32) =
        (sampledValues config elapsed).length := by
      simp only [leadingColumns, quantileColumns, List.length_append,
        List.length_cons, List.length_nil, List.length_map] at sameLength
      rw [sampledValues, List.length_map]
      rw [sampledValues] at sameLength
      omega
    intro value mem
    exact of_decide_eq_true (List.countP_eq_length.mp counted value mem)
  · intro unmarked
    have rowFields := csvFields_shownRow nameFree avg unmarked
    constructor
    · rw [rowFields, headFields, List.length_append, List.length_append,
        List.length_map, List.length_map]
      rfl
    · intro column quantile mem named
      rw [headFields] at named
      rcases Nat.lt_or_ge column leadingColumns.length with early | late
      · rw [List.getElem?_append_left early] at named
        exact absurd (List.mem_of_getElem? named)
          (toString_notMem_leadingColumns _)
      · rw [List.getElem?_append_right late, List.getElem?_map,
          Option.map_eq_some_iff] at named
        obtain ⟨other, otherAt, sameText⟩ := named
        have sameName : other.1 = quantile.1 := Int.repr_inj.mp sameText
        have same := quantileColumns_position positiveStep isInt
          (List.mem_of_getElem? otherAt) mem sameName
        have lateField : (leadingFields config caseName avg).length ≤
            column := late
        rw [rowFields, List.getElem?_append_right lateField,
          List.getElem?_map]
        change Option.map _ ((quantileColumns config elapsed.length)[
          column - leadingColumns.length]?) = _
        rw [otherAt, same]
        rfl

/-! ## Both rows of a pair -/

theorem shownElapsed_eq_maxInt32_iff {beg end_ : LatencyBenchmarkRecord} :
    shownElapsed beg end_ ≠ maxInt32 ↔
      ¬IsMissing end_ ∧ elapsedTime beg end_ ≠ maxInt32 := by
  unfold shownElapsed
  split
  · next missing => simp [missing]
  · next present => simp [present]

theorem countP_shown (begs ends : List LatencyBenchmarkRecord)
    (holds : Int → Bool) :
    (List.zipWith shownElapsed begs ends).countP holds =
      (begs.zip ends).countP fun message =>
        holds (shownElapsed message.1 message.2) := by
  rw [← List.map_uncurry_zip_eq_zipWith, List.countP_map]
  rfl

theorem countP_shown_lt (begs ends : List LatencyBenchmarkRecord) :
    (List.zipWith shownElapsed begs ends).countP (· < maxInt32) =
      countBelowMarker begs ends := by
  rw [countP_shown, countBelowMarker]
  apply List.countP_congr
  rintro ⟨beg, end_⟩ _
  by_cases missing : IsMissing end_ <;> simp [shownElapsed, missing]

theorem countP_shown_le (begs ends : List LatencyBenchmarkRecord) :
    (List.zipWith shownElapsed begs ends).countP (· ≤ maxInt32) =
      countUpToMarker begs ends := by
  rw [countP_shown, countUpToMarker]
  apply List.countP_congr
  rintro ⟨beg, end_⟩ _
  by_cases missing : IsMissing end_ <;> simp [shownElapsed, missing]

theorem quantile_index_lt {config : LatencyBenchmarkConfig} {cnt : Nat}
    (positiveStep : 1 ≤ config.reportStep)
    (isInt : config.reportStep < 2 ^ 31) (positive : 0 < cnt) {i : Int}
    (mem : i ∈ quantiles config.reportStep) :
    (quantilePosition roundBinary64 i cnt).toNat < cnt := by
  obtain ⟨nonneg, below⟩ := mem_quantiles positiveStep isInt mem
  obtain ⟨low, high⟩ := quantilePosition_bounds roundBinary64_hasDoubleError
    nonneg below (by omega : (1 : Int) ≤ cnt)
  omega

section

variable {config : LatencyBenchmarkConfig}
  {begs ends : List LatencyBenchmarkRecord}

theorem length_shown (sameLength : begs.length = ends.length) :
    (List.zipWith shownElapsed begs ends).length = begs.length := by
  rw [List.length_zipWith, ← sameLength, Nat.min_self]

theorem unmarked_byIdx_iff (positiveStep : 1 ≤ config.reportStep)
    (isInt : config.reportStep < 2 ^ 31)
    (sameLength : begs.length = ends.length) (nonempty : begs ≠ []) :
    (∀ value ∈ sampledValues config (List.zipWith shownElapsed begs ends),
        value ≠ maxInt32) ↔
      ∀ i ∈ quantiles config.reportStep, ∀ beg end_,
        begs[(quantilePosition roundBinary64 i begs.length).toNat]? =
            some beg →
          ends[(quantilePosition roundBinary64 i begs.length).toNat]? =
              some end_ →
            ¬IsMissing end_ ∧ elapsedTime beg end_ ≠ maxInt32 := by
  have positive := List.length_pos_of_ne_nil nonempty
  rw [sampledValues, List.forall_mem_map, length_shown sameLength]
  apply forall_congr'
  intro i
  apply imp_congr_right
  intro mem
  have inBegs := quantile_index_lt positiveStep isInt positive mem
  generalize (quantilePosition roundBinary64 i begs.length).toNat = index
    at inBegs
  have inEnds : index < ends.length := sameLength ▸ inBegs
  rw [List.getD_eq_getElem?_getD, List.getElem?_zipWith,
    List.getElem?_eq_getElem inBegs, List.getElem?_eq_getElem inEnds]
  change shownElapsed begs[index] ends[index] ≠ maxInt32 ↔ _
  rw [shownElapsed_eq_maxInt32_iff]
  simp

theorem unmarked_byElapsed_iff (positiveStep : 1 ≤ config.reportStep)
    (isInt : config.reportStep < 2 ^ 31)
    (sameLength : begs.length = ends.length) (nonempty : begs ≠ []) :
    (∀ value ∈ sampledValues config
        (List.zipWith shownElapsed begs ends).mergeSort,
          value ≠ maxInt32) ↔
      ∀ i ∈ quantiles config.reportStep,
        (quantilePosition roundBinary64 i begs.length).toNat <
            countBelowMarker begs ends ∨
          countUpToMarker begs ends ≤
            (quantilePosition roundBinary64 i begs.length).toNat := by
  have positive := List.length_pos_of_ne_nil nonempty
  have sorts := OrderStatistics.sorts_mergeSort
    (List.zipWith shownElapsed begs ends)
  have sortedLength := sorts.length_eq.trans (length_shown sameLength)
  rw [sampledValues, List.forall_mem_map, sortedLength]
  apply forall_congr'
  intro i
  apply imp_congr_right
  intro mem
  have inside := quantile_index_lt positiveStep isInt positive mem
  rw [← sortedLength] at inside
  rw [List.getD_eq_getElem?_getD, List.getElem?_eq_getElem
    (sortedLength ▸ inside), Option.getD_some, ne_eq,
    sorts.getElem_eq_iff, countP_shown_lt, countP_shown_le]
  omega

end

theorem recordsOf_eq {handle : LatencyBenchmarkHandle} {action : Int}
    {records : List LatencyBenchmarkRecord}
    (stored : handle.getActionTimestampRecords action =
      some (records.map some)) : handle.recordsOf action = records := by
  rw [recordsOf, stored, Option.getD_some, List.filterMap_map]
  exact List.filterMap_some

/-- Over recorded actions each row completes, and follows the head exactly
when none of its quantile columns shows the marker. -/
theorem exists_row {handle : LatencyBenchmarkHandle}
    {latencyPair : Int × Int} {config : LatencyBenchmarkConfig}
    (positiveStep : 1 ≤ config.reportStep)
    (isInt : config.reportStep < 2 ^ 31)
    (positiveCount : 1 ≤ handle.recordCount)
    (first : handle.IsRecorded latencyPair.1)
    (second : handle.IsRecorded latencyPair.2) {order : String}
    (orderFree : ',' ∉ order.toList) (sort : Bool) :
    ∃ row, handle.genLatencyReportBody latencyPair config
        (handle.caseName latencyPair order) sort = .ok row ∧
      (RowFollowsHead config
          (if sort then (handle.shownLatencies latencyPair).mergeSort
            else handle.shownLatencies latencyPair) row ↔
        ∀ value ∈ sampledValues config
          (if sort then (handle.shownLatencies latencyPair).mergeSort
            else handle.shownLatencies latencyPair), value ≠ maxInt32) := by
  obtain ⟨begs, begRecords, begsLength⟩ := first.filled
  obtain ⟨ends, endRecords, endsLength⟩ := second.filled
  have sameLength : begs.length = ends.length := by omega
  have nonempty : begs ≠ [] := by
    apply List.ne_nil_of_length_pos
    omega
  obtain ⟨avg, written⟩ := genLatencyReportBody_eq_ok
    (handle.caseName latencyPair order) sort positiveStep isInt begRecords
      endRecords sameLength nonempty
  refine ⟨_, written, ?_⟩
  rw [shownLatencies, recordsOf_eq begRecords, recordsOf_eq endRecords]
  exact shownRow_followsHead_iff positiveStep isInt
    (comma_notMem_caseName first second orderFree) avg

/-- Both rows of a pair. -/
theorem exists_rows {handle : LatencyBenchmarkHandle}
    {latencyPair : Int × Int} {config : LatencyBenchmarkConfig}
    (positiveStep : 1 ≤ config.reportStep)
    (isInt : config.reportStep < 2 ^ 31)
    (positiveCount : 1 ≤ handle.recordCount)
    (first : handle.IsRecorded latencyPair.1)
    (second : handle.IsRecorded latencyPair.2) :
    ∃ byIdx byElapsed,
      handle.genLatencyReportBody latencyPair config
          (handle.caseName latencyPair "idx") false = .ok byIdx ∧
        handle.genLatencyReportBody latencyPair config
          (handle.caseName latencyPair "elapsed") true = .ok byElapsed ∧
        (RowFollowsHead config (handle.shownLatencies latencyPair) byIdx ∧
            RowFollowsHead config
              (handle.shownLatencies latencyPair).mergeSort byElapsed ↔
          SeparatesCells config (handle.recordsOf latencyPair.1)
            (handle.recordsOf latencyPair.2)) := by
  obtain ⟨byIdx, idxWritten, idxFollows⟩ := exists_row positiveStep isInt
    positiveCount first second (by decide : ',' ∉ "idx".toList) false
  obtain ⟨byElapsed, elapsedWritten, elapsedFollows⟩ :=
    exists_row positiveStep isInt positiveCount first second
      (by decide : ',' ∉ "elapsed".toList) true
  refine ⟨byIdx, byElapsed, idxWritten, elapsedWritten, ?_⟩
  obtain ⟨begs, begRecords, begsLength⟩ := first.filled
  obtain ⟨ends, endRecords, endsLength⟩ := second.filled
  have sameLength : begs.length = ends.length := by omega
  have nonempty : begs ≠ [] := by
    apply List.ne_nil_of_length_pos
    omega
  simp only [Bool.false_eq_true, if_false] at idxFollows
  simp only [if_true] at elapsedFollows
  rw [idxFollows, elapsedFollows, shownLatencies, recordsOf_eq begRecords,
    recordsOf_eq endRecords,
    unmarked_byIdx_iff positiveStep isInt sameLength nonempty,
    unmarked_byElapsed_iff positiveStep isInt sameLength nonempty]
  constructor
  · rintro ⟨byIdxClear, byElapsedClear⟩
    exact ⟨byIdxClear, byElapsedClear⟩
  · rintro ⟨byIdxClear, byElapsedClear⟩
    exact ⟨byIdxClear, byElapsedClear⟩

/-- **Columns of the report.**  Over recorded actions the report completes,
and all its rows follow the column header exactly when no quantile column
falls on a missing message or on a latency that equals the marker value. -/
theorem genLatencyReport_rectangular_iff {handle : LatencyBenchmarkHandle}
    {latencyPairs : List (Int × Int)} {config : LatencyBenchmarkConfig}
    (positiveStep : 1 ≤ config.reportStep)
    (isInt : config.reportStep < 2 ^ 31)
    (positiveCount : 1 ≤ handle.recordCount)
    (recorded : ∀ latencyPair ∈ latencyPairs,
      handle.IsRecorded latencyPair.1 ∧ handle.IsRecorded latencyPair.2) :
    ∃ byIdx byElapsed,
      handle.WritesRows latencyPairs config byIdx byElapsed ∧
        (handle.IsRectangular latencyPairs config byIdx byElapsed ↔
          ∀ latencyPair ∈ latencyPairs,
            SeparatesCells config (handle.recordsOf latencyPair.1)
              (handle.recordsOf latencyPair.2)) := by
  have rows := fun latencyPair mem => exists_rows
    positiveStep isInt positiveCount (recorded latencyPair mem).1
      (recorded latencyPair mem).2
  choose! byIdx byElapsed rowsOf using rows
  refine ⟨byIdx, byElapsed, ⟨?_, ?_⟩, ?_⟩
  · intro latencyPair mem
    exact ⟨(rowsOf latencyPair mem).1, (rowsOf latencyPair mem).2.1⟩
  · have bodies : latencyPairs.mapM (fun latencyPair => do
          let byIdx ← handle.genLatencyReportBody latencyPair config
            (handle.caseName latencyPair "idx") false
          let byElapsed ← handle.genLatencyReportBody latencyPair config
            (handle.caseName latencyPair "elapsed") true
          return byIdx ++ byElapsed :
            Int × Int → Except JavaException (List String)) =
        .ok (latencyPairs.map fun latencyPair =>
          byIdx latencyPair ++ byElapsed latencyPair) := by
      apply ExceptTraversal.mapM_eq_ok
      intro latencyPair mem
      rw [(rowsOf latencyPair mem).1, (rowsOf latencyPair mem).2.1]
      rfl
    rw [genLatencyReport, bodies, List.flatMap_def]
    rfl
  · apply forall_congr'
    intro latencyPair
    apply imp_congr_right
    intro mem
    exact (rowsOf latencyPair mem).2.2

/-- The theorem on three messages, one of them missing. -/
theorem genLatencyReport_rectangular_iff_three :
    ∃ handle, recordedHandle 3 (0, 1) ("write", "read") threeBegs
        (threeEnds.map some) = .ok handle ∧
      ∃ byIdx byElapsed,
        handle.WritesRows [(0, 1)] {} byIdx byElapsed ∧
          (handle.IsRectangular [(0, 1)] {} byIdx byElapsed ↔
            ∀ latencyPair ∈ [(0, 1)],
              SeparatesCells {} (handle.recordsOf latencyPair.1)
                (handle.recordsOf latencyPair.2)) := by
  refine ⟨_, rfl, genLatencyReport_rectangular_iff (by decide) (by decide)
    (by decide) ?_⟩
  intro latencyPair mem
  rw [List.mem_singleton.mp mem]
  exact ⟨⟨⟨"write", rfl, by decide⟩, threeBegs, rfl, rfl⟩,
    ⟨⟨"read", rfl, by decide⟩, threeEnds, rfl, rfl⟩⟩

/-- One message that was stored with a zero end record: ten markers without
separators join the field of the last column, so the row has nine fields
under a header of nineteen. -/
theorem missing_record_joins_columns :
    ∃ handle, recordedHandle 1 (0, 1) ("write", "read") [{ sec := 1 }]
        [some {}] = .ok handle ∧
      handle.IsRecorded 0 ∧ handle.IsRecorded 1 ∧
      ∃ row, handle.genLatencyReportBody (0, 1) {}
          (handle.caseName (0, 1) "idx") false = .ok row ∧
        (csvFields row).length = 9 ∧
        (csvFields (columnHead {})).length = 19 ∧
        ¬RowFollowsHead {} (handle.shownLatencies (0, 1)) row := by
  have positiveStep : 1 ≤ ({} : LatencyBenchmarkConfig).reportStep := by
    decide
  have isInt : ({} : LatencyBenchmarkConfig).reportStep < 2 ^ 31 := by decide
  have marked : ∀ value ∈ sampledValues {} [maxInt32], value = maxInt32 := by
    intro value mem
    obtain ⟨i, iMem, rfl⟩ := List.mem_map.mp mem
    have inside := quantile_index_lt positiveStep isInt one_pos iMem
    have first : (quantilePosition roundBinary64 i 1).toNat = 0 :=
      Nat.lt_one_iff.mp inside
    simp [first]
  have noneUnmarked :
      (sampledValues {} [maxInt32]).countP (· ≠ maxInt32) = 0 := by
    apply List.countP_eq_zero.mpr
    intro value mem
    simpa using marked value mem
  obtain ⟨handle, recorded, begRecords, endRecords, count, begName,
      endName⟩ : ∃ handle, recordedHandle 1 (0, 1) ("write", "read")
        [{ sec := 1 }] [some {}] = .ok handle ∧
      handle.getActionTimestampRecords 0 = some ([{ sec := 1 }].map some) ∧
      handle.getActionTimestampRecords 1 = some ([{}].map some) ∧
      handle.recordCount = 1 ∧ handle.actionMap.get 0 = some "write" ∧
      handle.actionMap.get 1 = some "read" :=
    ⟨_, rfl, rfl, rfl, rfl, rfl, rfl⟩
  have first : handle.IsRecorded 0 :=
    ⟨⟨"write", begName, by decide⟩, _, begRecords, count.symm⟩
  have second : handle.IsRecorded 1 :=
    ⟨⟨"read", endName, by decide⟩, _, endRecords, count.symm⟩
  have nameFree : ',' ∉ (handle.caseName (0, 1) "idx").toList :=
    comma_notMem_caseName first second (by decide)
  have shown : handle.shownLatencies (0, 1) = [maxInt32] := by
    rw [shownLatencies, recordsOf_eq begRecords, recordsOf_eq endRecords]
    rfl
  have sameLength : [({ sec := 1 } : LatencyBenchmarkRecord)].length =
      [({} : LatencyBenchmarkRecord)].length :=
    rfl
  obtain ⟨avg, written⟩ : ∃ avg, handle.genLatencyReportBody (0, 1) {}
      (handle.caseName (0, 1) "idx") false =
        .ok (shownRow {} (handle.caseName (0, 1) "idx") avg [maxInt32]) :=
    genLatencyReportBody_eq_ok _ false positiveStep isInt begRecords
      endRecords sameLength (List.cons_ne_nil _ _)
  refine ⟨handle, recorded, first, second, _, written, ?_, ?_, ?_⟩
  · rw [length_csvFields_shownRow nameFree]
    rw [noneUnmarked]
  · rw [csvFields_columnHead {} 1]
    rfl
  · rw [shown]
    rw [shownRow_followsHead_iff positiveStep isInt nameFree avg]
    intro unmarked
    have sampled : ∃ value, value ∈ sampledValues {} [maxInt32] :=
      ⟨_, List.mem_map_of_mem (by decide : (0 : Int) ∈ quantiles 10)⟩
    obtain ⟨value, mem⟩ := sampled
    exact unmarked value mem (marked value mem)

end LatencyBenchmarkHandle

end LatencyBenchmark
