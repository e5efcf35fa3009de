import LatencyBenchmark.CsvTable
import LatencyBenchmark.ThreadTransReport

/-!
# Report files are tables

The report writers of the Go and the C++ programs write texts one after
another: a header, and rows whose cells each bring their own separator.
Read as comma-separated text, a finished file is a table of numbers with the
header's columns, and the numbers are the samples the writers took.
-/

namespace LatencyBenchmark

open WsReport

namespace ReportFiles

/-- A file after some texts were written to it. -/
def written (texts : List String) : List Char :=
  texts.flatMap String.toList

/-- Names that are each followed by a comma. -/
def separated (names : List String) : List String :=
  names.flatMap fun name => [name, ","]

/-- The numbers in the header. -/
def shownColumns (step : Int) : List Int :=
  columns step ++ [100]

/-- The numbers of a row: the sample of each column, and the last one. -/
def shownNumbers (arithmetic : DoubleArithmetic) (step : Int)
    (samples : List Int) : List Int :=
  (columns step).map (cellAt arithmetic samples) ++ [lastAt samples]

/-- The texts of a header. -/
def headerTexts (names : List String) (step : Int) : List String :=
  separated names ++ columnTexts step ++ ["100", "\n"]

/-- A text made of cells that are each followed by a comma. -/
def Closes (lead : String) (cells : List String) : Prop :=
  lead.toList = cells.flatMap fun cell => cell.toList ++ [',']

/-- A finished file reads as a table with these columns and rows. -/
def ReadsAs (report : Except Failure (List String)) (names : List String)
    (columns : List Int) (rows : List Csv.Row) : Prop :=
  ∃ texts table, report = .ok texts ∧
    CsvTable.read names.length (written texts) = some table ∧
      table.names = names ∧ table.columns = columns ∧ table.rows = rows

/-! ## Lines -/

theorem written_append (first second : List String) :
    written (first ++ second) = written first ++ written second :=
  List.flatMap_append

/-- Numbers that are each followed by a comma, and a last one, end a line. -/
theorem line_append_numbers (texts : List String) (numbers : List Int)
    (last : Int) :
    Csv.line (CsvTable.rowCells (texts, numbers ++ [last])) =
      (texts.flatMap fun text => text.toList ++ [',']) ++
        written ((numbers.map fun number => s!"{number},") ++
          [s!"{last}", "\n"]) := by
  have closed (number : Int) : (s!"{number},").toList =
      (toString number).toList ++ [','] := by
    change (toString number ++ ",").toList = _
    rw [String.toList_append]
    rfl
  unfold CsvTable.rowCells written
  rw [List.map_append, ← List.append_assoc]
  change Csv.line (_ ++ [toString last]) = _
  rw [Csv.line_append_singleton]
  simp only [List.flatMap_append, List.flatMap_map, closed,
    List.flatMap_cons, List.flatMap_nil, List.append_nil, List.append_assoc]
  rfl

/-- The line of a header. -/
theorem written_headerTexts (names : List String) (step : Int) :
    written (headerTexts names step) =
      Csv.line (CsvTable.rowCells (names, shownColumns step)) := by
  have leading : written (separated names) =
      names.flatMap fun name => name.toList ++ [','] := by
    unfold written separated
    rw [List.flatMap_assoc]
    apply List.flatMap_congr
    intro name _
    simp
  rw [shownColumns, line_append_numbers, headerTexts, List.append_assoc,
    written_append, leading]
  rfl

/-- The line of a row. -/
theorem written_rowTexts {arithmetic : DoubleArithmetic} {step : Int}
    {lead : String} {cells : List String} (samples : List Int)
    (closes : Closes lead cells) :
    written (rowTexts arithmetic step lead samples) =
      Csv.line (CsvTable.rowCells
        (cells, shownNumbers arithmetic step samples)) := by
  have texts : rowTexts arithmetic step lead samples =
      [lead] ++ (((columns step).map (cellAt arithmetic samples)).map
        (fun number => s!"{number},") ++ [s!"{lastAt samples}", "\n"]) := by
    rw [List.map_map]
    rfl
  rw [shownNumbers, line_append_numbers, ← closes, texts, written_append]
  simp [written]

/-! ## Files -/

/-- A row as a writer sees it: the cells in front of the numbers and the
samples it takes the numbers from. -/
abbrev Source :=
  List String × List Int

/-- The row of a source. -/
def shownRow (arithmetic : DoubleArithmetic) (step : Int) (source : Source) :
    Csv.Row :=
  (source.1, shownNumbers arithmetic step source.2)

/-- A header and rows that fit it read as a table. -/
theorem readsAs_of_written {arithmetic : DoubleArithmetic} {step : Int}
    {report : Except Failure (List String)} {names texts : List String}
    {sources : List Source} (wrote : report = .ok texts)
    (lines : written texts = written (headerTexts names step) ++
      sources.flatMap fun source =>
        Csv.line (CsvTable.rowCells (shownRow arithmetic step source)))
    (namesCells : ∀ name ∈ names, Csv.IsCell name)
    (cells : ∀ source ∈ sources, source.1.length = names.length ∧
      ∀ cell ∈ source.1, Csv.IsCell cell) :
    ReadsAs report names (shownColumns step)
      (sources.map (shownRow arithmetic step)) := by
  let table : CsvTable := {
    names := names
    columns := shownColumns step
    rows := sources.map (shownRow arithmetic step)
    columns_ne_nil := by simp [shownColumns]
    names_cells := namesCells
    rows_fit := by
      intro row mem
      obtain ⟨source, inSources, rfl⟩ := List.mem_map.mp mem
      refine ⟨(cells source inSources).1, ?_⟩
      simp [shownRow, shownNumbers, shownColumns]
    rows_cells := by
      intro row mem
      obtain ⟨source, inSources, rfl⟩ := List.mem_map.mp mem
      exact (cells source inSources).2 }
  have file : written texts = table.write := by
    rw [lines, written_headerTexts]
    simp only [CsvTable.write, table, List.flatMap_cons, List.flatMap_map]
  exact ⟨texts, table, wrote, file ▸ table.read_write, rfl, rfl, rfl⟩

/-! ## Numbers of a row -/

/-- Every number of a row is one of the samples. -/
theorem mem_of_mem_shownNumbers {arithmetic : DoubleArithmetic} {step : Int}
    {samples : List Int} {number : Int} (accurate : arithmetic.Accurate)
    (positive : 1 ≤ step) (nonempty : samples ≠ [])
    (mem : number ∈ shownNumbers arithmetic step samples) :
    number ∈ samples := by
  have lengthPos := List.length_pos_of_ne_nil nonempty
  have inside {k : Nat} (less : k < samples.length) :
      samples.getD k 0 ∈ samples := by
    rw [List.getD_eq_getElem _ _ less]
    exact List.getElem_mem less
  rcases List.mem_append.mp mem with sampled | last
  · obtain ⟨i, inColumns, rfl⟩ := List.mem_map.mp sampled
    obtain ⟨nonneg, below⟩ := mem_columns positive inColumns
    obtain ⟨low, high⟩ : 0 ≤ samplePosition arithmetic i samples.length ∧
        samplePosition arithmetic i samples.length < samples.length :=
      samplePosition_bounds accurate nonneg below (by omega)
    exact inside (by omega)
  · rw [List.mem_singleton.mp last]
    exact inside (by omega)

/-! ## Texts in front of the numbers -/

/-- The number of digits and the sign of a 32-bit integer. -/
theorem length_toString_le {value : Int} (low : -2 ^ 31 ≤ value)
    (high : value < 2 ^ 31) : (toString value).toList.length ≤ 11 := by
  have digits (number : Nat) (small : number ≤ 2 ^ 31) :
      number.repr.toList.length ≤ 10 := by
    rw [String.length_toList, Nat.length_repr_le_iff (by decide)]
    omega
  rw [Int.toString_eq_repr, Int.repr_eq_if]
  split
  · exact le_trans (digits _ (by omega)) (by decide)
  · have bound := digits (-value).toNat (by omega)
    rw [String.toList_append, List.length_append]
    exact Nat.add_le_add (le_refl 1) bound

/-- A text that fits its buffer is stored whole. -/
theorem snprintf_eq_self {size : Nat} {text : String}
    (fits : text.toList.length < size) : Cpp.snprintf size text = text := by
  unfold Cpp.snprintf
  rw [List.take_of_length_le (by omega), String.ofList_toList]

/-! ## The websocket programs -/

/-- The names in front of the quantiles. -/
def wsNames : List String :=
  ["sorted", "loop", "cnt_per_loop", "loop_interval_ms", "pkg_cnt", "dir"]

/-- The cells of a row in front of the quantiles. -/
def wsCells (config : WsConfig) (cnt : Nat) (sorted : Bool) : List String :=
  [toString sorted, toString config.loop, toString config.cntPerLoop,
    toString config.loopInterval, toString (cnt : Int), config.dir]

/-- The two rows of a report. -/
def wsSources (config : WsConfig) (elapsed : List Int) : List Source :=
  [(wsCells config elapsed.length false, elapsed),
    (wsCells config elapsed.length true, elapsed.mergeSort)]

theorem isCell_of_mem_wsCells {config : WsConfig} {cnt : Nat} {sorted : Bool}
    {cell : String} (dirCell : Csv.IsCell config.dir)
    (mem : cell ∈ wsCells config cnt sorted) : Csv.IsCell cell := by
  simp only [wsCells, List.mem_cons, List.not_mem_nil, or_false] at mem
  rcases mem with rfl | rfl | rfl | rfl | rfl | rfl
  · cases sorted <;> decide
  · exact Csv.isCell_toString _
  · exact Csv.isCell_toString _
  · exact Csv.isCell_toString _
  · exact Csv.isCell_toString _
  · exact dirCell

/-- The text of the cells in front of the quantiles. -/
def wsLead (config : WsConfig) (cnt : Int) (sorted : Bool) : String :=
  s!"{sorted},{config.loop},{config.cntPerLoop}," ++
    s!"{config.loopInterval},{cnt},{config.dir},"

theorem closes_wsLead (config : WsConfig) (cnt : Nat) (sorted : Bool) :
    Closes (wsLead config cnt sorted) (wsCells config cnt sorted) := by
  have comma : ",".toList = [','] := rfl
  simp [Closes, wsLead, wsCells, comma, toString]

theorem wsReport_readsAs {arithmetic : DoubleArithmetic} {config : WsConfig}
    {elapsed : List Int} {report : Except Failure (List String)}
    (dirCell : Csv.IsCell config.dir)
    (wrote : report = .ok (WsReport.headTexts ++
      columnTexts config.reportStep ++ ["100", "\n"] ++
        rowTexts arithmetic config.reportStep
          (wsLead config elapsed.length false) elapsed ++
        rowTexts arithmetic config.reportStep
          (wsLead config elapsed.length true) elapsed.mergeSort)) :
    ReadsAs report wsNames (shownColumns config.reportStep)
      ((wsSources config elapsed).map
        (shownRow arithmetic config.reportStep)) := by
  apply readsAs_of_written wrote
  case lines =>
    rw [written_append, written_append, List.append_assoc]
    congr 1
    rw [written_rowTexts _ (closes_wsLead config elapsed.length false),
      written_rowTexts _ (closes_wsLead config elapsed.length true)]
    simp [wsSources, shownRow]
  case namesCells => decide
  case cells =>
    intro source mem
    simp only [wsSources, List.mem_cons, List.not_mem_nil, or_false] at mem
    rcases mem with rfl | rfl
    · exact ⟨rfl, fun _ => isCell_of_mem_wsCells dirCell⟩
    · exact ⟨rfl, fun _ => isCell_of_mem_wsCells dirCell⟩

/-- A configuration as the C++ programs hold it. -/
structure FitsCpp (config : WsConfig) : Prop where
  loop : -2 ^ 31 ≤ config.loop ∧ config.loop < 2 ^ 31
  cntPerLoop : -2 ^ 31 ≤ config.cntPerLoop ∧ config.cntPerLoop < 2 ^ 31
  loopInterval :
    -2 ^ 31 ≤ config.loopInterval ∧ config.loopInterval < 2 ^ 31
  reportStep : config.reportStep < 2 ^ 31
  /-- `char dir[8]` ends with a NUL. -/
  dir : config.dir.toList.length ≤ 7

theorem length_wsLead_le {config : WsConfig} (fits : FitsCpp config)
    {cnt : Int} (low : -2 ^ 31 ≤ cnt) (high : cnt < 2 ^ 31) (sorted : Bool) :
    (wsLead config cnt sorted).toList.length < 255 := by
  have flag : (toString sorted).toList.length ≤ 5 := by
    cases sorted <;> decide
  have loop := length_toString_le fits.loop.1 fits.loop.2
  have cntPerLoop := length_toString_le fits.cntPerLoop.1 fits.cntPerLoop.2
  have loopInterval :=
    length_toString_le fits.loopInterval.1 fits.loopInterval.2
  have count := length_toString_le low high
  have dir := fits.dir
  have comma : ",".toList = [','] := rfl
  simp only [wsLead, String.toList_append, List.length_append, comma,
    List.length_cons, List.length_nil, toString] at *
  omega

/-- The file of the Go programs reads back. -/
theorem golang_genWsReport_readsAs {arithmetic : DoubleArithmetic}
    (accurate : arithmetic.Accurate) {config : WsConfig} {elapsed : List Int}
    {iterations : Nat} (positive : 1 ≤ config.reportStep)
    (isInt : config.reportStep < 2 ^ 63) (enough : 100 ≤ iterations)
    (nonempty : elapsed ≠ []) (dirCell : Csv.IsCell config.dir) :
    ReadsAs (Golang.genWsReport arithmetic true elapsed elapsed.length config
        iterations) wsNames (shownColumns config.reportStep)
      ((wsSources config elapsed).map
        (shownRow arithmetic config.reportStep)) := by
  apply wsReport_readsAs dirCell
  unfold Golang.genWsReport Golang.writeWsReportHead Golang.writeWsReport
  rw [reportLines_rows_eq_ok accurate toInt64_exactBelow (by norm_num)
    positive isInt enough nonempty rfl]
  rfl

/-- The file of the C++ programs reads back. -/
theorem cpp_genWsReport_readsAs {arithmetic : DoubleArithmetic}
    (accurate : arithmetic.Accurate) {config : WsConfig} {elapsed : List Int}
    {iterations : Nat} (positive : 1 ≤ config.reportStep)
    (fits : FitsCpp config) (few : elapsed.length < 2 ^ 31)
    (enough : 100 ≤ iterations) (nonempty : elapsed ≠ [])
    (dirCell : Csv.IsCell config.dir) :
    ReadsAs (Cpp.genWsReport arithmetic true elapsed elapsed.length config
        iterations) wsNames (shownColumns config.reportStep)
      ((wsSources config elapsed).map
        (shownRow arithmetic config.reportStep)) := by
  have count : toInt32 (elapsed.length : Int) = elapsed.length :=
    toInt32_eq_self (by omega) (by omega)
  have whole (sorted : Bool) : Cpp.snprintf 255
      (wsLead config elapsed.length sorted) =
        wsLead config elapsed.length sorted :=
    snprintf_eq_self
      (length_wsLead_le fits (by omega) (by omega) sorted)
  apply wsReport_readsAs dirCell
  unfold Cpp.genWsReport Cpp.writeWsReportHead Cpp.writeWsReport
  rw [if_pos rfl, count]
  change reportLines _ (fun sorted elapsed => rowLine _ _ _
    (Cpp.snprintf 255 (wsLead config _ sorted)) _ _ _) _ = _
  simp only [whole]
  exact reportLines_rows_eq_ok accurate toInt32_exactBelow (by norm_num)
    positive fits.reportStep enough nonempty rfl

/-- **The websocket reports read back.**  The file of the Go programs and the
one of the C++ programs read as the same table: the two rows of the recorded
samples. -/
theorem wsReports_readBack {arithmetic : DoubleArithmetic}
    (accurate : arithmetic.Accurate) {config : WsConfig} {elapsed : List Int}
    {iterations : Nat} (positive : 1 ≤ config.reportStep)
    (enough : 100 ≤ iterations) (nonempty : elapsed ≠ [])
    (dirCell : Csv.IsCell config.dir) :
    (config.reportStep < 2 ^ 63 →
      ReadsAs (Golang.genWsReport arithmetic true elapsed elapsed.length
          config iterations) wsNames (shownColumns config.reportStep)
        ((wsSources config elapsed).map
          (shownRow arithmetic config.reportStep))) ∧
    (FitsCpp config → elapsed.length < 2 ^ 31 →
      ReadsAs (Cpp.genWsReport arithmetic true elapsed elapsed.length config
          iterations) wsNames (shownColumns config.reportStep)
        ((wsSources config elapsed).map
          (shownRow arithmetic config.reportStep))) :=
  ⟨fun isInt => golang_genWsReport_readsAs accurate positive isInt enough
      nonempty dirCell,
    fun fits few => cpp_genWsReport_readsAs accurate positive fits few enough
      nonempty dirCell⟩

theorem wsReports_readBack_three :
    ∃ config : WsConfig,
      ReadsAs (Golang.genWsReport binary64 true [30, 10, 20] 3 config 100)
        wsNames (shownColumns 10)
        ((wsSources config [30, 10, 20]).map (shownRow binary64 10)) ∧
      ReadsAs (Cpp.genWsReport binary64 true [30, 10, 20] 3 config 100)
        wsNames (shownColumns 10)
        ((wsSources config [30, 10, 20]).map (shownRow binary64 10)) := by
  let config : WsConfig := ⟨"127.0.0.1", 10102, "/ws", 3, 1, 0, 10, "cts"⟩
  have positive : 1 ≤ config.reportStep := by decide
  have samples : [30, 10, 20] ≠ ([] : List Int) := by decide
  have dirCell : Csv.IsCell config.dir := by decide
  obtain ⟨golang, cpp⟩ := wsReports_readBack binary64_accurate positive
    (le_refl 100) samples dirCell
  exact ⟨config, golang (by decide),
    cpp ⟨by decide, by decide, by decide, by decide, by decide⟩ (by decide)⟩

end ReportFiles

end LatencyBenchmark
