import LatencyBenchmark.ReportFiles
import LatencyBenchmark.WsSessionRun

/-!
# From a websocket session to its report file

When the connection is closed the receiver hands its samples to
`GenWsReport`.  The file it writes reads back as a table, and every number in
its rows is the latency of a message of the session.
-/

namespace LatencyBenchmark

namespace WsSession

open WsReport ReportFiles

/-- The configuration fits the types of the receiver. -/
def ConfigFits (receiver : Program) (config : WsConfig) : Prop :=
  match receiver with
  | .golang => config.reportStep < 2 ^ 63
  | .cpp => FitsCpp config

theorem ConfigFits.reportStep_lt {receiver : Program} {config : WsConfig}
    (fits : ConfigFits receiver config) :
    config.reportStep < intLimit receiver := by
  cases receiver with
  | golang => exact fits
  | cpp => exact FitsCpp.reportStep fits

/-- The rows of the file. -/
def fileRows (arithmetic : DoubleArithmetic) (config : WsConfig)
    (samples : List Int) : List Csv.Row :=
  (wsSources config samples).map (shownRow arithmetic config.reportStep)

variable {room : Nat} {recorder : Recorder room}

/-- A number is the latency of a message. -/
def IsLatency (state : State recorder) (number : Int) : Prop :=
  0 ≤ number ∧ ∃ (message : Nat) (departure arrival : Int),
    state.sent[message]? = some departure ∧
      state.arrived[message]? = some arrival ∧ number = arrival - departure

/-- The numbers between departures and arrivals are latencies. -/
theorem isLatency_of_mem_latencies {state : State recorder} {number : Int}
    (nonneg : 0 ≤ number)
    (mem : number ∈ latencies state.arrived state.sent) :
    IsLatency state number := by
  obtain ⟨message, inside, rfl⟩ := List.mem_iff_getElem.mp mem
  rw [latencies, List.length_zipWith] at inside
  refine ⟨nonneg, message, _, _, List.getElem?_eq_getElem (by omega),
    List.getElem?_eq_getElem (by omega), List.getElem_zipWith⟩

/-- Every number of the rows is one of the samples. -/
theorem mem_of_mem_fileRows {arithmetic : DoubleArithmetic}
    (accurate : arithmetic.Accurate) {config : WsConfig}
    (positive : 1 ≤ config.reportStep) {samples : List Int}
    (nonempty : samples ≠ []) {row : Csv.Row}
    (inRows : row ∈ fileRows arithmetic config samples) {number : Int}
    (mem : number ∈ row.2) : number ∈ samples := by
  have sortedNonempty : samples.mergeSort ≠ [] := by
    apply List.ne_nil_of_length_pos
    rw [List.length_mergeSort]
    exact List.length_pos_of_ne_nil nonempty
  simp only [fileRows, wsSources, List.map_cons, List.map_nil, List.mem_cons,
    List.not_mem_nil, or_false] at inRows
  rcases inRows with rfl | rfl
  · exact mem_of_mem_shownNumbers accurate positive nonempty mem
  · exact List.mem_mergeSort.mp
      (mem_of_mem_shownNumbers accurate positive sortedNonempty mem)

/-- **From the session to the file.**  Whichever programs send and record,
the file of a finished session reads back, with one column for each quantile,
and shows only latencies of its messages, none of them negative. -/
theorem session_reportFile {sender receiver : Program} {direction : Direction}
    {config : WsConfig} {loop cnt iterations : Nat}
    {arithmetic : DoubleArithmetic} (accurate : arithmetic.Accurate)
    (positive : 1 ≤ config.reportStep) (fits : ConfigFits receiver config)
    (enough : 100 ≤ iterations) (dirCell : Csv.IsCell config.dir)
    (someMessage : 0 < loop * cnt)
    (admissible : Admissible receiver config loop cnt)
    {state : State (recorderOf receiver direction config
      admissible.maxLen_eq)}
    (reachable : (system sender config (recorderOf receiver direction config
      admissible.maxLen_eq)
        (reportFile receiver arithmetic config iterations)).ReachableUnder
          ClockRuns state)
    {samples : List Int} (reported : state.report = some samples) :
    ReadsAs (reportFile receiver arithmetic config iterations samples)
        wsNames (shownColumns config.reportStep)
        (fileRows arithmetic config samples) ∧
      ∀ row ∈ fileRows arithmetic config samples, ∀ number ∈ row.2,
        IsLatency state number := by
  have completes : Completes (reportFile receiver arithmetic config iterations)
      (loop * cnt) :=
    completes_reportFile accurate positive fits.reportStep_lt enough
      someMessage
  have invariant :=
    Invariant.of_reachableUnder admissible.toLoops completes reachable
  obtain ⟨closed, all, rfl⟩ := invariant.reported samples reported
  have sends := invariant.sends
  rw [closed] at sends
  have length : (latencies state.arrived state.sent).length = loop * cnt := by
    rw [length_latencies invariant.arrived_le, all]
    exact sends
  have nonempty : latencies state.arrived state.sent ≠ [] := by
    apply List.ne_nil_of_length_pos
    omega
  constructor
  · have few := admissible.fits
    cases receiver with
    | golang =>
        exact golang_genWsReport_readsAs accurate positive fits enough
          nonempty dirCell
    | cpp =>
        have few : ((loop * cnt : Nat) : Int) < 2 ^ 31 := few
        exact cpp_genWsReport_readsAs accurate positive fits
          (by rw [length]; omega) enough nonempty dirCell
  · intro row inRows number mem
    have sample := mem_of_mem_fileRows accurate positive nonempty inRows mem
    exact isLatency_of_mem_latencies
      (invariant.latencies_nonneg number sample) sample

theorem session_reportFile_twoMessages :
    ∃ state : State (recorderOf .golang .stc twoMessages
        admissible_twoMessages.maxLen_eq),
      state.report = some [1500000000, 1600000000] ∧
        ReadsAs (reportFile .golang binary64 twoMessages 100
            [1500000000, 1600000000]) wsNames (shownColumns 10)
          (fileRows binary64 twoMessages [1500000000, 1600000000]) := by
  obtain ⟨trace, state, reported, run, meets⟩ := twoMessages_run
  have step : 1 ≤ twoMessages.reportStep := by decide
  have fits : ConfigFits .golang twoMessages :=
    show twoMessages.reportStep < 2 ^ 63 by decide
  have file := session_reportFile binary64_accurate step fits (le_refl 100)
    (by decide) Nat.two_pos admissible_twoMessages ⟨trace, run, meets⟩ reported
  exact ⟨state, reported, file.1⟩

end WsSession

end LatencyBenchmark
