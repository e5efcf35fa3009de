import LatencyBenchmark.ThreadTransChannelSingleReader
import LatencyBenchmark.ThreadTransFiles

/-!
# From the runs of the channel benchmark to its file

When `benchmark_wr` reaches its report, the stamps its goroutines left in the
blocks become four rows of the file.  With one reader every number of these
rows is the latency of a block that was sent and received.
-/

namespace LatencyBenchmark

namespace ThreadTransChannel

open WsReport ThreadTransReport ReportFiles

/-- The array `Ts` of a block, the zero time where it is not set. -/
def LatencyBlock.stamps (block : LatencyBlock) :
    ThreadTransReport.Stamps :=
  fun slot => (block.ts slot).getD 0

variable {cntProducer cntConsumer : Nat} {limit : MakeLimit}
variable {config : ThreadTransConfig}

/-- The array `blocks` of a run. -/
def State.blocksOf (state : State cntProducer cntConsumer)
    (config : ThreadTransConfig) : List ThreadTransReport.Stamps :=
  (List.range (cnt config)).map fun k => (state.blocks k).stamps

/-- The configuration the report reads. -/
def ThreadTransConfig.forReport (config : ThreadTransConfig)
    (loopInterval reportStep : Int) : ThreadTransReport.ThreadTransConfig where
  loop := config.loop
  cntPerLoop := config.cntPerLoop
  loopInterval := loopInterval
  reportStep := reportStep

/-- The header, and the rows a benchmark writes at its report. -/
def reportFile (arithmetic : DoubleArithmetic) (config : ThreadTransConfig)
    (loopInterval reportStep : Int) (state : State cntProducer cntConsumer)
    (iterations : Nat) : Except Failure (List String) := do
  let head ← genThreadLantencyReportsHead
    (config.forReport loopInterval reportStep) iterations
  let rows ← benchmarkWrRows arithmetic
    (config.forReport loopInterval reportStep) (state.blocksOf config)
    cntProducer cntConsumer (cnt config) iterations
  return head ++ rows

/-- A number is the latency between two stamps of a received block. -/
def IsLatency (state : State cntProducer cntConsumer) (beg slot : Fin 8)
    (number : Int) : Prop :=
  0 ≤ number ∧ ∃ block consumerId first last,
    block ∈ (state.consumer consumerId).received ∧
      (state.blocks block).ts beg = some first ∧
        (state.blocks block).ts slot = some last ∧
          number = durationSub last first

/-- The difference of two times in their order is not negative. -/
theorem durationSub_nonneg {first last : Int} (order : first ≤ last) :
    0 ≤ durationSub last first := by
  unfold durationSub
  omega

section Report

variable {state : State cntProducer cntConsumer}

/-- The latencies in a row between the first stamp and another one. -/
theorem isLatency_of_mem_elapsedBetween {slot : Nat} (inside : slot < 8)
    (stamped : ∀ block < cnt config,
      ∃ consumerId first last, block ∈ (state.consumer consumerId).received ∧
        (state.blocks block).ts 0 = some first ∧
          (state.blocks block).ts ⟨slot, inside⟩ = some last ∧ first ≤ last)
    {number : Int}
    (mem : number ∈ elapsedBetween (state.blocksOf config) 0 slot) :
    IsLatency state 0 ⟨slot, inside⟩ number := by
  unfold elapsedBetween State.blocksOf at mem
  rw [List.map_map, List.mem_map] at mem
  obtain ⟨block, inRange, rfl⟩ := mem
  obtain ⟨consumerId, first, last, received, begins, ends, order⟩ :=
    stamped block (List.mem_range.mp inRange)
  have value : ((fun stamps : ThreadTransReport.Stamps => durationSub
      (if inside : slot < 8 then stamps ⟨slot, inside⟩ else 0)
      (if inside : 0 < 8 then stamps ⟨0, inside⟩ else 0)) ∘
        fun k => (state.blocks k).stamps) block = durationSub last first := by
    simp only [Function.comp_apply, dif_pos inside, LatencyBlock.stamps, ends]
    rw [dif_pos (Nat.succ_pos 7)]
    change durationSub last (((state.blocks block).ts 0).getD 0) = _
    rw [begins]
    rfl
  refine ⟨?_, block, consumerId, first, last, received, begins, ends, value⟩
  rw [value]
  exact durationSub_nonneg order

/-- The rows of the file. -/
def fileRows (arithmetic : DoubleArithmetic) (config : ThreadTransConfig)
    (loopInterval reportStep : Int) (state : State cntProducer cntConsumer) :
    List Csv.Row :=
  (benchmarkSources (config.forReport loopInterval reportStep)
    (state.blocksOf config) (cntProducer, cntConsumer)).map
      (shownRow arithmetic reportStep)

variable {arithmetic : DoubleArithmetic} {loopInterval reportStep : Int}
  {iterations : Nat}

/-- The file reads back. -/
theorem reportFile_readsAs (accurate : arithmetic.Accurate)
    (positive : 1 ≤ reportStep) (isInt : reportStep < 2 ^ 63)
    (enough : 100 ≤ iterations) (someBlock : 1 ≤ cnt config) :
    ReadsAs (reportFile arithmetic config loopInterval reportStep state
        iterations) threadTransNames (shownColumns reportStep)
      (fileRows arithmetic config loopInterval reportStep state) := by
  have positive : 1 ≤ (config.forReport loopInterval reportStep).reportStep :=
    positive
  have isInt :
      (config.forReport loopInterval reportStep).reportStep < 2 ^ 63 := isInt
  have head := genThreadLantencyReportsHead_eq_ok positive isInt enough
  have count : (state.blocksOf config).length = cnt config := by
    rw [State.blocksOf, List.length_map, List.length_range]
  obtain ⟨rows, wroteRows, rowsText⟩ := exists_benchmarkWrRows_eq_ok accurate
    positive isInt enough count someBlock (cntProducer, cntConsumer)
  have wrote : reportFile arithmetic config loopInterval reportStep state
      iterations =
        .ok (headerTexts threadTransNames reportStep ++ rows) := by
    unfold reportFile
    rw [head, wroteRows]
    rfl
  apply readsAs_of_written wrote
  case lines =>
    rw [written_append, rowsText]
    rfl
  case namesCells => decide
  case cells =>
    intro source mem
    exact cells_of_mem_benchmarkSources mem

/-- When every block was received and stamped, the first two rows show the
latencies of the writes and the others those of the deliveries. -/
theorem isLatency_of_mem_fileRows (accurate : arithmetic.Accurate)
    (positive : 1 ≤ reportStep) (someBlock : 1 ≤ cnt config)
    (stamped : ∀ block < cnt config, ∀ slot : Fin 8, slot = 1 ∨ slot = 2 →
      ∃ consumerId first last, block ∈ (state.consumer consumerId).received ∧
        (state.blocks block).ts 0 = some first ∧
          (state.blocks block).ts slot = some last ∧ first ≤ last) :
    (∀ row ∈ (fileRows arithmetic config loopInterval reportStep state).take 2,
      ∀ number ∈ row.2, IsLatency state 0 1 number) ∧
    ∀ row ∈ (fileRows arithmetic config loopInterval reportStep state).drop 2,
      ∀ number ∈ row.2, IsLatency state 0 2 number := by
  have nonempty (slot : Nat) :
      elapsedBetween (state.blocksOf config) 0 slot ≠ [] := by
    apply List.ne_nil_of_length_pos
    rw [elapsedBetween, List.length_map, State.blocksOf, List.length_map,
      List.length_range]
    omega
  have sortedNonempty (slot : Nat) :
      (elapsedBetween (state.blocksOf config) 0 slot).mergeSort ≠ [] := by
    apply List.ne_nil_of_length_pos
    rw [List.length_mergeSort]
    exact List.length_pos_of_ne_nil (nonempty slot)
  have sample (slot : Nat) (inside : slot < 8)
      (later : (⟨slot, inside⟩ : Fin 8) = 1 ∨ (⟨slot, inside⟩ : Fin 8) = 2)
      (number : Int)
      (mem : number ∈ elapsedBetween (state.blocksOf config) 0 slot) :
      IsLatency state 0 ⟨slot, inside⟩ number :=
    isLatency_of_mem_elapsedBetween inside
      (fun block inRange => stamped block inRange _ later) mem
  constructor
  · intro row mem number shown
    simp only [fileRows, benchmarkSources, List.map_cons, List.take_succ_cons,
      List.take_zero, List.mem_cons, List.not_mem_nil, or_false] at mem
    rcases mem with rfl | rfl
    · exact sample 1 (by decide) (.inl rfl) number
        (mem_of_mem_shownNumbers accurate positive (nonempty 1) shown)
    · exact sample 1 (by decide) (.inl rfl) number (List.mem_mergeSort.mp
        (mem_of_mem_shownNumbers accurate positive (sortedNonempty 1) shown))
  · intro row mem number shown
    simp only [fileRows, benchmarkSources, List.map_cons, List.map_nil,
      List.drop_succ_cons, List.drop_zero, List.mem_cons, List.not_mem_nil,
      or_false] at mem
    rcases mem with rfl | rfl
    · exact sample 2 (by decide) (.inr rfl) number
        (mem_of_mem_shownNumbers accurate positive (nonempty 2) shown)
    · exact sample 2 (by decide) (.inr rfl) number (List.mem_mergeSort.mp
        (mem_of_mem_shownNumbers accurate positive (sortedNonempty 2) shown))

end Report

/-! ## One reader -/

/-- At the report every block has its stamps in order. -/
theorem singleReader_stamped {state : State cntProducer 1}
    (someProducer : 0 < cntProducer)
    (reachable : (benchmarkWr limit config cntProducer 1).Reachable state)
    (atReport : state.main = .report) {block : Nat}
    (inside : block < config.loop * config.cntPerLoop) {slot : Fin 8}
    (later : slot = 1 ∨ slot = 2) :
    ∃ consumerId first last, block ∈ (state.consumer consumerId).received ∧
      (state.blocks block).ts 0 = some first ∧
        (state.blocks block).ts slot = some last ∧ first ≤ last := by
  have understood : (benchmarkWr limit config cntProducer 1).ReachableUnder
      Understood state :=
    reachable.reachableUnder fun before action _ reached _ =>
      (readerReady_of_reachable someProducer reached.reachable).understood
        action
  obtain ⟨⟨consumerId, received⟩, _, ends, reads⟩ :=
    (noLostBlock_of_report someProducer Nat.one_pos understood atReport).1
      block inside
  have stamped : ((state.blocks block).ts slot).isSome := by
    rcases later with rfl | rfl
    · exact ends
    · exact reads
  obtain ⟨last, lastAt⟩ := Option.isSome_iff_exists.mp stamped
  obtain ⟨_, first, firstAt, order⟩ :=
    (invariant_of_reachable someProducer Nat.one_pos reachable).stamps.later
      block slot last later lastAt
  exact ⟨consumerId, first, last, received, firstAt, lastAt, order⟩

/-- A run that reached its report had room for all blocks. -/
theorem singleReader_cnt_eq {state : State cntProducer 1}
    (someProducer : 0 < cntProducer)
    (reachable : (benchmarkWr limit config cntProducer 1).Reachable state)
    (atReport : state.main = .report) :
    cnt config = config.loop * config.cntPerLoop := by
  obtain ⟨producers, _, _⟩ :=
    complete_of_report someProducer reachable atReport
  have invariant := invariant_of_reachable someProducer Nat.one_pos reachable
  have length := invariant.traffic.length_sent someProducer producers
  have bound := invariant.traffic.length_le
  have wrapped : cnt config ≤ config.loop * config.cntPerLoop :=
    Nat.mod_le _ _
  omega

/-- **From the goroutines to the file.**  Whatever the interleaving of the
producers and the one reader, the file reads back with a sample for every
quantile, and every number in it is the latency of a block that was
received. -/
theorem singleReader_reportFile {arithmetic : DoubleArithmetic}
    {loopInterval reportStep : Int} {iterations : Nat}
    (accurate : arithmetic.Accurate) (positive : 1 ≤ reportStep)
    (isInt : reportStep < 2 ^ 63) (enough : 100 ≤ iterations)
    (someProducer : 0 < cntProducer)
    (someBlock : 0 < config.loop * config.cntPerLoop)
    {state : State cntProducer 1}
    (reachable : (benchmarkWr limit config cntProducer 1).Reachable state)
    (atReport : state.main = .report) :
    ReadsAs (reportFile arithmetic config loopInterval reportStep state
        iterations) threadTransNames (shownColumns reportStep)
      (fileRows arithmetic config loopInterval reportStep state) ∧
    (∀ row ∈ (fileRows arithmetic config loopInterval reportStep state).take 2,
      ∀ number ∈ row.2, IsLatency state 0 1 number) ∧
    ∀ row ∈ (fileRows arithmetic config loopInterval reportStep state).drop 2,
      ∀ number ∈ row.2, IsLatency state 0 2 number := by
  have all := singleReader_cnt_eq someProducer reachable atReport
  refine ⟨reportFile_readsAs accurate positive isInt enough (all ▸ someBlock),
    isLatency_of_mem_fileRows accurate positive (all ▸ someBlock) ?_⟩
  intro block inside slot later
  exact singleReader_stamped someProducer reachable atReport (all ▸ inside)
    later

theorem singleReader_reportFile_pair :
    ∃ state : State 2 1,
      (benchmarkWr amd64Limit pairConfig 2 1).Reachable state ∧
        state.main = .report ∧
        ReadsAs (reportFile binary64 pairConfig 0 10 state 100)
          threadTransNames (shownColumns 10)
          (fileRows binary64 pairConfig 0 10 state) := by
  have initial : (benchmarkWr amd64Limit pairConfig 2 1).initial
      (start 2 1 0) := ⟨0, rfl⟩
  have reachable := (TransitionSystem.Reachable.of_initial initial).execute
    (show (benchmarkWr amd64Limit pairConfig 2 1).execute (start 2 1 0)
      (readerReport 0 1 0) = some _ from rfl)
  exact ⟨_, reachable, rfl, (singleReader_reportFile binary64_accurate
    (by decide) (by decide) (le_refl 100) Nat.two_pos (by decide) reachable
    rfl).1⟩

end ThreadTransChannel

end LatencyBenchmark
