import LatencyBenchmark.CppConfig
import LatencyBenchmark.ReportFiles

/-!
# The files of the thread-transfer benchmarks

The Go program writes one file: a header and four rows for each of its five
benchmarks.  The C++ library writes a header and two rows for one array of
samples; its rows say nothing about being sorted, so only their order does.
-/

namespace LatencyBenchmark

open WsReport

namespace ThreadTransReport

/-- The four rows `benchmark_wr` writes over its blocks. -/
def benchmarkWrRows (arithmetic : DoubleArithmetic)
    (config : ThreadTransConfig) (blocks : List Stamps)
    (cntProducer cntConsumer : Int) (cnt iterations : Nat) :
    Except Failure (List String) := do
  let body := fun caseName tsEndIdx needSort =>
    genThreadLantencyReportsBody arithmetic config blocks caseName cnt 0
      tsEndIdx needSort iterations
  let write ← body s!"{cntProducer}w{cntConsumer}r-w" 1 false
  let writeSorted ← body s!"{cntProducer}w{cntConsumer}r-w-sorted" 1 true
  let read ← body s!"{cntProducer}w{cntConsumer}r-wr" 2 false
  let readSorted ← body s!"{cntProducer}w{cntConsumer}r-wr-sorted" 2 true
  return write ++ writeSorted ++ read ++ readSorted

/-- The numbers of producers and consumers in the calls of `main`. -/
def benchmarks (numCpu : Int) : List (Int × Int) :=
  [(1, 1), (numCpu, 1), (toInt64 (2 * numCpu), 1), (1, numCpu),
    (1, toInt64 (2 * numCpu))]

/-- The file `main` writes, when the `k`-th benchmark leaves the stamps
`blocks k`. -/
def benchmarkGolangChan (arithmetic : DoubleArithmetic)
    (config : ThreadTransConfig) (numCpu : Int) (blocks : Nat → List Stamps)
    (cnt iterations : Nat) : Except Failure (List String) := do
  let head ← genThreadLantencyReportsHead config iterations
  let rows ← (benchmarks numCpu).zipIdx.mapM fun (threads, k) =>
    benchmarkWrRows arithmetic config (blocks k) threads.1 threads.2 cnt
      iterations
  return head ++ rows.flatten

end ThreadTransReport

namespace CppThreadTransReport

open CppConfig (ThreadTransConfig)

/-- The texts of the header in front of the quantiles. -/
def headTexts : List String :=
  ["loop", ",", "cnt_per_loop", ",", "loop_interval_ms", ",", "name", ","]

end CppThreadTransReport

namespace ReportFiles

/-! ## The Go file -/

section Golang

open ThreadTransReport

variable {arithmetic : DoubleArithmetic} {config : ThreadTransConfig}
  {iterations cnt : Nat}

/-- The names in front of the quantiles. -/
def threadTransNames : List String :=
  ["case_name", "loop", "cnt_per_loog", "loop_interval_ms"]

/-- The latencies between two stamps of each block. -/
def elapsedBetween (blocks : List Stamps) (tsBeginIdx tsEndIdx : Nat) :
    List Int :=
  let stamp := fun (stamps : Stamps) index =>
    if inside : index < 8 then stamps ⟨index, inside⟩ else 0
  blocks.map fun stamps =>
    durationSub (stamp stamps tsEndIdx) (stamp stamps tsBeginIdx)

/-- The source of a row. -/
def threadTransSource (config : ThreadTransConfig) (caseName : String)
    (samples : List Int) : Source :=
  ([caseName, toString config.loop, toString config.cntPerLoop,
    toString config.loopInterval], samples)

/-- The sources of the four rows of a benchmark. -/
def benchmarkSources (config : ThreadTransConfig) (blocks : List Stamps)
    (threads : Int × Int) : List Source :=
  let write := elapsedBetween blocks 0 1
  let read := elapsedBetween blocks 0 2
  [threadTransSource config s!"{threads.1}w{threads.2}r-w" write,
    threadTransSource config s!"{threads.1}w{threads.2}r-w-sorted"
      write.mergeSort,
    threadTransSource config s!"{threads.1}w{threads.2}r-wr" read,
    threadTransSource config s!"{threads.1}w{threads.2}r-wr-sorted"
      read.mergeSort]

theorem fillElapseds_eq_ok {blocks : List Stamps}
    (count : blocks.length = cnt) {tsBeginIdx tsEndIdx : Nat}
    (begins : tsBeginIdx < 8) (ends : tsEndIdx < 8) :
    fillElapseds blocks cnt tsBeginIdx tsEndIdx =
      .ok (elapsedBetween blocks tsBeginIdx tsEndIdx) := by
  have each : (List.range cnt).mapM (elapsedAt blocks tsBeginIdx tsEndIdx) =
      .ok ((List.range cnt).map fun i =>
        (elapsedBetween blocks tsBeginIdx tsEndIdx).getD i 0) := by
    apply ExceptTraversal.mapM_eq_ok
    intro i mem
    have inside : i < blocks.length := count ▸ List.mem_range.mp mem
    unfold elapsedAt stampAt elapsedBetween
    rw [List.getElem?_eq_getElem inside, List.getD_eq_getElem?_getD,
      List.getElem?_map, List.getElem?_eq_getElem inside]
    simp only [begins, ends]
    rfl
  unfold fillElapseds
  rw [each]
  congr 1
  apply List.ext_getElem
  · simp [elapsedBetween, count]
  · intro i _ inside
    rw [List.getElem_map, List.getElem_range, List.getD_eq_getElem]

theorem closes_threadTransSource (config : ThreadTransConfig)
    (caseName : String) (samples : List Int) :
    Closes (s!"{caseName},{config.loop},{config.cntPerLoop}," ++
      s!"{config.loopInterval},")
        (threadTransSource config caseName samples).1 := by
  have comma : ",".toList = [','] := rfl
  simp [Closes, threadTransSource, comma, toString]

/-- One body writes the line of one row. -/
theorem exists_body_eq_ok (accurate : arithmetic.Accurate)
    (positive : 1 ≤ config.reportStep) (isInt : config.reportStep < 2 ^ 63)
    (enough : 100 ≤ iterations) {blocks : List Stamps}
    (count : blocks.length = cnt) (nonempty : 1 ≤ cnt) (caseName : String)
    (needSort : Bool) {tsBeginIdx tsEndIdx : Nat} (begins : tsBeginIdx < 8)
    (ends : tsEndIdx < 8) :
    ∃ texts, genThreadLantencyReportsBody arithmetic config blocks caseName
        cnt tsBeginIdx tsEndIdx needSort iterations = .ok texts ∧
      written texts = Csv.line (CsvTable.rowCells (shownRow arithmetic
        config.reportStep (threadTransSource config caseName (shownElapseds
          needSort (elapsedBetween blocks tsBeginIdx tsEndIdx))))) := by
  have filled := fillElapseds_eq_ok count begins ends
  have samples : elapsedBetween blocks tsBeginIdx tsEndIdx ≠ [] := by
    apply List.ne_nil_of_length_pos
    rw [elapsedBetween, List.length_map]
    omega
  refine ⟨_, genThreadLantencyReportsBody_eq_ok accurate positive isInt
    enough caseName needSort filled samples, ?_⟩
  exact written_rowTexts _ (closes_threadTransSource config caseName _)

/-- A benchmark writes the lines of its four rows. -/
theorem exists_benchmarkWrRows_eq_ok (accurate : arithmetic.Accurate)
    (positive : 1 ≤ config.reportStep) (isInt : config.reportStep < 2 ^ 63)
    (enough : 100 ≤ iterations) {blocks : List Stamps}
    (count : blocks.length = cnt) (nonempty : 1 ≤ cnt)
    (threads : Int × Int) :
    ∃ texts, benchmarkWrRows arithmetic config blocks threads.1 threads.2 cnt
        iterations = .ok texts ∧
      written texts = (benchmarkSources config blocks threads).flatMap
        fun source => Csv.line (CsvTable.rowCells
          (shownRow arithmetic config.reportStep source)) := by
  have body (caseName : String) (needSort : Bool) (ends : Nat)
      (inside : ends < 8) := exists_body_eq_ok accurate positive isInt enough
    count nonempty caseName needSort (Nat.zero_lt_succ 7) inside
  obtain ⟨write, wroteWrite, writeLine⟩ :=
    body s!"{threads.1}w{threads.2}r-w" false 1 (by decide)
  obtain ⟨writeSorted, wroteWriteSorted, writeSortedLine⟩ :=
    body s!"{threads.1}w{threads.2}r-w-sorted" true 1 (by decide)
  obtain ⟨read, wroteRead, readLine⟩ :=
    body s!"{threads.1}w{threads.2}r-wr" false 2 (by decide)
  obtain ⟨readSorted, wroteReadSorted, readSortedLine⟩ :=
    body s!"{threads.1}w{threads.2}r-wr-sorted" true 2 (by decide)
  refine ⟨write ++ writeSorted ++ read ++ readSorted, ?_, ?_⟩
  · unfold benchmarkWrRows
    simp only [wroteWrite, wroteWriteSorted, wroteRead, wroteReadSorted]
    rfl
  · simp only [written_append, writeLine, writeSortedLine, readLine,
      readSortedLine, benchmarkSources, List.flatMap_cons, List.flatMap_nil,
      List.append_nil, List.append_assoc]
    rfl

/-- Parts that write their texts one after another. -/
theorem exists_mapM_eq_ok {Part : Type} {parts : List Part}
    {body : Part → Except Failure (List String)} {text : Part → List Char}
    (each : ∀ part ∈ parts, ∃ texts, body part = .ok texts ∧
      written texts = text part) :
    ∃ texts, parts.mapM body = .ok texts ∧
      written texts.flatten = parts.flatMap text := by
  induction parts with
  | nil => exact ⟨[], rfl, rfl⟩
  | cons part parts induction =>
      obtain ⟨first, wrote, firstText⟩ := each part List.mem_cons_self
      obtain ⟨rest, wroteRest, restText⟩ := induction fun other mem =>
        each other (List.mem_cons_of_mem _ mem)
      refine ⟨first :: rest, ?_, ?_⟩
      · rw [List.mapM_cons, wrote, wroteRest]
        rfl
      · rw [List.flatten_cons, written_append, firstText, restText]
        rfl

theorem isCell_append {first second : String} (firstCell : Csv.IsCell first)
    (secondCell : Csv.IsCell second) : Csv.IsCell (first ++ second) := by
  unfold Csv.IsCell at *
  simp only [String.toList_append, List.mem_append, not_or]
  exact ⟨⟨firstCell.1, secondCell.1⟩, firstCell.2, secondCell.2⟩

theorem isCell_of_mem_threadTransSource {caseName cell : String}
    {samples : List Int} (caseCell : Csv.IsCell caseName)
    (mem : cell ∈ (threadTransSource config caseName samples).1) :
    Csv.IsCell cell := by
  simp only [threadTransSource, List.mem_cons, List.not_mem_nil, or_false]
    at mem
  rcases mem with rfl | rfl | rfl | rfl
  · exact caseCell
  · exact Csv.isCell_toString _
  · exact Csv.isCell_toString _
  · exact Csv.isCell_toString _

/-- The texts of a benchmark's rows fit the header and are cells. -/
theorem cells_of_mem_benchmarkSources {blocks : List Stamps}
    {threads : Int × Int} {source : Source}
    (mem : source ∈ benchmarkSources config blocks threads) :
    source.1.length = threadTransNames.length ∧
      ∀ cell ∈ source.1, Csv.IsCell cell := by
  have caseCell (suffix : String) (suffixCell : Csv.IsCell suffix) :
      Csv.IsCell (toString threads.1 ++ "w" ++ toString threads.2 ++
        suffix) :=
    isCell_append (isCell_append (isCell_append (Csv.isCell_toString _)
      (by decide)) (Csv.isCell_toString _)) suffixCell
  simp only [benchmarkSources, List.mem_cons, List.not_mem_nil, or_false]
    at mem
  rcases mem with rfl | rfl | rfl | rfl
  · exact ⟨rfl, fun _ => isCell_of_mem_threadTransSource
      (caseCell "r-w" (by decide))⟩
  · exact ⟨rfl, fun _ => isCell_of_mem_threadTransSource
      (caseCell "r-w-sorted" (by decide))⟩
  · exact ⟨rfl, fun _ => isCell_of_mem_threadTransSource
      (caseCell "r-wr" (by decide))⟩
  · exact ⟨rfl, fun _ => isCell_of_mem_threadTransSource
      (caseCell "r-wr-sorted" (by decide))⟩

/-- The sources of all rows of the file. -/
def benchmarkGolangChanSources (config : ThreadTransConfig) (numCpu : Int)
    (blocks : Nat → List Stamps) : List Source :=
  (benchmarks numCpu).zipIdx.flatMap fun (threads, k) =>
    benchmarkSources config (blocks k) threads

/-- **The Go file reads back** as a table of twenty rows: for each benchmark
the latencies of the writes and those of the deliveries, as recorded and
sorted. -/
theorem benchmarkGolangChan_readsBack (accurate : arithmetic.Accurate)
    (positive : 1 ≤ config.reportStep) (isInt : config.reportStep < 2 ^ 63)
    (enough : 100 ≤ iterations) {numCpu : Int} {blocks : Nat → List Stamps}
    (count : ∀ k, (blocks k).length = cnt) (nonempty : 1 ≤ cnt) :
    ReadsAs (benchmarkGolangChan arithmetic config numCpu blocks cnt
        iterations) threadTransNames (shownColumns config.reportStep)
      ((benchmarkGolangChanSources config numCpu blocks).map
        (shownRow arithmetic config.reportStep)) := by
  have head := genThreadLantencyReportsHead_eq_ok positive isInt enough
  obtain ⟨rows, wroteRows, rowsText⟩ := exists_mapM_eq_ok
    fun part (_ : part ∈ (benchmarks numCpu).zipIdx) =>
      exists_benchmarkWrRows_eq_ok accurate positive isInt enough
        (count part.2) nonempty part.1
  have wrote : benchmarkGolangChan arithmetic config numCpu blocks cnt
      iterations = .ok (headerTexts threadTransNames config.reportStep ++
        rows.flatten) := by
    unfold benchmarkGolangChan
    rw [head]
    change (do
      let rows ← (benchmarks numCpu).zipIdx.mapM
        fun part : (Int × Int) × Nat => benchmarkWrRows arithmetic config
          (blocks part.2) part.1.1 part.1.2 cnt iterations
      return _ ++ rows.flatten) = _
    rw [wroteRows]
    rfl
  apply readsAs_of_written wrote
  case lines =>
    rw [written_append, rowsText, benchmarkGolangChanSources,
      List.flatMap_assoc]
  case namesCells => decide
  case cells =>
    intro source mem
    obtain ⟨part, _, inBenchmark⟩ := List.mem_flatMap.mp mem
    exact cells_of_mem_benchmarkSources inBenchmark

theorem benchmarkGolangChan_readsBack_oneBlock :
    ReadsAs (benchmarkGolangChan binary64 ⟨1, 1, 0, 10⟩ 4
        (fun _ => [fun index => index.val]) 1 100) threadTransNames
      (shownColumns 10)
      ((benchmarkGolangChanSources ⟨1, 1, 0, 10⟩ 4
        fun _ => [fun index => index.val]).map (shownRow binary64 10)) :=
  benchmarkGolangChan_readsBack binary64_accurate (by decide) (by decide)
    (le_refl 100) (fun _ => rfl) (le_refl 1)

end Golang

/-! ## The C++ file -/

section Cpp

open CppConfig (ThreadTransConfig)
open CppThreadTransReport

variable {arithmetic : DoubleArithmetic} {config : ThreadTransConfig}
  {iterations : Nat} {elapsed : List Int} {name : String}

end Cpp

end ReportFiles

end LatencyBenchmark
