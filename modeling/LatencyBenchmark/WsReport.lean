import LatencyBenchmark.Binary64
import LatencyBenchmark.ExceptTraversal
import LatencyBenchmark.WsRecorder

/-!
# The report of the websocket programs

`GenWsReport` writes a header and two rows of quantiles, one over the samples
in arrival order and one over the sorted samples.  The Go and the C++ version
differ in the width of their integers and in what they do when the file
cannot be opened.

A report is the list of the texts written, or the failure it ends with.  The
loops over the quantile columns get a number of iterations they may take.
-/

namespace LatencyBenchmark

namespace WsReport

inductive Failure where
  /-- A read outside the recorded samples. -/
  | indexOutOfRange
  /-- A loop that has not ended yet. -/
  | unfinished
  deriving DecidableEq, Repr

/-- Rounding and the conversion of integers, of the type `double`. -/
structure DoubleArithmetic where
  rounding : ℚ → ℚ
  ofInt : Int → ℚ

/-- Double precision. -/
def binary64 : DoubleArithmetic where
  rounding := roundBinary64
  ofInt := fun value => roundBinary64 value

/-- `int64((float64(i) / 100.0) * float64(cnt))`. -/
def samplePosition (arithmetic : DoubleArithmetic) (i cnt : Int) : Int :=
  truncateDouble (arithmetic.rounding
    (arithmetic.rounding (i / 100) * arithmetic.ofInt cnt))

/-- `elapsed[index]`. -/
def sampleAt (elapsed : List Int) (index : Int) : Except Failure Int :=
  if index < 0 then
    throw .indexOutOfRange
  else
    match elapsed[index.toNat]? with
    | none => throw .indexOutOfRange
    | some value => return value

/-- `for i := 0; i < 100; i += step` from some `i` on.  The integer type of
`i` reduces it with `wrap`. -/
def forQuantiles {Result : Type} (wrap : Int → Int) (step : Int)
    (body : Int → Except Failure Result) :
    Nat → Int → Except Failure (List Result)
  | 0, i => if i < 100 then throw .unfinished else return []
  | iterations + 1, i =>
      if i < 100 then do
        let result ← body i
        let results ← forQuantiles wrap step body iterations (wrap (i + step))
        return result :: results
      else
        return []

/-- The texts of the header in front of the quantiles. -/
def headTexts : List String :=
  ["sorted", ",", "loop", ",", "cnt_per_loop", ",", "loop_interval_ms", ",",
    "pkg_cnt", ",", "dir", ","]

/-- The header line. -/
def headLine (wrap : Int → Int) (step : Int) (iterations : Nat) :
    Except Failure (List String) := do
  let columns ← forQuantiles wrap step (fun i => return s!"{i},") iterations 0
  return headTexts ++ columns ++ ["100", "\n"]

/-- The line of one row that starts with `lead`. -/
def rowLine (arithmetic : DoubleArithmetic) (wrap : Int → Int) (step : Int)
    (lead : String) (elapsed : List Int) (cnt : Int) (iterations : Nat) :
    Except Failure (List String) := do
  let cells ← forQuantiles wrap step (fun i => do
    let value ← sampleAt elapsed (samplePosition arithmetic i cnt)
    return s!"{value},") iterations 0
  let last ← sampleAt elapsed (cnt - 1)
  return lead :: (cells ++ [s!"{last}", "\n"])

/-- The header and the two rows. -/
def reportLines (head : Except Failure (List String))
    (row : Bool → List Int → Except Failure (List String))
    (elapsed : List Int) : Except Failure (List String) := do
  let headLine ← head
  let arrivalRow ← row false elapsed
  let sortedRow ← row true elapsed.mergeSort
  return headLine ++ arrivalRow ++ sortedRow

/-! ## The Go report -/

namespace Golang

/-- `writeWsReportHead`. -/
def writeWsReportHead (config : WsConfig) (iterations : Nat) :
    Except Failure (List String) :=
  headLine toInt64 config.reportStep iterations

/-- `writeWsReport`. -/
def writeWsReport (arithmetic : DoubleArithmetic) (config : WsConfig)
    (sorted : Bool) (elapsed : List Int) (cnt : Int) (iterations : Nat) :
    Except Failure (List String) :=
  rowLine arithmetic toInt64 config.reportStep
    (s!"{sorted},{config.loop},{config.cntPerLoop}," ++
      s!"{config.loopInterval},{cnt},{config.dir},")
    elapsed cnt iterations

/-- `GenWsReport`: what it writes to the file.  When the file cannot be
created the texts are computed and lost. -/
def genWsReport (arithmetic : DoubleArithmetic) (created : Bool)
    (elapsed : List Int) (cnt : Int) (config : WsConfig) (iterations : Nat) :
    Except Failure (List String) := do
  let lines ← reportLines (writeWsReportHead config iterations)
    (fun sorted elapsed =>
      writeWsReport arithmetic config sorted elapsed cnt iterations)
    elapsed
  return if created then lines else []

end Golang

/-! ## The C++ report -/

namespace Cpp

/-- `snprintf` of a text into a buffer of a size. -/
def snprintf (size : Nat) (text : String) : String :=
  String.ofList (text.toList.take (size - 1))

/-- `WriteWsReportHead`. -/
def writeWsReportHead (config : WsConfig) (iterations : Nat) :
    Except Failure (List String) :=
  headLine toInt32 config.reportStep iterations

/-- `WriteWsReport`. -/
def writeWsReport (arithmetic : DoubleArithmetic) (config : WsConfig)
    (sorted : Bool) (elapsed : List Int) (cnt : Int) (iterations : Nat) :
    Except Failure (List String) :=
  rowLine arithmetic toInt32 config.reportStep
    (snprintf 255 (s!"{sorted},{config.loop},{config.cntPerLoop}," ++
      s!"{config.loopInterval},{toInt32 cnt},{config.dir},"))
    elapsed cnt iterations

/-- `GenWsReport`, which returns at once when the file cannot be opened. -/
def genWsReport (arithmetic : DoubleArithmetic) (opened : Bool)
    (elapsed : List Int) (cnt : Int) (config : WsConfig) (iterations : Nat) :
    Except Failure (List String) :=
  if opened then
    reportLines (writeWsReportHead config iterations)
      (fun sorted elapsed =>
        writeWsReport arithmetic config sorted elapsed cnt iterations)
      elapsed
  else
    return []

end Cpp

/-! ## The quantile columns -/

/-- The values of `i` in the loop from some `i` on. -/
def columnsFrom (step : Int) : Nat → Int → List Int
  | 0, _ => []
  | count + 1, i =>
      if i < 100 then i :: columnsFrom step count (i + step) else []

/-- All values of `i`, for a positive step. -/
def columns (step : Int) : List Int :=
  columnsFrom step 100 0

/-- A type that holds all values below the bound adds up to it exactly. -/
def ExactBelow (wrap : Int → Int) (bound : Int) : Prop :=
  ∀ value, 0 ≤ value → value < bound → wrap value = value

theorem toInt32_exactBelow : ExactBelow toInt32 (2 ^ 31) :=
  fun _ nonneg below => toInt32_eq_self (by omega) below

theorem toInt64_exactBelow : ExactBelow toInt64 (2 ^ 63) :=
  fun _ nonneg below => toInt64_eq_self (by omega) below

variable {wrap : Int → Int} {bound step : Int} {iterations : Nat}

/-- For a positive step the loop runs its body once for each column. -/
theorem forQuantiles_eq_mapM_from (exact : ExactBelow wrap bound)
    (wide : 200 ≤ bound) (positive : 1 ≤ step) (isInt : step < bound)
    {count : Nat} {i : Int} (nonneg : 0 ≤ i) (early : i = 0 ∨ step < 100)
    (enough : 100 - i ≤ iterations) (enoughColumns : 100 - i ≤ count)
    {Result : Type} (body : Int → Except Failure Result) :
    forQuantiles wrap step body iterations i =
      (columnsFrom step count i).mapM body := by
  induction iterations generalizing count i with
  | zero =>
      have ended : ¬ i < 100 := by omega
      cases count <;> simp [forQuantiles, columnsFrom, ended]
  | succ iterations induction =>
      by_cases running : i < 100
      · obtain ⟨rest, rfl⟩ : ∃ rest, count = rest + 1 :=
          ⟨count - 1, by omega⟩
        have next : wrap (i + step) = i + step := by
          apply exact <;> omega
        have later : forQuantiles wrap step body iterations (i + step) =
            (columnsFrom step rest (i + step)).mapM body := by
          by_cases small : step < 100
          · exact induction (by omega) (Or.inr small) (by omega) (by omega)
          · -- One step leads past the last quantile.
            have ended : ¬ i + step < 100 := by omega
            cases iterations <;> cases rest <;>
              simp [forQuantiles, columnsFrom, ended]
        rw [forQuantiles, columnsFrom, if_pos running, if_pos running, next,
          later, List.mapM_cons]
      · cases count <;> simp [forQuantiles, columnsFrom, running]

theorem forQuantiles_eq_mapM (exact : ExactBelow wrap bound)
    (wide : 200 ≤ bound) (positive : 1 ≤ step) (isInt : step < bound)
    (enough : 100 ≤ iterations) {Result : Type}
    (body : Int → Except Failure Result) :
    forQuantiles wrap step body iterations 0 =
      (columns step).mapM body :=
  forQuantiles_eq_mapM_from exact wide positive isInt (le_refl 0)
    (Or.inl rfl) (by omega) (by omega) body

theorem mem_columnsFrom {count : Nat} {i value : Int} (positive : 1 ≤ step)
    (mem : value ∈ columnsFrom step count i) : i ≤ value ∧ value < 100 := by
  induction count generalizing i with
  | zero => simp [columnsFrom] at mem
  | succ count induction =>
      unfold columnsFrom at mem
      split at mem
      · next below =>
          rcases List.mem_cons.mp mem with rfl | later
          · exact ⟨le_refl value, below⟩
          · obtain ⟨above, below⟩ := induction later
            exact ⟨by omega, below⟩
      · simp at mem

/-- Every column lies in `[0, 100)`. -/
theorem mem_columns {value : Int} (positive : 1 ≤ step)
    (mem : value ∈ columns step) : 0 ≤ value ∧ value < 100 :=
  mem_columnsFrom positive mem

theorem columnsFrom_ascending (positive : 1 ≤ step) (count : Nat) (i : Int) :
    (columnsFrom step count i).Pairwise (· < ·) := by
  induction count generalizing i with
  | zero => exact List.Pairwise.nil
  | succ count induction =>
      unfold columnsFrom
      split
      · refine List.pairwise_cons.mpr ⟨?_, induction (i + step)⟩
        intro value mem
        have := (mem_columnsFrom positive mem).1
        omega
      · exact List.Pairwise.nil

/-- The first column is the one of the minimum. -/
theorem head_columns (step : Int) : (columns step).head? = some 0 :=
  rfl

/-! ## Sampled positions -/

/-- Each operation has the relative error of a double. -/
structure DoubleArithmetic.Accurate (arithmetic : DoubleArithmetic) :
    Prop where
  rounding : HasDoubleError arithmetic.rounding
  ofInt : ∀ value : Int,
    |arithmetic.ofInt value - value| ≤ 2⁻¹ ^ 53 * |(value : ℚ)|

theorem binary64_accurate : binary64.Accurate where
  rounding := roundBinary64_hasDoubleError
  ofInt := fun value => roundBinary64_hasDoubleError value

/-- The position of a quantile lies inside the samples. -/
theorem samplePosition_bounds {arithmetic : DoubleArithmetic}
    (accurate : arithmetic.Accurate) {i cnt : Int} (nonneg : 0 ≤ i)
    (below : i < 100) (positive : 1 ≤ cnt) :
    0 ≤ samplePosition arithmetic i cnt ∧
      samplePosition arithmetic i cnt < cnt := by
  obtain ⟨shareNonneg, shareLe⟩ := quantile_share_bounds nonneg below
  exact accurate.rounding.truncate_share_bounds shareNonneg shareLe positive
    (accurate.ofInt cnt)

/-! ## Which reports complete -/

@[simp]
theorem sampleAt_nil (index : Int) :
    sampleAt [] index = .error .indexOutOfRange := by
  unfold sampleAt
  split <;> rfl

/-- A read inside the samples returns the sample. -/
theorem sampleAt_eq_ok {elapsed : List Int} {index : Int}
    (nonneg : 0 ≤ index) (inside : index < elapsed.length) :
    sampleAt elapsed index = .ok (elapsed.getD index.toNat 0) := by
  have bound : index.toNat < elapsed.length := by omega
  rw [sampleAt, if_neg (by omega), List.getD_eq_getElem?_getD,
    List.getElem?_eq_getElem bound]
  rfl

/-- The texts of the quantile columns in the header. -/
def columnTexts (step : Int) : List String :=
  (columns step).map fun i => s!"{i},"

/-- The sample in a quantile column. -/
def cellAt (arithmetic : DoubleArithmetic) (elapsed : List Int) (i : Int) :
    Int :=
  elapsed.getD (samplePosition arithmetic i elapsed.length).toNat 0

/-- The sample in the last column. -/
def lastAt (elapsed : List Int) : Int :=
  elapsed.getD (elapsed.length - 1) 0

/-- The texts of a row. -/
def rowTexts (arithmetic : DoubleArithmetic) (step : Int) (lead : String)
    (elapsed : List Int) : List String :=
  lead :: (((columns step).map fun i => s!"{cellAt arithmetic elapsed i},") ++
    [s!"{lastAt elapsed}", "\n"])

section Lines

variable {arithmetic : DoubleArithmetic} {lead : String}
  {elapsed : List Int} {cnt : Int}

theorem forQuantiles_columnTexts (exact : ExactBelow wrap bound)
    (wide : 200 ≤ bound) (positive : 1 ≤ step) (isInt : step < bound)
    (enough : 100 ≤ iterations) :
    forQuantiles wrap step (fun i => return s!"{i},") iterations 0 =
      .ok (columnTexts step) := by
  rw [forQuantiles_eq_mapM exact wide positive isInt enough]
  exact ExceptTraversal.mapM_eq_ok fun i _ => rfl

theorem headLine_eq_ok (exact : ExactBelow wrap bound)
    (wide : 200 ≤ bound) (positive : 1 ≤ step) (isInt : step < bound)
    (enough : 100 ≤ iterations) :
    headLine wrap step iterations =
      .ok (headTexts ++ columnTexts step ++ ["100", "\n"]) := by
  unfold headLine
  rw [forQuantiles_columnTexts exact wide positive isInt enough]
  rfl

/-- A row over at least one sample reads inside the samples. -/
theorem rowLine_eq_ok (accurate : arithmetic.Accurate)
    (exact : ExactBelow wrap bound) (wide : 200 ≤ bound)
    (positive : 1 ≤ step) (isInt : step < bound)
    (enough : 100 ≤ iterations) (nonempty : elapsed ≠ [])
    (count : cnt = elapsed.length) :
    rowLine arithmetic wrap step lead elapsed cnt iterations =
      .ok (rowTexts arithmetic step lead elapsed) := by
  have lengthPos : 0 < elapsed.length := List.length_pos_of_ne_nil nonempty
  have cells : (columns step).mapM (fun i => do
        let value ← sampleAt elapsed (samplePosition arithmetic i cnt)
        return s!"{value}," : Int → Except Failure String) =
      .ok ((columns step).map fun i => s!"{cellAt arithmetic elapsed i},") := by
    apply ExceptTraversal.mapM_eq_ok
    intro i mem
    obtain ⟨nonneg, below⟩ := mem_columns positive mem
    obtain ⟨low, high⟩ := samplePosition_bounds accurate nonneg below
      (by omega : 1 ≤ cnt)
    rw [sampleAt_eq_ok low (by omega), count]
    rfl
  have lastNat : (cnt - 1).toNat = elapsed.length - 1 := by omega
  have last : sampleAt elapsed (cnt - 1) = .ok (lastAt elapsed) := by
    rw [sampleAt_eq_ok (by omega) (by omega), lastNat]
    rfl
  unfold rowLine
  rw [forQuantiles_eq_mapM exact wide positive isInt enough, cells, last]
  rfl

/-- A row without samples reads the sample in front of the first one. -/
theorem rowLine_nil (started : 1 ≤ iterations) :
    rowLine arithmetic wrap step lead [] cnt iterations =
      .error .indexOutOfRange := by
  obtain ⟨rest, rfl⟩ : ∃ rest, iterations = rest + 1 :=
    ⟨iterations - 1, by omega⟩
  unfold rowLine forQuantiles
  rw [if_pos (by decide)]
  simp only [sampleAt_nil]
  rfl

theorem reportLines_eq_ok {head : Except Failure (List String)}
    {row : Bool → List Int → Except Failure (List String)}
    {first arrival sorted : List String} (wroteHead : head = .ok first)
    (wroteRow : row false elapsed = .ok arrival)
    (wroteSorted : row true elapsed.mergeSort = .ok sorted) :
    reportLines head row elapsed = .ok (first ++ arrival ++ sorted) := by
  unfold reportLines
  rw [wroteHead, wroteRow, wroteSorted]
  rfl

/-- A report over at least one sample completes, with one row over the
samples as they are and one over the sorted samples. -/
theorem reportLines_rows_eq_ok {leads : Bool → String}
    (accurate : arithmetic.Accurate) (exact : ExactBelow wrap bound)
    (wide : 200 ≤ bound) (positive : 1 ≤ step) (isInt : step < bound)
    (enough : 100 ≤ iterations) (nonempty : elapsed ≠ [])
    (count : cnt = elapsed.length) :
    reportLines (headLine wrap step iterations)
        (fun sorted elapsed =>
          rowLine arithmetic wrap step (leads sorted) elapsed cnt iterations)
        elapsed =
      .ok (headTexts ++ columnTexts step ++ ["100", "\n"] ++
        rowTexts arithmetic step (leads false) elapsed ++
        rowTexts arithmetic step (leads true) elapsed.mergeSort) := by
  have sortedLength : elapsed.mergeSort.length = elapsed.length :=
    List.length_mergeSort elapsed
  have sortedNonempty : elapsed.mergeSort ≠ [] := by
    apply List.ne_nil_of_length_pos
    rw [sortedLength]
    exact List.length_pos_of_ne_nil nonempty
  exact reportLines_eq_ok
    (headLine_eq_ok exact wide positive isInt enough)
    (rowLine_eq_ok accurate exact wide positive isInt enough nonempty count)
    (rowLine_eq_ok accurate exact wide positive isInt enough sortedNonempty
      (by rw [sortedLength, count]))

/-- A report without samples reads outside them. -/
theorem reportLines_nil {leads : Bool → String}
    (exact : ExactBelow wrap bound) (wide : 200 ≤ bound)
    (positive : 1 ≤ step) (isInt : step < bound)
    (enough : 100 ≤ iterations) :
    reportLines (headLine wrap step iterations)
      (fun sorted elapsed =>
        rowLine arithmetic wrap step (leads sorted) elapsed cnt iterations)
      [] = .error .indexOutOfRange := by
  have failed (sorted : Bool) : rowLine arithmetic wrap step (leads sorted)
      [] cnt iterations = .error .indexOutOfRange := rowLine_nil (by omega)
  unfold reportLines
  rw [headLine_eq_ok exact wide positive isInt enough]
  simp only [failed]
  rfl

end Lines

variable {arithmetic : DoubleArithmetic} {elapsed : List Int}
  {config : WsConfig}

/-- Over at least one sample the Go report has one row over the samples as
they are and one over the sorted samples. -/
theorem Golang.exists_genWsReport_eq_ok (accurate : arithmetic.Accurate)
    (created : Bool) (positive : 1 ≤ config.reportStep)
    (isInt : config.reportStep < 2 ^ 63) (enough : 100 ≤ iterations)
    (nonempty : elapsed ≠ []) :
    ∃ leads : Bool → String,
      Golang.genWsReport arithmetic created elapsed elapsed.length config
          iterations =
        .ok (if created then
          headTexts ++ columnTexts config.reportStep ++ ["100", "\n"] ++
            rowTexts arithmetic config.reportStep (leads false) elapsed ++
            rowTexts arithmetic config.reportStep (leads true)
              elapsed.mergeSort
        else []) := by
  unfold genWsReport writeWsReportHead writeWsReport
  rw [reportLines_rows_eq_ok accurate toInt64_exactBelow (by norm_num)
    positive isInt enough nonempty rfl]
  exact ⟨fun sorted => s!"{sorted},{config.loop},{config.cntPerLoop}," ++
    s!"{config.loopInterval},{(elapsed.length : Int)},{config.dir},", rfl⟩

/-- The Go report completes exactly when there is a sample. -/
theorem Golang.genWsReport_cases (accurate : arithmetic.Accurate)
    (created : Bool) (positive : 1 ≤ config.reportStep)
    (isInt : config.reportStep < 2 ^ 63) (enough : 100 ≤ iterations) :
    (elapsed = [] ∧ Golang.genWsReport arithmetic created elapsed
      elapsed.length config iterations = .error .indexOutOfRange) ∨
    (elapsed ≠ [] ∧ ∃ lines, Golang.genWsReport arithmetic created elapsed
      elapsed.length config iterations = .ok lines) := by
  by_cases none : elapsed = []
  · left
    unfold genWsReport writeWsReportHead writeWsReport
    rw [none, reportLines_nil toInt64_exactBelow (by norm_num) positive
      isInt enough]
    exact ⟨rfl, rfl⟩
  · right
    obtain ⟨_, wrote⟩ := exists_genWsReport_eq_ok accurate created positive
      isInt enough none
    exact ⟨none, _, wrote⟩

/-- Over at least one sample the C++ report has one row over the samples as
they are and one over the sorted samples. -/
theorem Cpp.exists_genWsReport_eq_ok (accurate : arithmetic.Accurate)
    (positive : 1 ≤ config.reportStep) (isInt : config.reportStep < 2 ^ 31)
    (enough : 100 ≤ iterations) (nonempty : elapsed ≠ []) :
    ∃ leads : Bool → String,
      Cpp.genWsReport arithmetic true elapsed elapsed.length config
          iterations =
        .ok (headTexts ++ columnTexts config.reportStep ++ ["100", "\n"] ++
          rowTexts arithmetic config.reportStep (leads false) elapsed ++
          rowTexts arithmetic config.reportStep (leads true)
            elapsed.mergeSort) := by
  unfold genWsReport writeWsReportHead writeWsReport
  rw [if_pos rfl, reportLines_rows_eq_ok accurate toInt32_exactBelow
    (by norm_num) positive isInt enough nonempty rfl]
  exact ⟨fun sorted => snprintf 255
    (s!"{sorted},{config.loop},{config.cntPerLoop}," ++
      s!"{config.loopInterval},{toInt32 elapsed.length},{config.dir},"), rfl⟩

/-- The C++ report completes exactly when there is a sample or the file
cannot be opened. -/
theorem Cpp.genWsReport_cases (accurate : arithmetic.Accurate)
    (opened : Bool) (positive : 1 ≤ config.reportStep)
    (isInt : config.reportStep < 2 ^ 31) (enough : 100 ≤ iterations) :
    ((elapsed = [] ∧ opened = true) ∧ Cpp.genWsReport arithmetic opened
      elapsed elapsed.length config iterations = .error .indexOutOfRange) ∨
    ((elapsed ≠ [] ∨ opened = false) ∧ ∃ lines, Cpp.genWsReport arithmetic
      opened elapsed elapsed.length config iterations = .ok lines) := by
  cases opened with
  | false =>
      right
      exact ⟨Or.inr rfl, [], rfl⟩
  | true =>
      by_cases none : elapsed = []
      · left
        unfold genWsReport writeWsReportHead writeWsReport
        rw [if_pos rfl, none, reportLines_nil toInt32_exactBelow
          (by norm_num) positive isInt enough]
        exact ⟨⟨rfl, rfl⟩, rfl⟩
      · right
        obtain ⟨_, wrote⟩ := exists_genWsReport_eq_ok accurate positive isInt
          enough none
        exact ⟨Or.inl none, _, wrote⟩

end WsReport

end LatencyBenchmark
