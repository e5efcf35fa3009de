import LatencyBenchmark.WsReport

/-!
# The report of the Go channel benchmark

`GenThreadLantencyReportsBody` takes the samples of a row from two stamps of
each block, sorts them when it is asked to, and writes them with the same
quantile loop as the websocket programs.
-/

namespace LatencyBenchmark

namespace ThreadTransReport

open WsReport

/-- `lc.ThreadTransConfig`. -/
structure ThreadTransConfig where
  loop : Int
  cntPerLoop : Int
  loopInterval : Int
  reportStep : Int
  deriving DecidableEq, Repr

/-- The array `Ts` of a `lc.LatencyBlock`, as nanoseconds since the zero
time. -/
abbrev Stamps :=
  Fin 8 → Int

/-- `Ts[index]`. -/
def stampAt (stamps : Stamps) (index : Nat) : Except Failure Int :=
  if inside : index < 8 then return stamps ⟨index, inside⟩
  else throw .indexOutOfRange

/-- `end.Sub(begin)`, which saturates at the ends of a `Duration`. -/
def durationSub (end_ begin_ : Int) : Int :=
  max (-2 ^ 63) (min (end_ - begin_) (2 ^ 63 - 1))

/-- `int(blocks[i].Ts[ts_end_idx].Sub(blocks[i].Ts[ts_begin_idx]))`. -/
def elapsedAt (blocks : List Stamps) (tsBeginIdx tsEndIdx i : Nat) :
    Except Failure Int := do
  match blocks[i]? with
  | none => throw .indexOutOfRange
  | some stamps =>
      let end_ ← stampAt stamps tsEndIdx
      let begin_ ← stampAt stamps tsBeginIdx
      return durationSub end_ begin_

/-- The loop that fills `elapseds`. -/
def fillElapseds (blocks : List Stamps) (cnt tsBeginIdx tsEndIdx : Nat) :
    Except Failure (List Int) :=
  (List.range cnt).mapM (elapsedAt blocks tsBeginIdx tsEndIdx)

/-- The texts of the header in front of the quantiles. -/
def headTexts : List String :=
  ["case_name", ",", "loop", ",", "cnt_per_loog", ",", "loop_interval_ms",
    ","]

/-- `GenThreadLantencyReportsHead`. -/
def genThreadLantencyReportsHead (config : ThreadTransConfig)
    (iterations : Nat) : Except Failure (List String) := do
  let columns ← forQuantiles toInt64 config.reportStep
    (fun i => return s!"{i},") iterations 0
  return headTexts ++ columns ++ ["100", "\n"]

/-- `GenThreadLantencyReportsBody`. -/
def genThreadLantencyReportsBody (arithmetic : DoubleArithmetic)
    (config : ThreadTransConfig) (blocks : List Stamps) (caseName : String)
    (cnt tsBeginIdx tsEndIdx : Nat) (needSort : Bool) (iterations : Nat) :
    Except Failure (List String) := do
  let elapseds ← fillElapseds blocks cnt tsBeginIdx tsEndIdx
  rowLine arithmetic toInt64 config.reportStep
    (s!"{caseName},{config.loop},{config.cntPerLoop}," ++
      s!"{config.loopInterval},")
    (if needSort then elapseds.mergeSort else elapseds) cnt iterations

/-! ## Rows that complete -/

section

variable {arithmetic : DoubleArithmetic} {config : ThreadTransConfig}
  {iterations : Nat}

theorem genThreadLantencyReportsHead_eq_ok (positive : 1 ≤ config.reportStep)
    (isInt : config.reportStep < 2 ^ 63) (enough : 100 ≤ iterations) :
    genThreadLantencyReportsHead config iterations =
      .ok (headTexts ++ columnTexts config.reportStep ++ ["100", "\n"]) := by
  unfold genThreadLantencyReportsHead
  rw [forQuantiles_columnTexts toInt64_exactBelow (by norm_num) positive
    isInt enough]
  rfl

theorem length_fillElapseds {blocks : List Stamps} {elapseds : List Int}
    {cnt tsBeginIdx tsEndIdx : Nat}
    (filled : fillElapseds blocks cnt tsBeginIdx tsEndIdx = .ok elapseds) :
    elapseds.length = cnt := by
  rw [ExceptTraversal.length_of_mapM filled, List.length_range]

/-- The samples in the order in which a row shows them. -/
def shownElapseds (needSort : Bool) (elapseds : List Int) : List Int :=
  if needSort then elapseds.mergeSort else elapseds

@[simp]
theorem length_shownElapseds (needSort : Bool) (elapseds : List Int) :
    (shownElapseds needSort elapseds).length = elapseds.length := by
  cases needSort with
  | false => rfl
  | true => exact List.length_mergeSort elapseds

theorem shownElapseds_ne_nil {needSort : Bool} {elapseds : List Int}
    (nonempty : elapseds ≠ []) : shownElapseds needSort elapseds ≠ [] := by
  apply List.ne_nil_of_length_pos
  rw [length_shownElapseds]
  exact List.length_pos_of_ne_nil nonempty

section

variable {blocks : List Stamps} {cnt tsBeginIdx tsEndIdx : Nat}
  {elapseds : List Int}

/-- Once the samples are filled in, the body is one row over them. -/
theorem genThreadLantencyReportsBody_eq_rowLine (caseName : String)
    (needSort : Bool)
    (filled : fillElapseds blocks cnt tsBeginIdx tsEndIdx = .ok elapseds) :
    genThreadLantencyReportsBody arithmetic config blocks caseName cnt
        tsBeginIdx tsEndIdx needSort iterations =
      rowLine arithmetic toInt64 config.reportStep
        (s!"{caseName},{config.loop},{config.cntPerLoop}," ++
          s!"{config.loopInterval},")
        (shownElapseds needSort elapseds)
        (shownElapseds needSort elapseds).length iterations := by
  have count : (shownElapseds needSort elapseds).length = cnt := by
    rw [length_shownElapseds, length_fillElapseds filled]
  unfold genThreadLantencyReportsBody
  rw [filled, ExceptTraversal.ok_bind, count]
  rfl

/-- Over at least one block the row completes. -/
theorem genThreadLantencyReportsBody_eq_ok (accurate : arithmetic.Accurate)
    (positive : 1 ≤ config.reportStep) (isInt : config.reportStep < 2 ^ 63)
    (enough : 100 ≤ iterations) (caseName : String) (needSort : Bool)
    (filled : fillElapseds blocks cnt tsBeginIdx tsEndIdx = .ok elapseds)
    (nonempty : elapseds ≠ []) :
    genThreadLantencyReportsBody arithmetic config blocks caseName cnt
        tsBeginIdx tsEndIdx needSort iterations =
      .ok (rowTexts arithmetic config.reportStep
        (s!"{caseName},{config.loop},{config.cntPerLoop}," ++
          s!"{config.loopInterval},") (shownElapseds needSort elapseds)) := by
  rw [genThreadLantencyReportsBody_eq_rowLine caseName needSort filled]
  exact rowLine_eq_ok accurate toInt64_exactBelow (by norm_num) positive
    isInt enough (shownElapseds_ne_nil nonempty) rfl

end

end

end ThreadTransReport

end LatencyBenchmark
