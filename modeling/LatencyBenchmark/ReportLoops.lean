import LatencyBenchmark.GolangConfig
import LatencyBenchmark.WsDisconnect

/-!
# When the report loops end

The Go loaders hand any 64-bit `report_step` to the loops of the reports.  A
step of zero, which is also what an absent key gives, never leaves the
header, and with a negative step the row reads in front of the samples.
-/

namespace LatencyBenchmark

namespace WsReport

/-- Within some number of iterations the head and the row are written, with
the same number of quantile columns. -/
def LinesEnd (headTexts : List String)
    (head row : Nat → Except Failure (List String)) : Prop :=
  ∃ (iterations : Nat) (columns cells : List String) (lead last : String),
    head iterations = .ok (headTexts ++ columns ++ ["100", "\n"]) ∧
      row iterations = .ok (lead :: (cells ++ [last, "\n"])) ∧
      columns.length = cells.length

variable {arithmetic : DoubleArithmetic} {step : Int} {elapsed : List Int}

/-! ## Steps that do not work -/

/-- A loop with a step of zero does not end. -/
theorem forQuantiles_zero_ne_ok {Result : Type}
    (body : Int → Except Failure Result) (iterations : Nat)
    (results : List Result) :
    forQuantiles toInt64 0 body iterations 0 ≠ .ok results := by
  induction iterations generalizing results with
  | zero =>
      intro ended
      cases ended
  | succ iterations induction =>
      have same : toInt64 (0 + 0) = 0 := rfl
      intro ended
      rw [forQuantiles, if_pos (by decide), same] at ended
      obtain ⟨_, _, later⟩ := ExceptTraversal.exists_of_bind_eq_ok ended
      obtain ⟨rest, laterEnded, _⟩ :=
        ExceptTraversal.exists_of_bind_eq_ok later
      exact induction rest laterEnded

/-- A quantile at or below -200 has a negative position. -/
theorem samplePosition_neg (accurate : arithmetic.Accurate) {i cnt : Int}
    (low : i ≤ -200) (positive : 1 ≤ cnt) :
    samplePosition arithmetic i cnt < 0 := by
  have share : (i : ℚ) / 100 ≤ -2 := by
    have : (i : ℚ) ≤ -200 := by exact_mod_cast low
    linarith
  have count : (1 : ℚ) ≤ cnt := by exact_mod_cast positive
  have quotient : arithmetic.rounding (i / 100) ≤
      (1 - 2⁻¹ ^ 53) * -2 :=
    (accurate.rounding.rounding_nonpos_le (by linarith)).trans
      (mul_le_mul_of_nonneg_left share (by norm_num))
  have converted : 1 - 2⁻¹ ^ 53 ≤ arithmetic.ofInt cnt := by
    have error := accurate.ofInt cnt
    rw [abs_of_nonneg (by linarith : (0 : ℚ) ≤ cnt), abs_le] at error
    have small : (1 - 2⁻¹ ^ 53 : ℚ) * 1 ≤ (1 - 2⁻¹ ^ 53) * cnt :=
      mul_le_mul_of_nonneg_left count (by norm_num)
    linarith only [error.1, small]
  -- Three relative errors cannot lift -2 above -1.
  have product : arithmetic.rounding (i / 100) * arithmetic.ofInt cnt ≤
      (1 - 2⁻¹ ^ 53) * -2 * (1 - 2⁻¹ ^ 53) := by
    have small : (2⁻¹ : ℚ) ^ 53 ≤ 1 / 2 := by norm_num
    nlinarith only [quotient, converted, small]
  have result : arithmetic.rounding
      (arithmetic.rounding (i / 100) * arithmetic.ofInt cnt) ≤ -1 := by
    calc
      arithmetic.rounding
          (arithmetic.rounding (i / 100) * arithmetic.ofInt cnt) ≤
        (1 - 2⁻¹ ^ 53) *
          (arithmetic.rounding (i / 100) * arithmetic.ofInt cnt) :=
        accurate.rounding.rounding_nonpos_le (product.trans (by norm_num))
      _ ≤ (1 - 2⁻¹ ^ 53) * ((1 - 2⁻¹ ^ 53) * -2 * (1 - 2⁻¹ ^ 53)) :=
        mul_le_mul_of_nonneg_left product (by norm_num)
      _ ≤ -1 := by norm_num
  rw [samplePosition, truncateDouble, if_neg (by linarith), Int.ceil_lt_iff]
  push_cast
  linarith

/-- A loop with a negative step does not complete when its body fails at
and below -200, which it reaches before its variable can wrap. -/
theorem forQuantiles_neg_ne_ok {Result : Type}
    {body : Int → Except Failure Result} (negative : step < 0)
    (isInt : -2 ^ 63 ≤ step)
    (fails : ∀ i ≤ -200, ∃ failure, body i = .error failure)
    (iterations : Nat) {i : Int} (low : -200 < i) (nonpos : i ≤ 0)
    (early : i = 0 ∨ -200 < step) (results : List Result) :
    forQuantiles toInt64 step body iterations i ≠ .ok results := by
  induction iterations generalizing i results with
  | zero =>
      intro ended
      rw [forQuantiles, if_pos (by omega)] at ended
      cases ended
  | succ iterations induction =>
      have next : toInt64 (i + step) = i + step := by
        apply toInt64_eq_self <;> omega
      intro ended
      rw [forQuantiles, if_pos (by omega), next] at ended
      obtain ⟨_, _, later⟩ := ExceptTraversal.exists_of_bind_eq_ok ended
      obtain ⟨rest, laterEnded, _⟩ :=
        ExceptTraversal.exists_of_bind_eq_ok later
      by_cases inside : -200 < i + step
      · exact induction inside (by omega) (Or.inr (by omega)) rest laterEnded
      · obtain ⟨failure, failed⟩ := fails (i + step) (by omega)
        cases iterations with
        | zero =>
            rw [forQuantiles, if_pos (by omega)] at laterEnded
            cases laterEnded
        | succ iterations =>
            rw [forQuantiles, if_pos (by omega), failed] at laterEnded
            cases laterEnded

theorem headLine_zero_ne_ok (iterations : Nat) (line : List String) :
    headLine toInt64 0 iterations ≠ .ok line := by
  intro written
  obtain ⟨columns, ended, _⟩ :=
    ExceptTraversal.exists_of_bind_eq_ok written
  exact forQuantiles_zero_ne_ok _ _ _ ended

theorem rowLine_neg_ne_ok (accurate : arithmetic.Accurate)
    (negative : step < 0) (isInt : -2 ^ 63 ≤ step) (lead : String)
    {cnt : Int} (positive : 1 ≤ cnt) (iterations : Nat)
    (line : List String) :
    rowLine arithmetic toInt64 step lead elapsed cnt iterations ≠
      .ok line := by
  intro written
  obtain ⟨cells, ended, _⟩ := ExceptTraversal.exists_of_bind_eq_ok written
  refine forQuantiles_neg_ne_ok negative isInt ?_ iterations (by decide)
    (le_refl 0) (Or.inl rfl) cells ended
  intro i low
  have outside := samplePosition_neg accurate low positive
  refine ⟨.indexOutOfRange, ?_⟩
  rw [sampleAt, if_pos outside]
  rfl

/-! ## Exactly when the lines end -/

/-- Where head and row are those of some step, they end exactly when it is
positive. -/
theorem linesEnd_iff (accurate : arithmetic.Accurate)
    {texts : List String} {head row : Nat → Except Failure (List String)}
    {lead : String} (isInt : GolangConfig.IsInt64 step)
    (nonempty : elapsed ≠ [])
    (headEnds : 1 ≤ step → head 100 =
      .ok (texts ++ columnTexts step ++ ["100", "\n"]))
    (headStalls : step = 0 → ∀ iterations line,
      head iterations ≠ .ok line)
    (sameRow : ∀ iterations, row iterations = rowLine arithmetic toInt64 step
      lead elapsed elapsed.length iterations) :
    LinesEnd texts head row ↔ 1 ≤ step := by
  have positive : (1 : Int) ≤ elapsed.length := by
    have := List.length_pos_of_ne_nil nonempty
    omega
  constructor
  · rintro ⟨iterations, columns, cells, lead, last, headWritten,
      rowWritten, _⟩
    rcases lt_trichotomy step 0 with negative | zero | positiveStep
    · rw [sameRow] at rowWritten
      exact absurd rowWritten
        (rowLine_neg_ne_ok accurate negative isInt.1 _ positive _ _)
    · exact absurd headWritten (headStalls zero _ _)
    · omega
  · intro positiveStep
    have rowEnds : row 100 = .ok (rowTexts arithmetic step lead elapsed) := by
      rw [sameRow]
      exact rowLine_eq_ok accurate toInt64_exactBelow (by norm_num)
        positiveStep isInt.2 (le_refl 100) nonempty rfl
    refine ⟨100, columnTexts step, _, _, _, headEnds positiveStep, rowEnds,
      ?_⟩
    rw [columnTexts, List.length_map, List.length_map]

/-- **The report loops.**  For every configuration a Go loader accepts and
every nonempty array of samples, the loops over the header and over a row
end, inside the samples and with the same number of columns, exactly when the
step is positive. -/
theorem reportLoops_end_iff (accurate : arithmetic.Accurate) :
    (∀ (confPath : String) (file : ConfigFile) (config : WsConfig)
      (sorted : Bool) (elapsed : List Int),
      GolangConfig.loadWsConfig confPath file = .ok config →
      elapsed ≠ [] →
        (LinesEnd headTexts (Golang.writeWsReportHead config)
            (Golang.writeWsReport arithmetic config sorted elapsed
              elapsed.length) ↔
          1 ≤ config.reportStep)) ∧
    (∀ (confPath : String) (file : ConfigFile)
      (config : ThreadTransReport.ThreadTransConfig)
      (blocks : List ThreadTransReport.Stamps) (caseName : String)
      (cnt tsBeginIdx tsEndIdx : Nat) (needSort : Bool)
      (elapseds : List Int),
      GolangConfig.loadThreadTransConfig confPath file = .ok config →
      ThreadTransReport.fillElapseds blocks cnt tsBeginIdx tsEndIdx =
        .ok elapseds →
      elapseds ≠ [] →
        (LinesEnd ThreadTransReport.headTexts
            (ThreadTransReport.genThreadLantencyReportsHead config)
            (ThreadTransReport.genThreadLantencyReportsBody arithmetic config
              blocks caseName cnt tsBeginIdx tsEndIdx needSort) ↔
          1 ≤ config.reportStep)) := by
  constructor
  · intro confPath file config sorted elapsed loaded nonempty
    have isInt := GolangConfig.isInt64_wsConfig_reportStep loaded
    refine linesEnd_iff accurate isInt nonempty ?_ ?_ fun _ => rfl
    · intro positive
      exact headLine_eq_ok toInt64_exactBelow (by norm_num) positive isInt.2
        (le_refl 100)
    · intro zero iterations line
      rw [Golang.writeWsReportHead, zero]
      exact headLine_zero_ne_ok iterations line
  · intro confPath file config blocks caseName cnt tsBeginIdx tsEndIdx
      needSort elapseds loaded filled nonempty
    have isInt := GolangConfig.isInt64_threadTransConfig_reportStep loaded
    refine linesEnd_iff accurate isInt
      (ThreadTransReport.shownElapseds_ne_nil nonempty) ?_ ?_ fun _ =>
        ThreadTransReport.genThreadLantencyReportsBody_eq_rowLine caseName
          needSort filled
    · intro positive
      exact ThreadTransReport.genThreadLantencyReportsHead_eq_ok positive
        isInt.2 (le_refl 100)
    · intro zero iterations line written
      rw [ThreadTransReport.genThreadLantencyReportsHead, zero] at written
      obtain ⟨columns, ended, _⟩ :=
        ExceptTraversal.exists_of_bind_eq_ok written
      exact forQuantiles_zero_ne_ok _ _ _ ended

theorem reportLoops_end_iff_ten :
    (∃ config, GolangConfig.loadWsConfig "ws_conf.json"
        (.document (.object [("report_step", .integer 10)])) = .ok config ∧
      (LinesEnd headTexts (Golang.writeWsReportHead config)
          (Golang.writeWsReport binary64 config false [5] 1) ↔
        1 ≤ config.reportStep)) ∧
    (∃ config, GolangConfig.loadThreadTransConfig "thread_trans_conf.json"
        (.document (.object [("report_step", .integer 10)])) = .ok config ∧
      (LinesEnd ThreadTransReport.headTexts
          (ThreadTransReport.genThreadLantencyReportsHead config)
          (ThreadTransReport.genThreadLantencyReportsBody binary64 config
            [fun k => k * 30] "1w1r" 1 0 1 false) ↔
        1 ≤ config.reportStep)) := by
  obtain ⟨ws, threadTrans⟩ := reportLoops_end_iff binary64_accurate
  constructor
  · exact ⟨_, rfl, ws "ws_conf.json" (.document (.object
      [("report_step", .integer 10)])) _ false [5] rfl
        (List.cons_ne_nil _ _)⟩
  · exact ⟨_, rfl, threadTrans "thread_trans_conf.json" (.document (.object
      [("report_step", .integer 10)])) _ [fun k => k * 30] "1w1r" 1 0 1 false
        [30] rfl rfl (List.cons_ne_nil _ _)⟩

/-- An empty object is accepted with a step of zero, and the header is never
written. -/
theorem absent_step_never_ends :
    ∃ config, GolangConfig.loadWsConfig "ws_conf.json"
        (.document (.object [])) = .ok config ∧
      config.reportStep = 0 ∧
      ¬LinesEnd headTexts (Golang.writeWsReportHead config)
        (Golang.writeWsReport binary64 config false [5] 1) := by
  refine ⟨_, rfl, rfl, ?_⟩
  rintro ⟨iterations, _, _, _, _, written, _⟩
  exact headLine_zero_ne_ok iterations _ written

end WsReport

end LatencyBenchmark
