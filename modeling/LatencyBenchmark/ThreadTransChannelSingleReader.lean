import LatencyBenchmark.ThreadTransChannelProgress
import LatencyBenchmark.ThreadTransChannelReport
import LatencyBenchmark.ThreadTransChannelWork

/-!
# The Go channel benchmark with one consumer

With a single consumer main leaves its ready loop on the only ready signal
there is, so that none is late.  Nothing that can go wrong with several
consumers goes wrong then: every run ends, and unless there are more blocks
than `make` accepts it ends at main's report.
-/

namespace LatencyBenchmark

namespace ThreadTransChannel

variable {cntProducer : Nat} {limit : MakeLimit}
variable {config : ThreadTransConfig}
variable {state next : State cntProducer 1}

/-- Once main has left the ready loop the consumer has sent its ready
signal. -/
def ReaderReady (state : State cntProducer 1) : Prop :=
  state.main.LeftReadyLoop → ∀ consumerId,
    (state.consumer consumerId).point.SignalledReady

/-- A signal takes main out of the ready loop only from there. -/
theorem Received.ready_of_left {cntConsumer : Nat} {tmp : Int}
    {main after : MainPoint}
    (receives : Received cntProducer cntConsumer tmp main after)
    (waiting : ¬main.LeftReadyLoop) : main = .ready := by
  cases receives with
  | lastReady | ready => rfl
  | lastProducer | producer | lastConsumer | consumer | ignored =>
      exact absurd trivial waiting

theorem Rendezvous.readerReady (phases : Phases limit config state)
    {actor : Actor cntProducer 1} (move : Rendezvous state actor next)
    (waiting : ¬state.main.LeftReadyLoop) (left : next.main.LeftReadyLoop)
    (consumerId : Fin 1) :
    (next.consumer consumerId).point.SignalledReady := by
  cases move with
  | producerSignal sends receives =>
      exact absurd (receives.ready_of_left waiting)
        (phases.not_ready_of_producer sends)
  | @readySignal sender main sends receives =>
      obtain rfl : consumerId = sender := Subsingleton.elim _ _
      simp [State.setConsumer, ConsumerPoint.SignalledReady]
  | completeSignal sends receives =>
      exact absurd (receives.ready_of_left waiting)
        (phases.not_ready_of_signal sends)
  | block => exact absurd left waiting
  | nil sends =>
      rw [sends] at waiting
      exact absurd trivial waiting

theorem readerReady_step (phases : Phases limit config state)
    (ready : ReaderReady state) {action : Action cntProducer 1}
    (taken : ThreadTransChannel.step limit config state action = some next) :
    ReaderReady next := by
  intro left consumerId
  have continues := continues_step phases taken consumerId
  by_cases before : state.main.LeftReadyLoop
  · exact continues.signalled (ready before consumerId)
  · have now : Phases limit config { state with clock := action.time } :=
      phases.congr rfl rfl rfl rfl
    obtain ⟨_, move⟩ := step_cases taken
    cases move with
    | main move =>
        cases move with
        | make | startConsumer | startedConsumers => exact left.elim
        | makePanics => exact absurd left before
        | startProducer point | startedProducers point | sentNils point =>
            have atPoint : state.main = _ := point
            rw [atPoint] at before
            exact absurd trivial before
    | producer move =>
        rw [move.keepsCounts.1] at left
        exact absurd left before
    | consumer move =>
        rw [move.keepsCounts.1] at left
        exact absurd left before
    | rendezvous move => exact move.readerReady now before left consumerId

theorem readerReady_of_reachable (someProducer : 0 < cntProducer)
    (reachable : (benchmarkWr limit config cntProducer 1).Reachable state) :
    ReaderReady state := by
  apply reachable.invariant
  · rintro _ ⟨clock, rfl⟩ left
    exact left.elim
  · intro earlier action after earlierReachable taken ready
    exact readerReady_step (invariant_of_reachable someProducer Nat.one_pos
      earlierReachable).phases ready taken

/-- No ready signal is late. -/
theorem ReaderReady.understood (ready : ReaderReady state)
    (action : Action cntProducer 1) : Understood state action := by
  intro consumerId _ point joining
  have left : state.main.LeftReadyLoop := by
    cases main : state.main with
    | join | sendNil | report | startProducers => trivial
    | make | startConsumers | ready =>
        rw [main] at joining
        exact joining.elim
  have signalled := ready left consumerId
  rw [point] at signalled
  exact signalled.elim

/-- The only nil finds its receiver. -/
theorem ReaderReady.nilsFindReceivers (ready : ReaderReady state)
    (action : Action cntProducer 1) : NilsFindReceivers state action := by
  intro awaits
  have left : state.main.LeftReadyLoop := by
    cases main : state.main with
    | join | sendNil | report | startProducers => trivial
    | make | startConsumers | ready =>
        rw [main] at awaits
        exact awaits.elim
  exact ⟨fun _ _ consumerId => ready left consumerId,
    fun _ _ _ _ consumerId _ => ready left consumerId⟩

/-- At the report all goroutines have completed and the consumer has stored
the number of blocks. -/
theorem complete_of_report (someProducer : 0 < cntProducer)
    (reachable : (benchmarkWr limit config cntProducer 1).Reachable state)
    (atReport : state.main = .report) :
    (∀ producerId, state.producer producerId = .complete) ∧
      (∀ consumerId, (state.consumer consumerId).point = .complete) ∧
        state.consumerReadNum 0 = config.loop * config.cntPerLoop := by
  have understood : (benchmarkWr limit config cntProducer 1).ReachableUnder
      Understood state :=
    reachable.reachableUnder fun before action _ reached _ =>
      (readerReady_of_reachable someProducer reached.reachable).understood
        action
  obtain ⟨producers, consumers⟩ := (countsOnly_of_reachableUnder someProducer
    Nat.one_pos understood).all_complete atReport
  refine ⟨producers, consumers, ?_⟩
  have sum := sum_consumerReadNum_of_complete someProducer Nat.one_pos
    reachable atReport producers consumers
  rwa [Fin.sum_univ_one] at sum

/-- While `make` accepts the number of blocks, no state before the report is
stuck. -/
theorem report_or_canStep_of_fits (someProducer : 0 < cntProducer)
    (fits : config.loop * config.cntPerLoop ≤ limit.blocks)
    (reachable : (benchmarkWr limit config cntProducer 1).Reachable state) :
    state.main = .report ∨ CanStep limit config state := by
  have findReceivers : (benchmarkWr limit config cntProducer 1).ReachableUnder
      NilsFindReceivers state :=
    reachable.reachableUnder fun before action _ reached _ =>
      (readerReady_of_reachable someProducer
        reached.reachable).nilsFindReceivers action
  have invariant := invariant_of_reachable someProducer Nat.one_pos reachable
  have slots := slots_of_reachable someProducer Nat.one_pos (by norm_num)
    reachable
  exact (progress_of_reachableUnder someProducer Nat.one_pos fits
    (by norm_num) findReceivers).report_or_canStep invariant.phases slots
      Nat.one_pos

/-- Some run ends, and it ends at a report only if `make` accepts the
blocks. -/
theorem fits_of_no_stuck (someProducer : 0 < cntProducer)
    (progresses : ∀ state, (benchmarkWr limit config cntProducer 1).Reachable
      state → state.main = .report ∨ CanStep limit config state) :
    config.loop * config.cntPerLoop ≤ limit.blocks := by
  have atStart : (benchmarkWr limit config cntProducer 1).ReachableUnder
      (fun _ _ => True) (start cntProducer 1 0) := .of_initial ⟨0, rfl⟩
  obtain ⟨last, reached, stuck⟩ := atStart.exists_final (State.work config)
    fun before action after reached _ taken =>
      work_lt_of_step (invariant_of_reachable someProducer Nat.one_pos
        reached.reachable).phases taken
  have reachable := reached.reachable
  have atReport : last.main = .report := by
    rcases progresses last reachable with atReport | ⟨action, next, taken⟩
    · exact atReport
    · exact absurd ⟨action, trivial, next, taken⟩ stuck
  have invariant := invariant_of_reachable someProducer Nat.one_pos reachable
  obtain ⟨producers, _, _⟩ :=
    complete_of_report someProducer reachable atReport
  have length := invariant.traffic.length_sent someProducer producers
  have bound := invariant.traffic.length_le
  have small := invariant.phases.fits (by simp [atReport])
  omega

/-- With one consumer every run is bounded and every report complete, and no
state before the report is stuck exactly when `make` accepts the number of
blocks. -/
theorem singleReader_terminates (someProducer : 0 < cntProducer) :
    (∀ trace state, (benchmarkWr limit config cntProducer 1).Run trace state →
      trace.length ≤ initialWork config cntProducer 1) ∧
    ((∀ state, (benchmarkWr limit config cntProducer 1).Reachable state →
      state.main = .report ∨ CanStep limit config state) ↔
        config.loop * config.cntPerLoop ≤ limit.blocks) ∧
    ∀ state, (benchmarkWr limit config cntProducer 1).Reachable state →
      state.main = .report →
        (∀ producerId, state.producer producerId = .complete) ∧
          state.consumerReadNum 0 = config.loop * config.cntPerLoop := by
  refine ⟨?_, ?_, ?_⟩
  · intro trace state run
    exact length_le_initialWork someProducer Nat.one_pos run
  · constructor
    · exact fits_of_no_stuck someProducer
    · intro fits state reachable
      exact report_or_canStep_of_fits someProducer fits reachable
  · intro state reachable atReport
    obtain ⟨producers, _, stored⟩ :=
      complete_of_report someProducer reachable atReport
    exact ⟨producers, stored⟩

/-- Two producers pass a block each to the one consumer, and main comes to its
report. -/
def readerReport (first second : Fin 2) (reader : Fin 1) :
    List (Action 2 1) :=
  atTime 0 [.main, .main, .main, .consumer reader, .consumerSignal reader,
      .main, .main, .main] ++
    atTime 1 (offerBlock first ++ offerBlock second) ++
      atTime 3 (takeBlock second reader ++ takeBlock first reader) ++
        atTime 4 (finishLoop first ++ finishLoop second ++
          [.producerSignal second, .producerSignal first, .nil reader, .main,
            .consumer reader, .consumerSignal reader])

theorem singleReader_terminates_pair :
    ∃ state : State 2 1,
      (benchmarkWr amd64Limit pairConfig 2 1).Reachable state ∧
        state.main = .report ∧
        (∀ producerId, state.producer producerId = .complete) ∧
        state.consumerReadNum 0 = 2 := by
  have initial : (benchmarkWr amd64Limit pairConfig 2 1).initial
      (start 2 1 0) := ⟨0, rfl⟩
  have reachable := (TransitionSystem.Reachable.of_initial initial).execute
    (show (benchmarkWr amd64Limit pairConfig 2 1).execute (start 2 1 0)
      (readerReport 0 1 0) = some _ from rfl)
  have reported :=
    (singleReader_terminates Nat.two_pos).2.2 _ reachable rfl
  exact ⟨_, reachable, rfl, reported⟩

/-- A panic ends the program. -/
theorem not_canStep_of_panicked (panicked : state.panicked = true) :
    ¬CanStep limit config state := by
  rintro ⟨action, next, taken⟩
  change step limit config state action = some next at taken
  unfold step at taken
  split at taken
  · next allowed =>
      rw [panicked] at allowed
      cases allowed.2
  · cases taken

/-- More blocks than `make` accepts. -/
def hugeConfig : ThreadTransConfig where
  loop := 2 ^ 21
  cntPerLoop := 2 ^ 20
  loop_lt := by norm_num
  cntPerLoop_lt := by norm_num

/-- `make` panics before main has started anything. -/
theorem make_panics :
    ∃ state : State 1 1,
      (benchmarkWr amd64Limit hugeConfig 1 1).Reachable state ∧
      state.main ≠ .report ∧ ¬CanStep amd64Limit hugeConfig state := by
  have initial : (benchmarkWr amd64Limit hugeConfig 1 1).initial
      (start 1 1 0) := ⟨0, rfl⟩
  have reachable := (TransitionSystem.Reachable.of_initial initial).execute
    (show (benchmarkWr amd64Limit hugeConfig 1 1).execute (start 1 1 0)
      [⟨.main, 0⟩] = some _ from rfl)
  exact ⟨_, reachable, by decide, not_canStep_of_panicked rfl⟩

end ThreadTransChannel

end LatencyBenchmark
