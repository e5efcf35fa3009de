import LatencyBenchmark.ThreadTransChannelRuns

/-!
# The work left to the Go channel benchmark

Every step uses up work, whatever its goroutine does.  A block that has not
been sent carries the work of the consumer that will receive it, a consumer's
signal costs main nothing, and main sends its nils once.
-/

namespace LatencyBenchmark

namespace ThreadTransChannel

variable {cntProducer cntConsumer : Nat} {limit : MakeLimit}
variable {config : ThreadTransConfig}
variable {state next : State cntProducer cntConsumer}

/-- The steps main has left.  Before the producers have completed it keeps
those of its nils. -/
def MainPoint.work (cntProducer cntConsumer : Nat) : MainPoint → Nat
  | .make => cntProducer + 2 * cntConsumer + 6
  | .startConsumers i => cntProducer + cntConsumer + (cntConsumer - i) + 5
  | .ready => cntProducer + cntConsumer + 4
  | .startProducers i => (cntProducer - i) + cntConsumer + 3
  | .join cntProducerComplete _ =>
      if cntProducerComplete < cntProducer then cntConsumer + 2 else 0
  | .sendNil i _ _ => (cntConsumer - i) + 1
  | .report => 0

/-- The work of a loop in which a producer goes up to an index. -/
def loopWork (endIdx : Nat) : Nat :=
  6 * endIdx + 3

/-- The steps a producer has left, and those of the consumers that receive
its blocks. -/
def ProducerPoint.work (loop endIdx : Nat) : ProducerPoint → Nat
  | .notStarted => loop * loopWork endIdx + 2
  | .loop i => (loop - i) * loopWork endIdx + 2
  | .inner i j => 6 * (endIdx - j) + (loop - (i + 1)) * loopWork endIdx + 4
  | .stampBegin i j _ =>
      6 * (endIdx - (j + 1)) + (loop - (i + 1)) * loopWork endIdx + 9
  | .send i j _ =>
      6 * (endIdx - (j + 1)) + (loop - (i + 1)) * loopWork endIdx + 8
  | .stampEnd i j _ =>
      6 * (endIdx - (j + 1)) + (loop - (i + 1)) * loopWork endIdx + 5
  | .sleep i => (loop - (i + 1)) * loopWork endIdx + 3
  | .signal => 1
  | .complete => 0

/-- The steps a consumer has left while it receives no further block. -/
def ConsumerPoint.work : ConsumerPoint → Nat
  | .notStarted | .addReady | .stamp _ => 4
  | .ready | .count => 3
  | .receive | .store => 2
  | .signal => 1
  | .complete => 0

/-- The steps all producers have left. -/
def producersWork (config : ThreadTransConfig)
    (producer : Fin cntProducer → ProducerPoint) : Nat :=
  ∑ producerId, (producer producerId).work config.loop
    (endIdx config cntProducer producerId)

/-- The steps all consumers have left. -/
def consumersWork (consumer : Fin cntConsumer → Consumer) : Nat :=
  ∑ consumerId, (consumer consumerId).point.work

/-- A panic is one more step of a program that runs. -/
def panicWork : Bool → Nat
  | true => 0
  | false => 1

/-- The work left in a state. -/
def State.work (config : ThreadTransConfig)
    (state : State cntProducer cntConsumer) : Nat :=
  state.main.work cntProducer cntConsumer +
    producersWork config state.producer + consumersWork state.consumer +
      panicWork state.panicked

/-! ## One goroutine moves -/

theorem producersWork_update (config : ThreadTransConfig)
    (producer : Fin cntProducer → ProducerPoint)
    (producerId : Fin cntProducer) (point : ProducerPoint) :
    producersWork config (Function.update producer producerId point) +
        (producer producerId).work config.loop
          (endIdx config cntProducer producerId) =
      producersWork config producer +
        point.work config.loop (endIdx config cntProducer producerId) :=
  ThreadFamily.sum_update producer producerId point
    fun (other : Fin cntProducer) (member : ProducerPoint) =>
      member.work config.loop (endIdx config cntProducer other)

theorem consumersWork_update (consumer : Fin cntConsumer → Consumer)
    (consumerId : Fin cntConsumer) (value : Consumer) :
    consumersWork (Function.update consumer consumerId value) +
        (consumer consumerId).point.work =
      consumersWork consumer + value.point.work :=
  ThreadFamily.sum_update consumer consumerId value
    fun _ (member : Consumer) => member.point.work

/-- One loop less leaves that loop's work less. -/
theorem loopWork_succ {loop i : Nat} (inLoop : i < loop) (endIdx : Nat) :
    (loop - i) * loopWork endIdx =
      (loop - (i + 1)) * loopWork endIdx + loopWork endIdx := by
  rw [← Nat.succ_mul]
  congr 1
  omega

/-- A producer's own move uses up work. -/
theorem ProducerMove.work_lt {producerId : Fin cntProducer}
    (running : state.panicked = false)
    (move : ProducerMove config state producerId next) :
    next.work config < state.work config := by
  have moved : ∀ point, next.producer =
      Function.update state.producer producerId point →
      next.main = state.main → next.consumer = state.consumer →
      next.panicked = state.panicked →
      point.work config.loop (endIdx config cntProducer producerId) <
        (state.producer producerId).work config.loop
          (endIdx config cntProducer producerId) →
      next.work config < state.work config := by
    intro point producer main consumer panicked less
    have exchanged :=
      producersWork_update config state.producer producerId point
    unfold State.work
    rw [main, producer, consumer, panicked]
    omega
  cases move with
  | @nextLoop i point inLoop =>
      refine moved _ rfl rfl rfl rfl ?_
      rw [point]
      simp only [ProducerPoint.work]
      have whole := loopWork_succ inLoop
        (endIdx config cntProducer producerId)
      have unfolded : loopWork (endIdx config cntProducer producerId) =
        6 * endIdx config cntProducer producerId + 3 := rfl
      omega
  | finish point loopEnds =>
      refine moved _ rfl rfl rfl rfl ?_
      rw [point]
      simp only [ProducerPoint.work]
      omega
  | @issue i j point inRange inside =>
      refine moved _ rfl rfl rfl rfl ?_
      rw [point]
      simp only [ProducerPoint.work]
      omega
  | issuePanics point inRange outside =>
      unfold State.work
      rw [running]
      exact Nat.lt_succ_self _
  | endRange point rangeEnds =>
      refine moved _ rfl rfl rfl rfl ?_
      rw [point]
      simp only [ProducerPoint.work]
      omega
  | stampBegin point | stampEnd point | wake point =>
      refine moved _ rfl rfl rfl rfl ?_
      rw [point]
      simp only [ProducerPoint.work]
      omega

/-- A consumer's own move uses up work. -/
theorem ConsumerMove.work_lt {consumerId : Fin cntConsumer}
    (running : state.panicked = false)
    (move : ConsumerMove state consumerId next) :
    next.work config < state.work config := by
  have moved : ∀ consumer : Consumer, next.consumer =
      Function.update state.consumer consumerId consumer →
      next.main = state.main → next.producer = state.producer →
      next.panicked = state.panicked →
      consumer.point.work < (state.consumer consumerId).point.work →
      next.work config < state.work config := by
    intro consumer update main producer panicked less
    have exchanged :=
      consumersWork_update state.consumer consumerId consumer
    unfold State.work
    rw [main, update, producer, panicked]
    omega
  cases move with
  | addReady point | stamp point | count point | store point inside =>
      refine moved _ rfl rfl rfl rfl ?_
      rw [point]
      simp only [ConsumerPoint.work]
      omega
  | storePanics point outside =>
      unfold State.work
      rw [running]
      exact Nat.lt_succ_self _

/-- Main's own move uses up work. -/
theorem MainMove.work_lt (phases : Phases limit config state)
    (running : state.panicked = false)
    (move : MainMove limit config state next) :
    next.work config < state.work config := by
  have moved : producersWork config next.producer =
        producersWork config state.producer →
      consumersWork next.consumer = consumersWork state.consumer →
      next.panicked = state.panicked →
      next.main.work cntProducer cntConsumer <
        state.main.work cntProducer cntConsumer →
      next.work config < state.work config := by
    intro producers consumers panicked less
    unfold State.work
    rw [producers, consumers, panicked]
    omega
  cases move with
  | make point fits | startedConsumers point done
  | startedProducers point done =>
      refine moved rfl rfl rfl ?_
      rw [point]
      simp only [MainPoint.work]
      first | omega | (split <;> omega)
  | makePanics point tooLong =>
      unfold State.work
      rw [running]
      exact Nat.lt_succ_self _
  | @startConsumer i point inside =>
      have exchanged := consumersWork_update state.consumer ⟨i, inside⟩
        { state.consumer ⟨i, inside⟩ with point := .addReady }
      rw [phases.consumer_sleeping point inside] at exchanged
      refine moved rfl (Nat.add_right_cancel exchanged) rfl ?_
      rw [point]
      simp only [MainPoint.work]
      omega
  | @startProducer i point inside =>
      have exchanged := producersWork_update config state.producer
        ⟨i, inside⟩ (.loop 0)
      rw [phases.producer_sleeping point inside] at exchanged
      refine moved (Nat.add_right_cancel exchanged) rfl rfl ?_
      rw [point]
      simp only [MainPoint.work]
      omega
  | @sentNils i np nc point done =>
      have sent := phases.nils_sent
      rw [point] at sent
      have full : np = cntProducer := sent.2.2.1
      refine moved rfl rfl rfl ?_
      rw [point, full]
      simp [MainPoint.work]

/-- Taking a signal adds no work to main. -/
theorem Received.work_le {tmp : Int} {main after : MainPoint}
    (receives : Received cntProducer cntConsumer tmp main after) :
    after.work cntProducer cntConsumer ≤ main.work cntProducer cntConsumer := by
  cases receives with
  | lastReady last =>
      simp only [MainPoint.work]
      omega
  | lastProducer one last | producer one notLast =>
      simp only [MainPoint.work]
      split <;> (try split) <;> omega
  | lastConsumer two last => exact Nat.zero_le _
  | ready notLast | consumer two notLast | ignored notOne notTwo =>
      exact le_refl _

/-- A value passed on a channel uses up work. -/
theorem Rendezvous.work_lt {actor : Actor cntProducer cntConsumer}
    (move : Rendezvous state actor next) :
    next.work config < state.work config := by
  unfold State.work
  cases move with
  | @producerSignal producerId main sends receives =>
      have exchanged :=
        producersWork_update config state.producer producerId .complete
      have taken := receives.work_le
      rw [sends] at exchanged
      simp only [ProducerPoint.work] at exchanged
      dsimp only [State.moveProducer]
      omega
  | @readySignal consumerId main sends receives =>
      have exchanged := consumersWork_update state.consumer consumerId
        { state.consumer consumerId with
          point := .receive
          consumerIdx :=
            toInt32 ((state.consumer consumerId).consumerIdx - 1)
          idx := 0 }
      have taken := receives.work_le
      rw [sends] at exchanged
      simp only [ConsumerPoint.work] at exchanged
      dsimp only [State.setConsumer]
      omega
  | @completeSignal consumerId main sends receives =>
      have exchanged := consumersWork_update state.consumer consumerId
        { state.consumer consumerId with point := .complete }
      have taken := receives.work_le
      rw [sends] at exchanged
      simp only [ConsumerPoint.work] at exchanged
      dsimp only [State.setConsumer]
      omega
  | @block producerId consumerId i j idx sends receives =>
      have sent := producersWork_update config state.producer producerId
        (.stampEnd i j idx)
      have received := consumersWork_update state.consumer consumerId
        { state.consumer consumerId with
          point := .stamp idx
          received := idx :: (state.consumer consumerId).received }
      rw [sends] at sent
      rw [receives] at received
      simp only [ProducerPoint.work] at sent
      simp only [ConsumerPoint.work] at received
      dsimp only [State.setConsumer, State.moveProducer]
      omega
  | @nil consumerId i np nc sends inside receives =>
      have exchanged := consumersWork_update state.consumer consumerId
        { state.consumer consumerId with point := .store }
      rw [receives] at exchanged
      simp only [ConsumerPoint.work] at exchanged
      rw [sends]
      dsimp only [State.setConsumer, MainPoint.work]
      omega

/-- Every step uses up work. -/
theorem work_lt_of_step (phases : Phases limit config state)
    {action : Action cntProducer cntConsumer}
    (taken : ThreadTransChannel.step limit config state action = some next) :
    next.work config < state.work config := by
  have running : state.panicked = false := by
    unfold ThreadTransChannel.step at taken
    split at taken
    · next allowed => exact allowed.2
    · cases taken
  have now : Phases limit config { state with clock := action.time } :=
    phases.congr rfl rfl rfl rfl
  have same : State.work config { state with clock := action.time } =
      state.work config := rfl
  obtain ⟨_, move⟩ := step_cases taken
  rw [← same]
  cases move with
  | main move => exact move.work_lt now running
  | producer move => exact move.work_lt running
  | consumer move => exact move.work_lt running
  | rendezvous move => exact move.work_lt

/-- The work left when `benchmark_wr` is called. -/
def initialWork (config : ThreadTransConfig)
    (cntProducer cntConsumer : Nat) : Nat :=
  State.work config (start cntProducer cntConsumer 0)

/-- No run is longer than the work it starts with. -/
theorem length_le_initialWork (someProducer : 0 < cntProducer)
    (someConsumer : 0 < cntConsumer)
    {trace : List (State cntProducer cntConsumer ×
      Action cntProducer cntConsumer)}
    (run : (benchmarkWr limit config cntProducer cntConsumer).Run trace state) :
    trace.length ≤ initialWork config cntProducer cntConsumer := by
  obtain ⟨initial, ⟨clock, rfl⟩, bound⟩ :=
    run.length_add_measure_le (State.work config)
      (fun before action after reached _ taken =>
        work_lt_of_step (invariant_of_reachable someProducer someConsumer
          reached.reachable).phases taken)
      (show TransitionSystem.Meets (fun _ _ => True) trace from
        fun _ _ => trivial)
  change _ ≤ initialWork config cntProducer cntConsumer at bound
  omega

end ThreadTransChannel

end LatencyBenchmark
