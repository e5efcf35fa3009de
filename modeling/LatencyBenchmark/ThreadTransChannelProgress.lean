import LatencyBenchmark.ThreadTransChannelReadiness

/-!
# Progress of the Go channel benchmark

A state without a step in which nothing has panicked shows where every
goroutine is stopped.  Main is at its report there if every consumer can still
receive its nil, and it waits forever for a receiver of a nil otherwise.
-/

namespace LatencyBenchmark

namespace ThreadTransChannel

variable {cntProducer cntConsumer : Nat} {limit : MakeLimit}
variable {config : ThreadTransConfig}
variable {state next : State cntProducer cntConsumer}

/-- Some goroutine can take a step. -/
def CanStep (limit : MakeLimit) (config : ThreadTransConfig)
    (state : State cntProducer cntConsumer) : Prop :=
  ∃ action next,
    (benchmarkWr limit config cntProducer cntConsumer).step state action =
      some next

/-- The step of an actor at the current time. -/
theorem step_at_clock (running : state.panicked = false)
    (actor : Actor cntProducer cntConsumer) :
    step limit config state ⟨actor, state.clock⟩ =
      match actor with
      | .main => mainStep limit config state
      | .producer producerId => producerStep config state producerId
      | .consumer consumerId => consumerStep state consumerId
      | .producerSignal producerId => producerSignalStep state producerId
      | .consumerSignal consumerId => consumerSignalStep state consumerId
      | .block producerId consumerId => blockStep state producerId consumerId
      | .nil consumerId => nilStep state consumerId := by
  unfold step
  exact if_pos ⟨le_rfl, running⟩

/-- A value offered to main is taken where main receives. -/
theorem receiveSignal_ne_none (tmp : Int)
    (receives : state.main = .ready ∨ state.main.Joining) :
    receiveSignal cntProducer cntConsumer state.main tmp ≠ none := by
  rcases receives with atReady | joining
  · rw [atReady]
    simp only [receiveSignal]
    split <;> simp
  · cases point : state.main with
    | join np nc =>
        simp only [receiveSignal]
        split <;> (try split) <;> (try split) <;> simp
    | make | startConsumers | ready | startProducers | sendNil | report =>
        rw [point] at joining
        exact joining.elim

section Stuck

variable (running : state.panicked = false)
variable (stuck : ¬CanStep limit config state)

include running stuck

omit running in
theorem step_of_stuck (actor : Actor cntProducer cntConsumer) :
    step limit config state ⟨actor, state.clock⟩ = none := by
  by_contra enabled
  obtain ⟨next, taken⟩ := Option.ne_none_iff_exists'.mp enabled
  exact stuck ⟨⟨actor, state.clock⟩, next, taken⟩

/-- Main is stopped at a receive, at a send or at its report. -/
theorem main_of_stuck :
    state.main = .ready ∨ state.main.Joining ∨
      (∃ i cntProducerComplete cntConsumerComplete, i < cntConsumer ∧
        state.main =
          .sendNil i cntProducerComplete cntConsumerComplete) ∨
      state.main = .report := by
  have none := step_of_stuck stuck .main
  rw [step_at_clock running] at none
  simp only [mainStep] at none
  cases point : state.main with
  | make | startConsumers i | startProducers i =>
      simp only [point] at none
      split at none <;> cases none
  | ready => exact Or.inl rfl
  | join np nc => exact Or.inr (Or.inl trivial)
  | sendNil i cntProducerComplete cntConsumerComplete =>
      simp only [point] at none
      split at none
      · next inside => exact Or.inr (Or.inr (Or.inl ⟨i, _, _, inside, rfl⟩))
      · cases none
  | report => exact Or.inr (Or.inr (Or.inr rfl))

/-- A producer is stopped before it starts, at a send or at its end. -/
theorem producer_of_stuck (producerId : Fin cntProducer) :
    state.producer producerId = .notStarted ∨
      (∃ i j idx, state.producer producerId = .send i j idx) ∨
      state.producer producerId = .signal ∨
      state.producer producerId = .complete := by
  have none := step_of_stuck stuck (.producer producerId)
  rw [step_at_clock running] at none
  simp only [producerStep] at none
  cases point : state.producer producerId with
  | loop i | stampBegin i j idx | stampEnd i j idx | sleep i =>
      simp only [point] at none
      first | cases none | (split at none <;> cases none)
  | inner i j =>
      simp only [point] at none
      split at none
      · split at none <;> cases none
      · cases none
  | send i j idx => exact Or.inr (Or.inl ⟨i, j, idx, rfl⟩)
  | notStarted | signal | complete => simp

/-- A consumer is stopped before it starts, at a channel or at its end. -/
theorem consumer_of_stuck (consumerId : Fin cntConsumer) :
    (state.consumer consumerId).point = .notStarted ∨
      (state.consumer consumerId).point = .ready ∨
      (state.consumer consumerId).point = .receive ∨
      (state.consumer consumerId).point = .signal ∨
      (state.consumer consumerId).point = .complete := by
  have none := step_of_stuck stuck (.consumer consumerId)
  rw [step_at_clock running] at none
  simp only [consumerStep] at none
  cases point : (state.consumer consumerId).point with
  | addReady | stamp block | count =>
      simp only [point] at none
      cases none
  | store =>
      simp only [point] at none
      split at none <;> cases none
  | notStarted | ready | receive | signal | complete => simp

/-- Where main receives, nobody is left offering a signal. -/
theorem no_signal_of_stuck
    (receives : state.main = .ready ∨ state.main.Joining) :
    (∀ producerId, state.producer producerId ≠ .signal) ∧
      ∀ consumerId, (state.consumer consumerId).point ≠ .ready ∧
        (state.consumer consumerId).point ≠ .signal := by
  constructor
  · intro producerId sends
    have none := step_of_stuck stuck (.producerSignal producerId)
    rw [step_at_clock running] at none
    simp only [producerSignalStep, sends, if_true, Option.map_eq_none_iff]
      at none
    exact receiveSignal_ne_none 1 receives none
  · intro consumerId
    have none := step_of_stuck stuck (.consumerSignal consumerId)
    rw [step_at_clock running] at none
    constructor
    · intro sends
      simp only [consumerSignalStep, Consumer.signal, sends,
        Option.bind_some, Option.map_eq_none_iff] at none
      exact receiveSignal_ne_none _ receives none
    · intro sends
      simp only [consumerSignalStep, Consumer.signal, sends,
        Option.bind_some, Option.map_eq_none_iff] at none
      exact receiveSignal_ne_none _ receives none

/-- A producer stopped at a send has no receiver. -/
theorem no_block_of_stuck {producerId : Fin cntProducer} {i j idx : Nat}
    (sends : state.producer producerId = .send i j idx)
    (consumerId : Fin cntConsumer) :
    (state.consumer consumerId).point ≠ .receive := by
  intro receives
  have none := step_of_stuck stuck (.block producerId consumerId)
  rw [step_at_clock running] at none
  simp only [blockStep, sends, receives, if_true] at none
  cases none

/-- Main stopped at a nil has no receiver. -/
theorem no_nil_of_stuck {i cntProducerComplete cntConsumerComplete : Nat}
    (sends : state.main =
      .sendNil i cntProducerComplete cntConsumerComplete)
    (inside : i < cntConsumer) (consumerId : Fin cntConsumer) :
    (state.consumer consumerId).point ≠ .receive := by
  intro receives
  have none := step_of_stuck stuck (.nil consumerId)
  rw [step_at_clock running] at none
  simp only [nilStep, sends, receives, inside, and_self, if_true] at none
  cases none

end Stuck

/-- Where main receives its last ready signal it is not stopped. -/
theorem not_ready_of_stuck (running : state.panicked = false)
    (stuck : ¬CanStep limit config state) (phases : Phases limit config state)
    (slots : Slots state) (waits : WaitsForLast state)
    (someConsumer : 0 < cntConsumer) : state.main ≠ .ready := by
  intro atReady
  have silent := (no_signal_of_stuck running stuck (Or.inl atReady)).2
  have signalled : ∀ consumerId,
      (state.consumer consumerId).point.SignalledReady := by
    intro consumerId
    have started : (state.consumer consumerId).point ≠ .notStarted := by
      rw [phases.consumer_started, atReady]
      trivial
    rcases consumer_of_stuck running stuck consumerId with
      point | point | point | point | point
    · exact absurd point started
    · exact absurd point (silent consumerId).1
    all_goals
      rw [point]
      trivial
  have left := waits.leftReadyLoop slots someConsumer signalled
  rw [atReady] at left
  exact left

/-- In the join loop every goroutine was started. -/
theorem MainPoint.Joining.started {main : MainPoint}
    (joining : main.Joining) (i : Nat) :
    main.ConsumerStarted i ∧ main.ProducerStarted i := by
  cases main with
  | join cntProducerComplete cntConsumerComplete => exact ⟨trivial, trivial⟩
  | make | startConsumers | ready | startProducers | sendNil | report =>
      exact joining.elim

/-- Where no goroutine can step before a nil was sent, the producers are
done: a consumer waits for their blocks. -/
theorem producers_complete_of_stuck (running : state.panicked = false)
    (stuck : ¬CanStep limit config state) (phases : Phases limit config state)
    (joining : state.main.Joining) (someConsumer : 0 < cntConsumer)
    (waiting : ∀ consumerId, (state.consumer consumerId).point = .receive) :
    state.completeProducers = cntProducer := by
  have silent := no_signal_of_stuck running stuck (Or.inr joining)
  have complete : ∀ producerId, state.producer producerId = .complete := by
    intro producerId
    have started := (phases.producer_started producerId).mpr
      (joining.started producerId).2
    rcases producer_of_stuck running stuck producerId with
      asleep | ⟨i, j, idx, sends⟩ | signals | complete
    · exact absurd asleep started
    · exact absurd (waiting ⟨0, someConsumer⟩)
        (no_block_of_stuck running stuck sends _)
    · exact absurd signals (silent.1 producerId)
    · exact complete
  have every : state.completeProducers = Fintype.card (Fin cntProducer) :=
    ThreadFamily.count_eq_card_iff.mpr complete
  rwa [Fintype.card_fin] at every

/-- Where no goroutine can step in the join loop, every consumer waits for a
block or has signalled its completion. -/
theorem consumer_settled_of_stuck (running : state.panicked = false)
    (stuck : ¬CanStep limit config state) (phases : Phases limit config state)
    (joining : state.main.Joining) (consumerId : Fin cntConsumer) :
    (state.consumer consumerId).point = .receive ∨
      (state.consumer consumerId).point = .complete := by
  have started := (phases.consumer_started consumerId).mpr
    (joining.started consumerId).1
  have quiet :=
    (no_signal_of_stuck running stuck (Or.inr joining)).2 consumerId
  have stopped := consumer_of_stuck running stuck consumerId
  tauto

/-- Main is not stopped in the join loop: the producers are done before it
sends nils, and the consumers after. -/
theorem not_joining_of_stuck (running : state.panicked = false)
    (stuck : ¬CanStep limit config state) (phases : Phases limit config state)
    (counts : state.CountsAll) (someConsumer : 0 < cntConsumer) :
    ¬state.main.Joining := by
  intro joining
  have settled := consumer_settled_of_stuck running stuck phases joining
  cases point : state.main with
  | join cntProducerComplete cntConsumerComplete =>
      unfold State.CountsAll at counts
      have sent := phases.nils_sent
      rw [point] at counts sent
      obtain ⟨producers, consumers⟩ := counts
      obtain ⟨nils, notLast⟩ := sent
      rcases nils with ⟨notFull, none⟩ | ⟨full, all⟩
      · -- No nil was sent, so every consumer waits for a block.
        have waiting : ∀ consumerId,
            (state.consumer consumerId).point = .receive := by
          intro consumerId
          rcases settled consumerId with waiting | complete
          · exact waiting
          · have gotNil : (state.consumer consumerId).GotNil := by
              simp [Consumer.GotNil, ConsumerPoint.GotNil, complete]
            exact absurd none (phases.nilsSent_ne_zero gotNil)
        have every := producers_complete_of_stuck running stuck phases
          joining someConsumer waiting
        omega
      · -- Every consumer has its nil and has signalled its completion.
        have gotNil := phases.nilsSent_eq_iff.mp all
        have complete : ∀ consumerId,
            (state.consumer consumerId).point = .complete := by
          intro consumerId
          rcases settled consumerId with waiting | complete
          · have nil := gotNil consumerId
            simp [Consumer.GotNil, ConsumerPoint.GotNil, waiting] at nil
          · exact complete
        have every : state.completeConsumers =
            Fintype.card (Fin cntConsumer) :=
          ThreadFamily.count_eq_card_iff.mpr complete
        rw [Fintype.card_fin] at every
        omega
  | make | startConsumers | ready | startProducers | sendNil | report =>
      rw [point] at joining
      exact joining

/-- Main is not stopped at a nil when every consumer has passed its ready
send. -/
theorem not_sendingNils_of_stuck (running : state.panicked = false)
    (stuck : ¬CanStep limit config state) (phases : Phases limit config state)
    (signalled : AllSignalled state)
    {i cntProducerComplete cntConsumerComplete : Nat}
    (inside : i < cntConsumer) :
    state.main ≠ .sendNil i cntProducerComplete cntConsumerComplete := by
  intro point
  have sent := phases.nils_sent
  have sending : state.main.SendingNils := by
    rw [point]
    trivial
  rw [point] at sent
  have gotNil : ∀ consumerId, (state.consumer consumerId).GotNil := by
    intro consumerId
    have ready := signalled sending consumerId
    have waiting := no_nil_of_stuck running stuck point inside consumerId
    rcases consumer_of_stuck running stuck consumerId with
      atPoint | atPoint | atPoint | atPoint | atPoint
    · rw [atPoint] at ready
      exact ready.elim
    · rw [atPoint] at ready
      exact ready.elim
    · exact absurd atPoint waiting
    all_goals simp [Consumer.GotNil, ConsumerPoint.GotNil, atPoint]
  have all := phases.nilsSent_eq_iff.mpr gotNil
  rw [sent.1] at all
  omega

section Panics

theorem cnt_eq (fits : config.loop * config.cntPerLoop ≤ limit.blocks) :
    cnt config = config.loop * config.cntPerLoop := by
  have most := limit.blocks_lt
  exact Nat.mod_eq_of_lt (by omega)

theorem MainMove.not_panicked
    (fits : config.loop * config.cntPerLoop ≤ limit.blocks)
    (running : state.panicked = false)
    (move : MainMove limit config state next) :
    next.panicked = false := by
  cases move with
  | makePanics point tooLong =>
      rw [cnt_eq fits] at tooLong
      exact absurd fits tooLong
  | make | startConsumer | startedConsumers | startProducer
  | startedProducers | sentNils => exact running

theorem ProducerMove.not_panicked
    (fits : config.loop * config.cntPerLoop ≤ limit.blocks)
    (traffic : Traffic config state) (running : state.panicked = false)
    {producerId : Fin cntProducer}
    (move : ProducerMove config state producerId next) :
    next.panicked = false := by
  have all := cnt_eq fits
  cases move with
  | @issuePanics i j point inRange outside =>
      have valid := traffic.producer_valid producerId
      rw [point] at valid
      have owns : IndexRange.Owns config.cntPerLoop cntProducer producerId j :=
        ⟨valid.2, inRange⟩
      have inside := owns.index_lt producerId.isLt
      have below : (i + 1) * config.cntPerLoop ≤
          config.loop * config.cntPerLoop :=
        Nat.mul_le_mul_right _ valid.1
      rw [Nat.succ_mul] at below
      rw [traffic.blockIndex_eq (all.trans_le fits) point inRange, all]
        at outside
      omega
  | nextLoop | finish | issue | endRange | stampBegin | stampEnd | wake =>
      exact running

theorem ConsumerMove.not_panicked (slots : Slots state)
    (running : state.panicked = false) {consumerId : Fin cntConsumer}
    (move : ConsumerMove state consumerId next) :
    next.panicked = false := by
  cases move with
  | storePanics point outside =>
      have bounds := slots.slot_bounds consumerId
        (by simp [Consumer.Numbered, point])
      have most := state.numbered_le
      have slot : (state.consumer consumerId).slot =
          (state.consumer consumerId).consumerIdx := by
        simp [Consumer.slot, point]
      omega
  | addReady | stamp | count | store => exact running

theorem Rendezvous.panicked_eq {actor : Actor cntProducer cntConsumer}
    (move : Rendezvous state actor next) :
    next.panicked = state.panicked := by
  cases move <;> rfl

/-- Nothing panics while the number of blocks and the consumers' numbers fit
their types. -/
theorem not_panicked_step
    (fits : config.loop * config.cntPerLoop ≤ limit.blocks)
    (traffic : Traffic config state) (slots : Slots state)
    (running : state.panicked = false)
    {action : Action cntProducer cntConsumer}
    (taken : ThreadTransChannel.step limit config state action = some next) :
    next.panicked = false := by
  have trafficNow : Traffic config { state with clock := action.time } :=
    traffic.congr rfl rfl rfl
  have slotsNow : Slots { state with clock := action.time } :=
    slots.congr rfl rfl rfl
  have now : State.panicked { state with clock := action.time } = false :=
    running
  obtain ⟨_, move⟩ := step_cases taken
  cases move with
  | main move => exact move.not_panicked fits now
  | producer move => exact move.not_panicked fits trafficNow now
  | consumer move => exact move.not_panicked slotsNow now
  | rendezvous move => exact move.panicked_eq.trans running

end Panics

/-- The invariants that hold while the consumers' numbers fit an `int32` and
nils find receivers. -/
structure Progress (state : State cntProducer cntConsumer) : Prop where
  running : state.panicked = false
  waits : WaitsForLast state
  counts : state.CountsAll
  signalled : AllSignalled state

theorem progress_of_reachableUnder (someProducer : 0 < cntProducer)
    (someConsumer : 0 < cntConsumer)
    (fits : config.loop * config.cntPerLoop ≤ limit.blocks)
    (few : cntConsumer < 2 ^ 31)
    (reachable : (benchmarkWr limit config cntProducer
      cntConsumer).ReachableUnder NilsFindReceivers state) :
    Progress state := by
  apply reachable.invariant
  · rintro _ ⟨clock, rfl⟩
    refine ⟨rfl, ?_, countsAll_start clock, ?_⟩
    · intro _ consumerId signalled
      exact signalled.elim
    · intro sending
      exact sending.elim
  · intro earlier action next earlierReachable allowed taken progress
    have invariant := invariant_of_reachable someProducer someConsumer
      earlierReachable.reachable
    have slots := slots_of_reachable someProducer someConsumer few.le
      earlierReachable.reachable
    constructor
    · exact not_panicked_step fits invariant.traffic slots progress.running
        taken
    · exact waitsForLast_step invariant.phases slots few progress.waits taken
    · exact countsAll_step invariant.phases progress.counts taken
    · exact allSignalled_step invariant.phases progress.signalled allowed
        taken

/-- While the invariants hold, main has reached its report or some goroutine
can take a step. -/
theorem Progress.report_or_canStep (progress : Progress state)
    (phases : Phases limit config state) (slots : Slots state)
    (someConsumer : 0 < cntConsumer) :
    state.main = .report ∨ CanStep limit config state := by
  obtain ⟨running, waits, counts, signalled⟩ := progress
  by_cases canStep : CanStep limit config state
  · exact Or.inr canStep
  · left
    rcases main_of_stuck running canStep with
      atReady | joining | ⟨i, _, _, inside, sends⟩ | atReport
    · exact absurd atReady (not_ready_of_stuck running canStep phases slots
        waits someConsumer)
    · exact absurd joining (not_joining_of_stuck running canStep phases
        counts someConsumer)
    · exact absurd sends (not_sendingNils_of_stuck running canStep phases
        signalled inside)
    · exact atReport

/-- In a run in which the nils find receivers, main reaches its report or some
goroutine can take a step. -/
theorem noStuckState (someProducer : 0 < cntProducer)
    (someConsumer : 0 < cntConsumer)
    (fits : config.loop * config.cntPerLoop ≤ limit.blocks)
    (few : cntConsumer < 2 ^ 31)
    (reachable : (benchmarkWr limit config cntProducer
      cntConsumer).ReachableUnder NilsFindReceivers state) :
    state.main = .report ∨ CanStep limit config state := by
  have invariant := invariant_of_reachable someProducer someConsumer
    reachable.reachable
  have slots := slots_of_reachable someProducer someConsumer few.le
    reachable.reachable
  exact (progress_of_reachableUnder someProducer someConsumer fits few
    reachable).report_or_canStep invariant.phases slots someConsumer

theorem noStuckState_pair :
    ∃ state : State 2 2,
      (benchmarkWr amd64Limit pairConfig 2 2).ReachableUnder
          NilsFindReceivers state ∧
        state.main = .sendNil 0 2 0 ∧ CanStep amd64Limit pairConfig state := by
  have initial : (benchmarkWr amd64Limit pairConfig 2 2).initial
      (start 2 2 0) := ⟨0, rfl⟩
  have reachable :=
    (TransitionSystem.ReachableUnder.of_initial initial).executeUnder
      (show (benchmarkWr amd64Limit pairConfig 2 2).executeUnder
        NilsFindReceivers (start 2 2 0) (pairDelivery 0 1 0 1 ++
          atTime 4 (finishLoop 0 ++ finishLoop 1 ++
            [.producerSignal 1, .producerSignal 0])) = some _ from rfl)
  have progress := noStuckState (by decide) (by decide) (by decide)
    (by norm_num) reachable
  rcases progress with atReport | canStep
  · cases atReport
  · exact ⟨_, reachable, rfl, canStep⟩

/-- Main waits to send a nil while every consumer waits to send to main or has
completed. -/
theorem not_canStep_of_waiting
    {i cntProducerComplete cntConsumerComplete : Nat} (inside : i < cntConsumer)
    (main : state.main = .sendNil i cntProducerComplete cntConsumerComplete)
    (producers : ∀ producerId, state.producer producerId = .complete)
    (consumers : ∀ consumerId, (state.consumer consumerId).point = .ready ∨
      (state.consumer consumerId).point = .signal ∨
      (state.consumer consumerId).point = .complete) :
    ¬CanStep limit config state := by
  rintro ⟨⟨actor, time⟩, next, taken⟩
  have waiting : ∀ consumerId,
      (state.consumer consumerId).point ≠ .receive := by
    intro consumerId point
    have stopped := consumers consumerId
    simp [point] at stopped
  have receives : ∀ tmp,
      receiveSignal cntProducer cntConsumer state.main tmp = none := by
    intro tmp
    rw [main]
    rfl
  change step limit config state ⟨actor, time⟩ = some next at taken
  unfold step at taken
  split at taken
  · cases actor with
    | main =>
        simp only [mainStep, main, inside, if_true] at taken
        cases taken
    | producer producerId =>
        simp only [producerStep, producers] at taken
        cases taken
    | consumer consumerId =>
        rcases consumers consumerId with point | point | point
        all_goals
          simp only [consumerStep, point] at taken
          cases taken
    | producerSignal producerId =>
        simp only [producerSignalStep, producers, reduceCtorEq, if_false]
          at taken
    | consumerSignal consumerId =>
        simp only [consumerSignalStep, receives, Option.map_none] at taken
        cases offered : (state.consumer consumerId).signal <;>
          simp [offered] at taken
    | block producerId consumerId =>
        simp only [blockStep, producers] at taken
        cases taken
    | nil consumerId =>
        simp only [nilStep, main, waiting, and_false, if_false] at taken
        cases taken
  · cases taken

/-- The fast consumer, with number 2, receives the block and the first nil.
The slow one is still at its ready send when main has its second nil to
send. -/
def stuckRun (writer : Fin 1) (slow fast : Fin 2) : List (Action 1 2) :=
  [.main, .main, .main, .main, .consumer slow, .consumer fast,
    .consumerSignal fast, .main, .main, .producer writer, .producer writer,
    .producer writer, .block writer fast, .producer writer, .producer writer,
    .producer writer, .producer writer, .consumer fast, .consumer fast,
    .producerSignal writer, .nil fast, .consumer fast].map (⟨·, 0⟩)

/-- Main waits for a receiver of its nil and both consumers wait for main. -/
theorem stuck_at_second_nil :
    ∃ state : State 1 2,
      (benchmarkWr amd64Limit singleConfig 1 2).Reachable state ∧
      state.main ≠ .report ∧ ¬CanStep amd64Limit singleConfig state := by
  have initial : (benchmarkWr amd64Limit singleConfig 1 2).initial
      (start 1 2 0) := ⟨0, rfl⟩
  have reachable := (TransitionSystem.Reachable.of_initial initial).execute
    (show (benchmarkWr amd64Limit singleConfig 1 2).execute (start 1 2 0)
      (stuckRun 0 0 1) = some _ from rfl)
  have inside : 1 < 2 := by decide
  have notReport : MainPoint.sendNil 1 1 0 ≠ .report := by decide
  exact ⟨_, reachable, notReport,
    not_canStep_of_waiting inside rfl (by decide) (by decide)⟩

end ThreadTransChannel

end LatencyBenchmark
