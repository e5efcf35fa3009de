import LatencyBenchmark.ThreadTransChannel

/-!
# What one step of the Go channel benchmark does

The step functions of `ThreadTransChannel` are inverted once: into one move
for each branch a goroutine takes on its own, and one rendezvous for each kind
of value passed on a channel.
-/

namespace LatencyBenchmark

namespace ThreadTransChannel

variable {cntProducer cntConsumer : Nat} {limit : MakeLimit}
variable {config : ThreadTransConfig}
variable {state next : State cntProducer cntConsumer}

/-- The branches of `mainStep`. -/
inductive MainMove (limit : MakeLimit) (config : ThreadTransConfig)
    (state : State cntProducer cntConsumer) :
    State cntProducer cntConsumer → Prop
  | make (point : state.main = .make) (fits : cnt config ≤ limit.blocks) :
      MainMove limit config state { state with main := .startConsumers 0 }
  | makePanics (point : state.main = .make)
      (tooLong : ¬cnt config ≤ limit.blocks) :
      MainMove limit config state { state with panicked := true }
  | startConsumer {i : Nat} (point : state.main = .startConsumers i)
      (inside : i < cntConsumer) :
      MainMove limit config state
        { state.setConsumer ⟨i, inside⟩
            { state.consumer ⟨i, inside⟩ with point := .addReady } with
          main := .startConsumers (i + 1) }
  | startedConsumers {i : Nat} (point : state.main = .startConsumers i)
      (done : ¬i < cntConsumer) :
      MainMove limit config state { state with main := .ready }
  | startProducer {i : Nat} (point : state.main = .startProducers i)
      (inside : i < cntProducer) :
      MainMove limit config state
        { state.moveProducer ⟨i, inside⟩ (.loop 0) with
          main := .startProducers (i + 1) }
  | startedProducers {i : Nat} (point : state.main = .startProducers i)
      (done : ¬i < cntProducer) :
      MainMove limit config state { state with main := .join 0 0 }
  | sentNils {i cntProducerComplete cntConsumerComplete : Nat}
      (point : state.main =
        .sendNil i cntProducerComplete cntConsumerComplete)
      (done : ¬i < cntConsumer) :
      MainMove limit config state
        { state with main := .join cntProducerComplete cntConsumerComplete }

theorem MainMove.of_mainStep (taken : mainStep limit config state = some next) :
    MainMove limit config state next := by
  unfold mainStep at taken
  cases point : state.main with
  | make =>
      simp only [point] at taken
      split at taken
      · next fits =>
          cases taken
          exact .make point fits
      · next tooLong =>
          cases taken
          have move := MainMove.makePanics point tooLong
          rwa [point] at move
  | startConsumers i =>
      simp only [point] at taken
      split at taken
      · next inside =>
          cases taken
          exact .startConsumer point inside
      · next done =>
          cases taken
          exact .startedConsumers point done
  | startProducers i =>
      simp only [point] at taken
      split at taken
      · next inside =>
          cases taken
          exact .startProducer point inside
      · next done =>
          cases taken
          exact .startedProducers point done
  | sendNil i cntProducerComplete cntConsumerComplete =>
      simp only [point] at taken
      split at taken
      · cases taken
      · next done =>
          cases taken
          exact .sentNils point done
  | ready | join _ _ | report =>
      simp only [point] at taken
      cases taken

/-- The branches of `producerStep`. -/
inductive ProducerMove (config : ThreadTransConfig)
    (state : State cntProducer cntConsumer)
    (producerId : Fin cntProducer) : State cntProducer cntConsumer → Prop
  | nextLoop {i : Nat} (point : state.producer producerId = .loop i)
      (inLoop : i < config.loop) :
      ProducerMove config state producerId
        (state.moveProducer producerId
          (.inner i (startIdx config cntProducer producerId)))
  | finish {i : Nat} (point : state.producer producerId = .loop i)
      (loopEnds : ¬i < config.loop) :
      ProducerMove config state producerId
        (state.moveProducer producerId .signal)
  | issue {i j : Nat} (point : state.producer producerId = .inner i j)
      (inRange : j < endIdx config cntProducer producerId)
      (inside : blockIndex config i j < cnt config) :
      ProducerMove config state producerId
        { state.moveProducer producerId
            (.stampBegin i j (blockIndex config i j)) with
          blocks := Function.update state.blocks (blockIndex config i j)
            { state.blocks (blockIndex config i j) with
              idx := blockIndex config i j } }
  | issuePanics {i j : Nat} (point : state.producer producerId = .inner i j)
      (inRange : j < endIdx config cntProducer producerId)
      (outside : ¬blockIndex config i j < cnt config) :
      ProducerMove config state producerId { state with panicked := true }
  | endRange {i j : Nat} (point : state.producer producerId = .inner i j)
      (rangeEnds : ¬j < endIdx config cntProducer producerId) :
      ProducerMove config state producerId
        (state.moveProducer producerId (.sleep i))
  | stampBegin {i j idx : Nat}
      (point : state.producer producerId = .stampBegin i j idx) :
      ProducerMove config state producerId
        ((state.stampBlock idx 0).moveProducer producerId (.send i j idx))
  | stampEnd {i j idx : Nat}
      (point : state.producer producerId = .stampEnd i j idx) :
      ProducerMove config state producerId
        ((state.stampBlock idx 1).moveProducer producerId
          (.inner i (j + 1)))
  | wake {i : Nat} (point : state.producer producerId = .sleep i) :
      ProducerMove config state producerId
        (state.moveProducer producerId (.loop (i + 1)))

theorem ProducerMove.of_producerStep {producerId : Fin cntProducer}
    (taken : producerStep config state producerId = some next) :
    ProducerMove config state producerId next := by
  unfold producerStep at taken
  cases point : state.producer producerId with
  | loop i =>
      simp only [point] at taken
      split at taken
      · next inLoop =>
          cases taken
          exact .nextLoop point inLoop
      · next loopEnds =>
          cases taken
          exact .finish point loopEnds
  | inner i j =>
      simp only [point] at taken
      split at taken
      · next inRange =>
          split at taken
          · next inside =>
              cases taken
              exact .issue point inRange inside
          · next outside =>
              cases taken
              exact .issuePanics point inRange outside
      · next rangeEnds =>
          cases taken
          exact .endRange point rangeEnds
  | stampBegin i j idx =>
      simp only [point] at taken
      cases taken
      exact .stampBegin point
  | stampEnd i j idx =>
      simp only [point] at taken
      cases taken
      exact .stampEnd point
  | sleep i =>
      simp only [point] at taken
      cases taken
      exact .wake point
  | notStarted | send _ _ _ | signal | complete =>
      simp only [point] at taken
      cases taken

/-- The branches of `consumerStep`. -/
inductive ConsumerMove (state : State cntProducer cntConsumer)
    (consumerId : Fin cntConsumer) : State cntProducer cntConsumer → Prop
  | addReady (point : (state.consumer consumerId).point = .addReady) :
      ConsumerMove state consumerId
        { state.setConsumer consumerId
            { state.consumer consumerId with
              point := .ready
              consumerIdx := toInt32 (state.consumerReady + 1) } with
          consumerReady := toInt32 (state.consumerReady + 1) }
  | stamp {block : Nat}
      (point : (state.consumer consumerId).point = .stamp block) :
      ConsumerMove state consumerId
        ((state.stampBlock block 2).setConsumer consumerId
          { state.consumer consumerId with point := .count })
  | count (point : (state.consumer consumerId).point = .count) :
      ConsumerMove state consumerId
        (state.setConsumer consumerId
          { state.consumer consumerId with
            point := .receive
            idx := ((state.consumer consumerId).idx + 1) % 2 ^ 64 })
  | store (point : (state.consumer consumerId).point = .store)
      (inside : (state.consumer consumerId).consumerIdx.toNat <
          cntConsumer ∧
        0 ≤ (state.consumer consumerId).consumerIdx) :
      ConsumerMove state consumerId
        { state.setConsumer consumerId
            { state.consumer consumerId with point := .signal } with
          consumerReadNum := Function.update state.consumerReadNum
            ⟨(state.consumer consumerId).consumerIdx.toNat, inside.1⟩
            (state.consumer consumerId).idx }
  | storePanics (point : (state.consumer consumerId).point = .store)
      (outside : ¬((state.consumer consumerId).consumerIdx.toNat <
          cntConsumer ∧
        0 ≤ (state.consumer consumerId).consumerIdx)) :
      ConsumerMove state consumerId { state with panicked := true }

theorem ConsumerMove.of_consumerStep {consumerId : Fin cntConsumer}
    (taken : consumerStep state consumerId = some next) :
    ConsumerMove state consumerId next := by
  unfold consumerStep at taken
  cases point : (state.consumer consumerId).point with
  | addReady =>
      simp only [point] at taken
      cases taken
      exact .addReady point
  | stamp block =>
      simp only [point] at taken
      cases taken
      exact .stamp point
  | count =>
      simp only [point] at taken
      cases taken
      exact .count point
  | store =>
      simp only [point] at taken
      split at taken
      · next inside =>
          cases taken
          exact .store point inside
      · next outside =>
          cases taken
          exact .storePanics point outside
  | notStarted | ready | receive | signal | complete =>
      simp only [point] at taken
      cases taken

/-- The branches of `receiveSignal`. -/
inductive Received (cntProducer cntConsumer : Nat) (tmp : Int) :
    MainPoint → MainPoint → Prop
  | lastReady (last : tmp = cntConsumer) :
      Received cntProducer cntConsumer tmp .ready (.startProducers 0)
  | ready (notLast : tmp ≠ cntConsumer) :
      Received cntProducer cntConsumer tmp .ready .ready
  | lastProducer {cntProducerComplete cntConsumerComplete : Nat}
      (one : tmp = 1) (last : cntProducerComplete + 1 = cntProducer) :
      Received cntProducer cntConsumer tmp
        (.join cntProducerComplete cntConsumerComplete)
        (.sendNil 0 (cntProducerComplete + 1) cntConsumerComplete)
  | producer {cntProducerComplete cntConsumerComplete : Nat}
      (one : tmp = 1) (notLast : cntProducerComplete + 1 ≠ cntProducer) :
      Received cntProducer cntConsumer tmp
        (.join cntProducerComplete cntConsumerComplete)
        (.join (cntProducerComplete + 1) cntConsumerComplete)
  | lastConsumer {cntProducerComplete cntConsumerComplete : Nat}
      (two : tmp = 2) (last : cntConsumerComplete + 1 = cntConsumer) :
      Received cntProducer cntConsumer tmp
        (.join cntProducerComplete cntConsumerComplete) .report
  | consumer {cntProducerComplete cntConsumerComplete : Nat}
      (two : tmp = 2) (notLast : cntConsumerComplete + 1 ≠ cntConsumer) :
      Received cntProducer cntConsumer tmp
        (.join cntProducerComplete cntConsumerComplete)
        (.join cntProducerComplete (cntConsumerComplete + 1))
  | ignored {cntProducerComplete cntConsumerComplete : Nat}
      (notOne : tmp ≠ 1) (notTwo : tmp ≠ 2) :
      Received cntProducer cntConsumer tmp
        (.join cntProducerComplete cntConsumerComplete)
        (.join cntProducerComplete cntConsumerComplete)

theorem Received.of_receiveSignal {main after : MainPoint} {tmp : Int}
    (received : receiveSignal cntProducer cntConsumer main tmp =
      some after) : Received cntProducer cntConsumer tmp main after := by
  unfold receiveSignal at received
  cases main with
  | ready =>
      simp only at received
      split at received
      · next last =>
          cases received
          exact .lastReady last
      · next notLast =>
          cases received
          exact .ready notLast
  | join cntProducerComplete cntConsumerComplete =>
      simp only at received
      split at received
      · next one =>
          split at received
          · next last =>
              cases received
              exact .lastProducer one last
          · next notLast =>
              cases received
              exact .producer one notLast
      · next notOne =>
          split at received
          · next two =>
              split at received
              · next last =>
                  cases received
                  exact .lastConsumer two last
              · next notLast =>
                  cases received
                  exact .consumer two notLast
          · next notTwo =>
              cases received
              exact .ignored notOne notTwo
  | make | startConsumers _ | startProducers _ | sendNil _ _ _ | report =>
      cases received

/-- A value passed on one of the channels. -/
inductive Rendezvous (state : State cntProducer cntConsumer) :
    Actor cntProducer cntConsumer → State cntProducer cntConsumer → Prop
  | producerSignal {producerId : Fin cntProducer} {main : MainPoint}
      (sends : state.producer producerId = .signal)
      (receives : Received cntProducer cntConsumer 1 state.main main) :
      Rendezvous state (.producerSignal producerId)
        { state.moveProducer producerId .complete with main := main }
  | readySignal {consumerId : Fin cntConsumer} {main : MainPoint}
      (sends : (state.consumer consumerId).point = .ready)
      (receives : Received cntProducer cntConsumer
        (state.consumer consumerId).consumerIdx state.main main) :
      Rendezvous state (.consumerSignal consumerId)
        { state.setConsumer consumerId
            { state.consumer consumerId with
              point := .receive
              consumerIdx :=
                toInt32 ((state.consumer consumerId).consumerIdx - 1)
              idx := 0 } with
          main := main }
  | completeSignal {consumerId : Fin cntConsumer} {main : MainPoint}
      (sends : (state.consumer consumerId).point = .signal)
      (receives : Received cntProducer cntConsumer 2 state.main main) :
      Rendezvous state (.consumerSignal consumerId)
        { state.setConsumer consumerId
            { state.consumer consumerId with point := .complete } with
          main := main }
  | block {producerId : Fin cntProducer} {consumerId : Fin cntConsumer}
      {i j idx : Nat} (sends : state.producer producerId = .send i j idx)
      (receives : (state.consumer consumerId).point = .receive) :
      Rendezvous state (.block producerId consumerId)
        { (state.moveProducer producerId (.stampEnd i j idx)).setConsumer
            consumerId
            { state.consumer consumerId with
              point := .stamp idx
              received := idx :: (state.consumer consumerId).received } with
          sent := idx :: state.sent }
  | nil {consumerId : Fin cntConsumer}
      {i cntProducerComplete cntConsumerComplete : Nat}
      (sends : state.main =
        .sendNil i cntProducerComplete cntConsumerComplete)
      (inside : i < cntConsumer)
      (receives : (state.consumer consumerId).point = .receive) :
      Rendezvous state (.nil consumerId)
        { state.setConsumer consumerId
            { state.consumer consumerId with point := .store } with
          main := .sendNil (i + 1) cntProducerComplete cntConsumerComplete
          nilsSent := state.nilsSent + 1 }

theorem Rendezvous.of_producerSignalStep {producerId : Fin cntProducer}
    (taken : producerSignalStep state producerId = some next) :
    Rendezvous state (.producerSignal producerId) next := by
  unfold producerSignalStep at taken
  split at taken
  · next sends =>
      rw [Option.map_eq_some_iff] at taken
      obtain ⟨main, received, rfl⟩ := taken
      exact .producerSignal sends (.of_receiveSignal received)
  · cases taken

theorem Rendezvous.of_consumerSignalStep {consumerId : Fin cntConsumer}
    (taken : consumerSignalStep state consumerId = some next) :
    Rendezvous state (.consumerSignal consumerId) next := by
  unfold consumerSignalStep at taken
  rw [Option.bind_eq_some_iff] at taken
  obtain ⟨offered, offers, taken⟩ := taken
  rw [Option.map_eq_some_iff] at taken
  obtain ⟨main, received, rfl⟩ := taken
  unfold Consumer.signal at offers
  cases point : (state.consumer consumerId).point with
  | ready =>
      simp only [point] at offers
      cases offers
      exact .readySignal point (.of_receiveSignal received)
  | signal =>
      simp only [point] at offers
      cases offers
      exact .completeSignal point (.of_receiveSignal received)
  | notStarted | addReady | receive | stamp _ | count | store | complete =>
      simp only [point] at offers
      cases offers

theorem Rendezvous.of_blockStep {producerId : Fin cntProducer}
    {consumerId : Fin cntConsumer}
    (taken : blockStep state producerId consumerId = some next) :
    Rendezvous state (.block producerId consumerId) next := by
  unfold blockStep at taken
  cases point : state.producer producerId with
  | send i j idx =>
      simp only [point] at taken
      split at taken
      · next receives =>
          cases taken
          exact .block point receives
      · cases taken
  | _ =>
      simp only [point] at taken
      cases taken

theorem Rendezvous.of_nilStep {consumerId : Fin cntConsumer}
    (taken : nilStep state consumerId = some next) :
    Rendezvous state (.nil consumerId) next := by
  unfold nilStep at taken
  cases point : state.main with
  | sendNil i cntProducerComplete cntConsumerComplete =>
      simp only [point] at taken
      split at taken
      · next inside =>
          cases taken
          exact .nil point inside.1 inside.2
      · cases taken
  | _ =>
      simp only [point] at taken
      cases taken

/-- What a step can be, once the clock shows its time. -/
inductive Move (limit : MakeLimit) (config : ThreadTransConfig)
    (state : State cntProducer cntConsumer)
    (actor : Actor cntProducer cntConsumer)
    (next : State cntProducer cntConsumer) : Prop
  | main (move : MainMove limit config state next)
  | producer {producerId : Fin cntProducer}
      (move : ProducerMove config state producerId next)
  | consumer {consumerId : Fin cntConsumer}
      (move : ConsumerMove state consumerId next)
  | rendezvous (move : Rendezvous state actor next)

/-- A step is a move at the time of the action. -/
theorem step_cases {action : Action cntProducer cntConsumer}
    (taken : step limit config state action = some next) :
    state.clock ≤ action.time ∧
      Move limit config { state with clock := action.time } action.actor
        next := by
  unfold step at taken
  split at taken
  · next allowed =>
      constructor
      · exact allowed.1
      · dsimp only at taken
        cases actor : action.actor with
        | main =>
            rw [actor] at taken
            exact .main (.of_mainStep taken)
        | producer producerId =>
            rw [actor] at taken
            exact .producer (.of_producerStep taken)
        | consumer consumerId =>
            rw [actor] at taken
            exact .consumer (.of_consumerStep taken)
        | producerSignal producerId =>
            rw [actor] at taken
            exact .rendezvous (.of_producerSignalStep taken)
        | consumerSignal consumerId =>
            rw [actor] at taken
            exact .rendezvous (.of_consumerSignalStep taken)
        | block producerId consumerId =>
            rw [actor] at taken
            exact .rendezvous (.of_blockStep taken)
        | nil consumerId =>
            rw [actor] at taken
            exact .rendezvous (.of_nilStep taken)
  · cases taken

end ThreadTransChannel

end LatencyBenchmark
