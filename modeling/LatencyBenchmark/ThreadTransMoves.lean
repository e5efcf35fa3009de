import LatencyBenchmark.ThreadTrans

/-!
# What one step of the thread transfer benchmark does

The step functions of `ThreadTrans` are inverted once, into one move for each
branch a thread can take.  Later proofs split on the moves and never unfold
the step functions.
-/

namespace LatencyBenchmark

namespace ThreadTrans

variable {Channel : Type} {producers consumers : Nat}

/-- The branches of `mainStep`. -/
inductive MainMove (callbacks : Callbacks Channel)
    (state : State Channel producers consumers) :
    State Channel producers consumers → Prop
  | startConsumer {i : Nat} (point : state.main = .startConsumers i)
      (inside : i < consumers) :
      MainMove callbacks state
        { state.moveConsumer ⟨i, inside⟩ .read with
          main := .startConsumers (i + 1) }
  | startedConsumers {i : Nat} (point : state.main = .startConsumers i)
      (done : ¬i < consumers) :
      MainMove callbacks state { state with main := .sleep }
  | wake (point : state.main = .sleep) :
      MainMove callbacks state { state with main := .startProducers 0 }
  | startProducer {i : Nat} (point : state.main = .startProducers i)
      (inside : i < producers) :
      MainMove callbacks state
        { state.moveProducer ⟨i, inside⟩ (.round 0 0) with
          main := .startProducers (i + 1) }
  | startedProducers {i : Nat} (point : state.main = .startProducers i)
      (done : ¬i < producers) :
      MainMove callbacks state { state with main := .joinProducers 0 }
  | joinProducer {i : Nat} (point : state.main = .joinProducers i)
      (inside : i < producers)
      (terminated : (state.producer ⟨i, inside⟩).Terminated) :
      MainMove callbacks state { state with main := .joinProducers (i + 1) }
  | joinedProducers {i : Nat} (point : state.main = .joinProducers i)
      (done : ¬i < producers) :
      MainMove callbacks state { state with main := .completed 0 }
  | complete {i : Nat} {put : Channel → Option Channel} {channel : Channel}
      (point : state.main = .completed i)
      (callback : callbacks.completed = some put) (inside : i < consumers)
      (done : put state.channel = some channel) :
      MainMove callbacks state
        { state with channel := channel, main := .completed (i + 1) }
  | completed {i : Nat} (point : state.main = .completed i)
      (done : callbacks.completed = none ∨ ¬i < consumers) :
      MainMove callbacks state { state with main := .joinConsumers 0 }
  | joinConsumer {i : Nat} (point : state.main = .joinConsumers i)
      (inside : i < consumers)
      (terminated : (state.consumer ⟨i, inside⟩).point.Terminated) :
      MainMove callbacks state { state with main := .joinConsumers (i + 1) }
  | joinedConsumers {i : Nat} (point : state.main = .joinConsumers i)
      (done : ¬i < consumers) :
      MainMove callbacks state
        { state with main := .returned (totalReadMsg state.consumer) }

theorem MainMove.of_mainStep {callbacks : Callbacks Channel}
    {state next : State Channel producers consumers}
    (taken : mainStep callbacks state = some next) :
    MainMove callbacks state next := by
  unfold mainStep at taken
  cases point : state.main with
  | startConsumers i =>
      simp only [point] at taken
      split at taken
      · next inside =>
          cases taken
          exact .startConsumer point inside
      · next done =>
          cases taken
          exact .startedConsumers point done
  | sleep =>
      simp only [point] at taken
      cases taken
      exact .wake point
  | startProducers i =>
      simp only [point] at taken
      split at taken
      · next inside =>
          cases taken
          exact .startProducer point inside
      · next done =>
          cases taken
          exact .startedProducers point done
  | joinProducers i =>
      simp only [point] at taken
      split at taken
      · next inside =>
          split at taken
          · next terminated =>
              cases taken
              exact .joinProducer point inside terminated
          · cases taken
      · next done =>
          cases taken
          exact .joinedProducers point done
  | completed i =>
      simp only [point] at taken
      cases callback : callbacks.completed with
      | none =>
          simp only [callback] at taken
          cases taken
          exact .completed point (Or.inl callback)
      | some put =>
          simp only [callback] at taken
          split at taken
          · next inside =>
              rw [Option.map_eq_some_iff] at taken
              obtain ⟨channel, done, rfl⟩ := taken
              exact .complete point callback inside done
          · next done =>
              cases taken
              exact .completed point (Or.inr done)
  | joinConsumers i =>
      simp only [point] at taken
      split at taken
      · next inside =>
          split at taken
          · next terminated =>
              cases taken
              exact .joinConsumer point inside terminated
          · cases taken
      · next done =>
          cases taken
          exact .joinedConsumers point done
  | returned total =>
      simp only [point] at taken
      cases taken

/-- The branches of `producerStep`. -/
inductive ProducerMove (callbacks : Callbacks Channel)
    (config : LatencyBenchmarkConfig)
    (state : State Channel producers consumers)
    (producerId : Fin producers) : State Channel producers consumers → Prop
  | fetch {round i : Nat} (point : state.producer producerId = .round round i)
      (inRounds : round < config.totalRounds)
      (inRecords : i < config.recordPerRound)
      (inside : 0 ≤ messageId config producerId round i ∧
        messageId config producerId round i < state.handle.recordCount) :
      ProducerMove callbacks config state producerId
        (state.moveProducer producerId
          (.write round i (messageId config producerId round i) state.clock))
  | fetchOutside {round i : Nat}
      (point : state.producer producerId = .round round i)
      (inRounds : round < config.totalRounds)
      (inRecords : i < config.recordPerRound)
      (outside : ¬(0 ≤ messageId config producerId round i ∧
        messageId config producerId round i < state.handle.recordCount)) :
      ProducerMove callbacks config state producerId
        (state.moveProducer producerId (.died .arrayIndexOutOfBounds))
  | pause {round i : Nat} (point : state.producer producerId = .round round i)
      (inRounds : round < config.totalRounds)
      (roundEnds : ¬i < config.recordPerRound) :
      ProducerMove callbacks config state producerId
        (state.moveProducer producerId (.sleep round))
  | nextRound {round i : Nat}
      (point : state.producer producerId = .round round i)
      (inRounds : round < config.totalRounds)
      (roundEnds : ¬i < config.recordPerRound) :
      ProducerMove callbacks config state producerId
        (state.moveProducer producerId (.round (round + 1) 0))
  | finish {round i : Nat} (point : state.producer producerId = .round round i)
      (lastRound : ¬round < config.totalRounds) :
      ProducerMove callbacks config state producerId
        (state.moveProducer producerId .ended)
  | write {round i : Nat} {msg nanoTimeWriteBeg : Int} {channel : Channel}
      (point : state.producer producerId =
        .write round i msg nanoTimeWriteBeg)
      (written : callbacks.write state.channel msg = some channel) :
      ProducerMove callbacks config state producerId
        { state.moveProducer producerId
            (.written round i msg nanoTimeWriteBeg) with
          channel := channel }
  | readEnd {round i : Nat} {msg nanoTimeWriteBeg : Int}
      (point : state.producer producerId =
        .written round i msg nanoTimeWriteBeg) :
      ProducerMove callbacks config state producerId
        (state.moveProducer producerId
          (.storeBegin round i msg nanoTimeWriteBeg state.clock))
  | storeBegin {round i : Nat} {msg nanoTimeWriteBeg nanoTimeWriteEnd : Int}
      {handle : LatencyBenchmarkHandle}
      (point : state.producer producerId =
        .storeBegin round i msg nanoTimeWriteBeg nanoTimeWriteEnd)
      (stored : state.handle.storeRecord actionWriteBegin msg
        { action := actionWriteBegin, id := msg, nsec := nanoTimeWriteBeg } =
          .ok handle) :
      ProducerMove callbacks config state producerId
        { state.moveProducer producerId
            (.storeEnd round i msg nanoTimeWriteEnd) with
          handle := handle }
  | storeBeginFails {round i : Nat}
      {msg nanoTimeWriteBeg nanoTimeWriteEnd : Int}
      {exception : JavaException}
      (point : state.producer producerId =
        .storeBegin round i msg nanoTimeWriteBeg nanoTimeWriteEnd)
      (failed : state.handle.storeRecord actionWriteBegin msg
        { action := actionWriteBegin, id := msg, nsec := nanoTimeWriteBeg } =
          .error exception) :
      ProducerMove callbacks config state producerId
        (state.moveProducer producerId (.died exception))
  | storeEnd {round i : Nat} {msg nanoTimeWriteEnd : Int}
      {handle : LatencyBenchmarkHandle}
      (point : state.producer producerId =
        .storeEnd round i msg nanoTimeWriteEnd)
      (stored : state.handle.storeRecord actionWriteEnd msg
        { action := actionWriteEnd, id := msg, nsec := nanoTimeWriteEnd } =
          .ok handle) :
      ProducerMove callbacks config state producerId
        { state.moveProducer producerId (.round round (i + 1)) with
          handle := handle }
  | storeEndFails {round i : Nat} {msg nanoTimeWriteEnd : Int}
      {exception : JavaException}
      (point : state.producer producerId =
        .storeEnd round i msg nanoTimeWriteEnd)
      (failed : state.handle.storeRecord actionWriteEnd msg
        { action := actionWriteEnd, id := msg, nsec := nanoTimeWriteEnd } =
          .error exception) :
      ProducerMove callbacks config state producerId
        (state.moveProducer producerId (.died exception))
  | wake {round : Nat} (point : state.producer producerId = .sleep round) :
      ProducerMove callbacks config state producerId
        (state.moveProducer producerId (.round (round + 1) 0))

theorem ProducerMove.of_producerStep {callbacks : Callbacks Channel}
    {config : LatencyBenchmarkConfig}
    {state next : State Channel producers consumers}
    {producerId : Fin producers}
    (taken : producerStep callbacks config state producerId = some next) :
    ProducerMove callbacks config state producerId next := by
  unfold producerStep at taken
  cases point : state.producer producerId with
  | round round i =>
      simp only [point] at taken
      split at taken
      · next inRounds =>
          split at taken
          · next inRecords =>
              split at taken
              · next inside =>
                  cases taken
                  exact .fetch point inRounds inRecords inside
              · next outside =>
                  cases taken
                  exact .fetchOutside point inRounds inRecords outside
          · next roundEnds =>
              split at taken
              · cases taken
                exact .pause point inRounds roundEnds
              · cases taken
                exact .nextRound point inRounds roundEnds
      · next lastRound =>
          cases taken
          exact .finish point lastRound
  | write round i msg nanoTimeWriteBeg =>
      simp only [point, Option.map_eq_some_iff] at taken
      obtain ⟨channel, written, rfl⟩ := taken
      exact .write point written
  | written round i msg nanoTimeWriteBeg =>
      simp only [point] at taken
      cases taken
      exact .readEnd point
  | storeBegin round i msg nanoTimeWriteBeg nanoTimeWriteEnd =>
      simp only [point] at taken
      split at taken
      · next stored =>
          cases taken
          exact .storeBegin point stored
      · next failed =>
          cases taken
          exact .storeBeginFails point failed
  | storeEnd round i msg nanoTimeWriteEnd =>
      simp only [point] at taken
      split at taken
      · next stored =>
          cases taken
          exact .storeEnd point stored
      · next failed =>
          cases taken
          exact .storeEndFails point failed
  | sleep round =>
      simp only [point] at taken
      cases taken
      exact .wake point
  | created | ended | died exception =>
      simp only [point] at taken
      cases taken

/-- The branches of `consumerStep`. -/
inductive ConsumerMove (callbacks : Callbacks Channel)
    (state : State Channel producers consumers)
    (consumerId : Fin consumers) : State Channel producers consumers → Prop
  | read {msg : Int} {channel : Channel}
      (point : (state.consumer consumerId).point = .read)
      (received : callbacks.read state.channel = some (msg, channel)) :
      ConsumerMove callbacks state consumerId
        { state with
          channel := channel
          consumer := Function.update state.consumer consumerId
            { state.consumer consumerId with
              point := .received msg
              taken := msg :: (state.consumer consumerId).taken } }
  | stop (point : (state.consumer consumerId).point = .received (-1)) :
      ConsumerMove callbacks state consumerId
        (state.moveConsumer consumerId .ended)
  | stamp {msg : Int}
      (point : (state.consumer consumerId).point = .received msg)
      (normal : msg ≠ -1) :
      ConsumerMove callbacks state consumerId
        (state.moveConsumer consumerId (.store msg state.clock))
  | store {msg nanoTime : Int} {handle : LatencyBenchmarkHandle}
      (point : (state.consumer consumerId).point = .store msg nanoTime)
      (stored : state.handle.storeRecord actionRead msg
        { action := actionRead, id := msg, nsec := nanoTime } =
          .ok handle) :
      ConsumerMove callbacks state consumerId
        { state with
          handle := handle
          consumer := Function.update state.consumer consumerId
            { state.consumer consumerId with
              point := .read
              totalRead :=
                toInt32 ((state.consumer consumerId).totalRead + 1) } }
  | storeFails {msg nanoTime : Int} {exception : JavaException}
      (point : (state.consumer consumerId).point = .store msg nanoTime)
      (failed : state.handle.storeRecord actionRead msg
        { action := actionRead, id := msg, nsec := nanoTime } =
          .error exception) :
      ConsumerMove callbacks state consumerId
        (state.moveConsumer consumerId (.died exception))

theorem ConsumerMove.of_consumerStep {callbacks : Callbacks Channel}
    {state next : State Channel producers consumers}
    {consumerId : Fin consumers}
    (taken : consumerStep callbacks state consumerId = some next) :
    ConsumerMove callbacks state consumerId next := by
  unfold consumerStep at taken
  cases point : (state.consumer consumerId).point with
  | read =>
      simp only [point, Option.map_eq_some_iff] at taken
      obtain ⟨⟨msg, channel⟩, received, rfl⟩ := taken
      exact .read point received
  | received msg =>
      simp only [point] at taken
      split at taken
      · next poison =>
          cases taken
          exact .stop (poison ▸ point)
      · next normal =>
          cases taken
          exact .stamp point normal
  | store msg nanoTime =>
      simp only [point] at taken
      split at taken
      · next stored =>
          cases taken
          exact .store point stored
      · next failed =>
          cases taken
          exact .storeFails point failed
  | created | ended | died exception =>
      simp only [point] at taken
      cases taken

/-- A step happens no earlier than the last one and is a move of its actor at
the time of the action. -/
theorem step_cases_actor {callbacks : Callbacks Channel}
    {config : LatencyBenchmarkConfig}
    {state next : State Channel producers consumers}
    {action : Action producers consumers}
    (taken : step callbacks config state action = some next) :
    state.clock ≤ action.time ∧
      match action.actor with
      | .main => MainMove callbacks { state with clock := action.time } next
      | .producer producerId => ProducerMove callbacks config
          { state with clock := action.time } producerId next
      | .consumer consumerId => ConsumerMove callbacks
          { state with clock := action.time } consumerId next
      | .interrupt _ => next = { state with clock := action.time } := by
  unfold step at taken
  split at taken
  · next later =>
      refine ⟨later, ?_⟩
      dsimp only at taken
      cases actor : action.actor with
      | main =>
          rw [actor] at taken
          exact MainMove.of_mainStep taken
      | producer producerId =>
          rw [actor] at taken
          exact ProducerMove.of_producerStep taken
      | consumer consumerId =>
          rw [actor] at taken
          exact ConsumerMove.of_consumerStep taken
      | interrupt consumerId =>
          rw [actor] at taken
          unfold interruptStep at taken
          dsimp only at taken ⊢
          split at taken
          · cases taken
            rfl
          · cases taken
  · cases taken

/-- A step is a move of one thread at the time of the action. -/
theorem step_cases {callbacks : Callbacks Channel}
    {config : LatencyBenchmarkConfig}
    {state next : State Channel producers consumers}
    {action : Action producers consumers}
    (taken : step callbacks config state action = some next) :
    MainMove callbacks { state with clock := action.time } next ∨
      (∃ producerId, ProducerMove callbacks config
        { state with clock := action.time } producerId next) ∨
      (∃ consumerId, ConsumerMove callbacks
        { state with clock := action.time } consumerId next) ∨
      ∃ consumerId, action.actor = .interrupt consumerId ∧
        next = { state with clock := action.time } := by
  have moves := (step_cases_actor taken).2
  cases actor : action.actor with
  | main =>
      rw [actor] at moves
      exact Or.inl moves
  | producer producerId =>
      rw [actor] at moves
      exact Or.inr (Or.inl ⟨producerId, moves⟩)
  | consumer consumerId =>
      rw [actor] at moves
      exact Or.inr (Or.inr (Or.inl ⟨consumerId, moves⟩))
  | interrupt consumerId =>
      rw [actor] at moves
      exact Or.inr (Or.inr (Or.inr ⟨consumerId, rfl, moves⟩))

end ThreadTrans

end LatencyBenchmark
