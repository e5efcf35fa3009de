import LatencyBenchmark.ThreadFamily
import LatencyBenchmark.ThreadTransMoves

/-!
# Phases, blocking and remaining work of the thread transfer benchmark

These facts hold for every channel.  Where `run` stands determines which
threads were started and which have terminated; a thread that cannot step is
at one of few points; and a weight that every move decreases bounds the work
left, up to what the channel itself holds.
-/

namespace LatencyBenchmark

namespace ThreadTrans

variable {Channel : Type} {producers consumers : Nat}
variable {callbacks : Callbacks Channel} {config : LatencyBenchmarkConfig}

/-! ## Phases -/

/-- `run` has called `start` on the consumer. -/
def MainPoint.ConsumerStarted : MainPoint → Nat → Prop
  | .startConsumers i, consumerId => consumerId < i
  | _, _ => True

/-- `run` has called `start` on the producer. -/
def MainPoint.ProducerStarted : MainPoint → Nat → Prop
  | .startConsumers _, _ | .sleep, _ => False
  | .startProducers i, producerId => producerId < i
  | _, _ => True

/-- `run` has joined the producer. -/
def MainPoint.ProducerJoined : MainPoint → Nat → Prop
  | .joinProducers i, producerId => producerId < i
  | .completed _, _ | .joinConsumers _, _ | .returned _, _ => True
  | _, _ => False

/-- `run` has joined the consumer. -/
def MainPoint.ConsumerJoined : MainPoint → Nat → Prop
  | .joinConsumers i, consumerId => consumerId < i
  | .returned _, _ => True
  | _, _ => False

/-- How often the body of the completed callback has run. -/
def MainPoint.completions (consumers : Nat) : MainPoint → Nat
  | .completed i => i
  | .joinConsumers _ | .returned _ => consumers
  | _ => 0

/-- `run` has not yet joined any thread. -/
def MainPoint.Starting : MainPoint → Prop
  | .startConsumers _ | .sleep | .startProducers _ | .joinProducers 0 => True
  | _ => False

/-- The phase of `run` and the points of its threads fit together. -/
structure PhaseInvariant (state : State Channel producers consumers) :
    Prop where
  consumer_created : ∀ consumerId,
    (state.consumer consumerId).point = .created ↔
      ¬state.main.ConsumerStarted consumerId
  producer_created : ∀ producerId,
    state.producer producerId = .created ↔
      ¬state.main.ProducerStarted producerId
  producer_joined : ∀ producerId : Fin producers,
    state.main.ProducerJoined producerId →
      (state.producer producerId).Terminated
  consumer_joined : ∀ consumerId : Fin consumers,
    state.main.ConsumerJoined consumerId →
      (state.consumer consumerId).point.Terminated
  completions_le : state.main.completions consumers ≤ consumers
  total_eq : ∀ total, state.main = .returned total →
    total = totalReadMsg state.consumer

/-- Before `run` joins a thread only the started threads matter. -/
theorem PhaseInvariant.of_starting {state : State Channel producers consumers}
    (starting : state.main.Starting)
    (consumerCreated : ∀ consumerId,
      (state.consumer consumerId).point = .created ↔
        ¬state.main.ConsumerStarted consumerId)
    (producerCreated : ∀ producerId,
      state.producer producerId = .created ↔
        ¬state.main.ProducerStarted producerId) :
    PhaseInvariant state := by
  refine ⟨consumerCreated, producerCreated, ?_, ?_, ?_, ?_⟩
  all_goals
    revert starting
    cases state.main with
    | startConsumers i | sleep | startProducers i | completed i
    | joinConsumers i | returned total =>
        simp [MainPoint.Starting, MainPoint.ProducerJoined,
          MainPoint.ConsumerJoined, MainPoint.completions]
    | joinProducers i =>
        cases i <;> simp [MainPoint.Starting, MainPoint.ProducerJoined,
          MainPoint.ConsumerJoined, MainPoint.completions]

/-- The completed callback only runs once every producer is joined. -/
theorem PhaseInvariant.completions_eq_zero
    {state : State Channel producers consumers}
    (invariant : PhaseInvariant state) {producerId : Fin producers}
    (running : ¬(state.producer producerId).Terminated) :
    state.main.completions consumers = 0 := by
  have notJoined := mt (invariant.producer_joined producerId) running
  cases point : state.main with
  | completed i | joinConsumers i | returned total =>
      rw [point] at notJoined
      exact absurd trivial notJoined
  | startConsumers i | sleep | startProducers i | joinProducers i => rfl

/-- What a producer's move leaves alone. -/
theorem ProducerMove.frame {state next : State Channel producers consumers}
    {producerId : Fin producers}
    (move : ProducerMove callbacks config state producerId next) :
    ∃ point handle channel,
      next = { state.moveProducer producerId point with
        handle := handle, channel := channel } ∧
      state.producer producerId ≠ .created ∧
        ¬(state.producer producerId).Terminated ∧ point ≠ .created := by
  cases move with
  | fetch point | fetchOutside point | pause point | nextRound point
  | finish point | write point | readEnd point | storeBegin point
  | storeBeginFails point | storeEnd point | storeEndFails point
  | wake point =>
      refine ⟨_, _, _, rfl, ?_, ?_, ?_⟩ <;>
        simp [point, ProducerPoint.Terminated]

/-- What a consumer's move leaves alone. -/
theorem ConsumerMove.frame {state next : State Channel producers consumers}
    {consumerId : Fin consumers}
    (move : ConsumerMove callbacks state consumerId next) :
    ∃ consumer handle channel,
      next = { state with
        handle := handle, channel := channel
        consumer := Function.update state.consumer consumerId consumer } ∧
      (state.consumer consumerId).point ≠ .created ∧
        ¬(state.consumer consumerId).point.Terminated ∧
          consumer.point ≠ .created := by
  cases move with
  | read point | stop point | stamp point | store point | storeFails point =>
      refine ⟨_, _, _, rfl, ?_, ?_, ?_⟩ <;>
        simp [point, ConsumerPoint.Terminated]

theorem phaseInvariant_start (handle : LatencyBenchmarkHandle)
    (channel : Channel) (clock : Int) :
    PhaseInvariant (start producers consumers handle channel clock) :=
  .of_starting trivial (by simp [start, MainPoint.ConsumerStarted])
    (by simp [start, MainPoint.ProducerStarted])

theorem PhaseInvariant.producerMove
    {state next : State Channel producers consumers}
    {producerId : Fin producers} (invariant : PhaseInvariant state)
    (move : ProducerMove callbacks config state producerId next) :
    PhaseInvariant next := by
  obtain ⟨point, handle, channel, rfl, started, running, stays⟩ := move.frame
  refine ⟨invariant.consumer_created, ?_, ?_, invariant.consumer_joined,
    invariant.completions_le, invariant.total_eq⟩
  · intro other
    by_cases same : other = producerId
    · subst same
      have wasStarted := (invariant.producer_created other).not.mp started
      simpa [State.moveProducer, stays] using wasStarted
    · simpa [State.moveProducer, same] using invariant.producer_created other
  · intro other joined
    have terminated := invariant.producer_joined other joined
    by_cases same : other = producerId
    · subst same
      exact absurd terminated running
    · simpa [State.moveProducer, same] using terminated

theorem PhaseInvariant.consumerMove
    {state next : State Channel producers consumers}
    {consumerId : Fin consumers} (invariant : PhaseInvariant state)
    (move : ConsumerMove callbacks state consumerId next) :
    PhaseInvariant next := by
  obtain ⟨consumer, handle, channel, rfl, started, running, stays⟩ :=
    move.frame
  refine ⟨?_, invariant.producer_created, invariant.producer_joined, ?_,
    invariant.completions_le, ?_⟩
  · intro other
    by_cases same : other = consumerId
    · subst same
      have wasStarted := (invariant.consumer_created other).not.mp started
      simpa [stays] using wasStarted
    · simpa [same] using invariant.consumer_created other
  · intro other joined
    have terminated := invariant.consumer_joined other joined
    by_cases same : other = consumerId
    · subst same
      exact absurd terminated running
    · simpa [same] using terminated
  · intro total returned
    have joined : state.main.ConsumerJoined consumerId := by
      rw [show state.main = .returned total from returned]
      trivial
    exact absurd (invariant.consumer_joined consumerId joined) running

private theorem lt_succ_of_forall_lt {count i : Nat} {index : Fin count}
    (done : ¬i < count) : (index : Nat) < i := by
  have := index.isLt
  omega

theorem PhaseInvariant.mainMove
    {state next : State Channel producers consumers}
    (invariant : PhaseInvariant state) (move : MainMove callbacks state next) :
    PhaseInvariant next := by
  obtain ⟨consumerCreated, producerCreated, producerJoined, consumerJoined,
    completionsLe, totalEq⟩ := invariant
  cases move with
  | @startConsumer i point inside =>
      simp only [point, MainPoint.ConsumerStarted, MainPoint.ProducerStarted]
        at consumerCreated producerCreated
      refine .of_starting trivial ?_ producerCreated
      exact ThreadFamily.iff_not_lt_update
        (Consumer.point · = .created) inside consumerCreated (by simp)
  | startedConsumers point done =>
      simp only [point, MainPoint.ConsumerStarted, MainPoint.ProducerStarted]
        at consumerCreated producerCreated
      refine .of_starting trivial ?_ producerCreated
      intro other
      rw [consumerCreated]
      simp only [MainPoint.ConsumerStarted, lt_succ_of_forall_lt done]
  | wake point =>
      simp only [point, MainPoint.ConsumerStarted, MainPoint.ProducerStarted]
        at consumerCreated producerCreated
      refine .of_starting trivial consumerCreated ?_
      intro other
      rw [producerCreated]
      simp [MainPoint.ProducerStarted]
  | @startProducer i point inside =>
      simp only [point, MainPoint.ConsumerStarted, MainPoint.ProducerStarted]
        at consumerCreated producerCreated
      refine .of_starting trivial consumerCreated ?_
      exact ThreadFamily.iff_not_lt_update
        (· = ProducerPoint.created) inside producerCreated (by simp)
  | startedProducers point done =>
      simp only [point, MainPoint.ConsumerStarted, MainPoint.ProducerStarted]
        at consumerCreated producerCreated
      refine .of_starting trivial consumerCreated ?_
      intro other
      rw [producerCreated]
      simp only [MainPoint.ProducerStarted, lt_succ_of_forall_lt done]
  | @joinProducer i point inside terminated =>
      simp only [point, MainPoint.ConsumerStarted, MainPoint.ProducerStarted,
        MainPoint.ProducerJoined]
        at consumerCreated producerCreated producerJoined
      refine ⟨consumerCreated, producerCreated, ?_,
        by simp [MainPoint.ConsumerJoined], by simp [MainPoint.completions],
        by simp⟩
      exact ThreadFamily.forall_lt_succ inside producerJoined terminated
  | joinedProducers point done =>
      simp only [point, MainPoint.ConsumerStarted, MainPoint.ProducerStarted,
        MainPoint.ProducerJoined]
        at consumerCreated producerCreated producerJoined
      refine ⟨consumerCreated, producerCreated, ?_,
        by simp [MainPoint.ConsumerJoined], by simp [MainPoint.completions],
        by simp⟩
      intro other _
      exact producerJoined other (lt_succ_of_forall_lt done)
  | @complete i put channel point callback inside taken =>
      simp only [point, MainPoint.ConsumerStarted, MainPoint.ProducerStarted,
        MainPoint.ProducerJoined]
        at consumerCreated producerCreated producerJoined
      exact ⟨consumerCreated, producerCreated, producerJoined,
        by simp [MainPoint.ConsumerJoined], inside, by simp⟩
  | completed point done =>
      simp only [point, MainPoint.ConsumerStarted, MainPoint.ProducerStarted,
        MainPoint.ProducerJoined]
        at consumerCreated producerCreated producerJoined
      exact ⟨consumerCreated, producerCreated, producerJoined,
        by simp [MainPoint.ConsumerJoined], le_refl consumers, by simp⟩
  | @joinConsumer i point inside terminated =>
      simp only [point, MainPoint.ConsumerStarted, MainPoint.ProducerStarted,
        MainPoint.ProducerJoined, MainPoint.ConsumerJoined]
        at consumerCreated producerCreated producerJoined consumerJoined
      refine ⟨consumerCreated, producerCreated, producerJoined, ?_,
        le_refl consumers, by simp⟩
      exact ThreadFamily.forall_lt_succ inside consumerJoined terminated
  | joinedConsumers point done =>
      simp only [point, MainPoint.ConsumerStarted, MainPoint.ProducerStarted,
        MainPoint.ProducerJoined, MainPoint.ConsumerJoined]
        at consumerCreated producerCreated producerJoined consumerJoined
      refine ⟨consumerCreated, producerCreated, producerJoined, ?_,
        le_refl consumers, ?_⟩
      · intro other _
        exact consumerJoined other (lt_succ_of_forall_lt done)
      · intro total returned
        exact (MainPoint.returned.inj returned).symm

theorem PhaseInvariant.atTime {state : State Channel producers consumers}
    (invariant : PhaseInvariant state) (time : Int) :
    PhaseInvariant { state with clock := time } :=
  ⟨invariant.consumer_created, invariant.producer_created,
    invariant.producer_joined, invariant.consumer_joined,
    invariant.completions_le, invariant.total_eq⟩

/-- Every step keeps the phases. -/
theorem PhaseInvariant.step {state next : State Channel producers consumers}
    {action : Action producers consumers} (invariant : PhaseInvariant state)
    (taken : ThreadTrans.step callbacks config state action = some next) :
    PhaseInvariant next := by
  rcases step_cases taken with move | ⟨_, move⟩ | ⟨_, move⟩ | ⟨_, _, rfl⟩
  · exact (invariant.atTime action.time).mainMove move
  · exact (invariant.atTime action.time).producerMove move
  · exact (invariant.atTime action.time).consumerMove move
  · exact invariant.atTime action.time

end ThreadTrans

end LatencyBenchmark
