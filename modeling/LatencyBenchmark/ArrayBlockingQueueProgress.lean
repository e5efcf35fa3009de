import LatencyBenchmark.ArrayBlockingQueueDelivery
import LatencyBenchmark.ThreadTransWork

/-!
# Progress of the ArrayBlockingQueue benchmark

Without interrupts no thread waits for ever.  A full queue has a consumer
that can take from it, because a consumer only leaves with a poison message
of its own; and every step uses up work that the configuration bounds.
-/

namespace LatencyBenchmark

namespace ArrayBlockingQueue

open ThreadTrans

variable {config : LatencyBenchmarkConfig} {state next : State config}

/-- The work left to the threads and in the queue. -/
def work (state : State config) : Nat :=
  state.work config 3 + 3 * state.channel.items.length

/-- Every step that delivers no interrupt uses up work. -/
theorem work_lt_of_step (phases : PhaseInvariant state)
    {action : Action config.producer.toNat config.consumer.toNat}
    (uninterrupted : Uninterrupted state action)
    (taken : (system config).step state action = some next) :
    work next < work state := by
  have grows : ∀ {queue later : BoundedQueue Int config.capacity.toNat}
      {msg : Int}, queue.put msg = some later →
        later.items.length = queue.items.length + 1 := by
    intro queue later msg put
    rw [(BoundedQueue.put_eq_some_iff.mp put).2, List.length_append,
      List.length_singleton]
  have now : (State.work config 3 { state with clock := action.time } :
      Nat) = state.work config 3 := rfl
  unfold work
  rcases step_cases taken with move | ⟨_, move⟩ | ⟨_, move⟩ |
    ⟨consumerId, interrupt, _⟩
  · rcases move.work_lt config 3 (phases.atTime action.time) with
      ⟨same, drops⟩ | ⟨put, callback, done, drops⟩
    · rw [same]
      dsimp only
      omega
    · cases callback
      have longer := grows done
      dsimp only at longer
      omega
  · rcases move.work_lt 3 with ⟨same, drops⟩ | ⟨msg, written, drops⟩
    · rw [same]
      dsimp only
      omega
    · have longer := grows written
      dsimp only at longer
      omega
  · rcases move.work_lt config 3 with
      ⟨same, drops⟩ | ⟨msg, received, drops⟩
    · rw [same]
      dsimp only
      omega
    · have items := congrArg List.length
        (BoundedQueue.take_eq_some_iff.mp received)
      rw [List.length_cons] at items
      dsimp only at items
      omega
  · exact absurd interrupt (uninterrupted consumerId)

/-- How much poison a consumer has taken. -/
theorem Delivery.count_poison_le_one (delivery : Delivery state)
    (consumerId : Fin config.consumer.toNat) :
    (state.consumer consumerId).taken.count poison ≤ 1 := by
  have valid := delivery.consumer_valid consumerId
  unfold ConsumerValid at valid
  cases point : (state.consumer consumerId).point with
  | created =>
      rw [point] at valid
      simp [valid.1]
  | read =>
      rw [point] at valid
      simp [List.count_eq_zero.mpr valid.1]
  | received msg =>
      rw [point] at valid
      obtain ⟨earlier, taken, noPoison, _⟩ := valid
      rw [taken, List.count_cons, List.count_eq_zero.mpr noPoison]
      split <;> omega
  | store msg nanoTime =>
      rw [point] at valid
      obtain ⟨_, earlier, taken, noPoison, _⟩ := valid
      rw [taken, List.count_cons, List.count_eq_zero.mpr noPoison]
      split <;> omega
  | ended =>
      rw [point] at valid
      obtain ⟨earlier, taken, noPoison, _⟩ := valid
      rw [taken, List.count_cons_self, List.count_eq_zero.mpr noPoison]
  | died exception =>
      rw [point] at valid
      exact valid.elim

/-- A blocked consumer waits at an empty queue or has taken poison. -/
theorem Delivery.blocked_consumer (delivery : Delivery state)
    {consumerId : Fin config.consumer.toNat}
    (started : (state.consumer consumerId).point ≠ .created)
    (blocked : consumerStep (callbacks config.capacity.toNat) state
      consumerId = none) :
    ((state.consumer consumerId).taken.count poison = 0 ∧
      (state.consumer consumerId).point = .read ∧
        state.channel.items = []) ∨
    (state.consumer consumerId).taken.count poison = 1 := by
  rcases consumerStep_eq_none blocked with created | terminated |
    ⟨point, empty⟩
  · exact absurd created started
  · obtain ⟨_, earlier, taken, noPoison, _⟩ :=
      delivery.consumer_ended terminated
    right
    rw [taken, List.count_cons_self, List.count_eq_zero.mpr noPoison]
  · left
    have valid := delivery.consumer_valid consumerId
    simp only [ConsumerValid, point] at valid
    exact ⟨List.count_eq_zero.mpr valid.1, point,
      BoundedQueue.take_eq_none_iff.mp empty⟩

/-- A full queue is not empty. -/
theorem items_ne_nil_of_full (admissible : Admissible config) {msg : Int}
    (full : state.channel.put msg = none) : state.channel.items ≠ [] := by
  have capacity := admissible.capacity
  have length := BoundedQueue.put_eq_none_iff.mp full
  apply List.ne_nil_of_length_pos
  omega

/-- When producers and consumers are blocked, the producer that main joins
has terminated: it would wait for room, but no consumer leaves before the
first poison message. -/
theorem producer_terminated_of_blocked (admissible : Admissible config)
    (phases : PhaseInvariant state) (delivery : Delivery state)
    (producersBlocked : ∀ producerId,
      producerStep (callbacks config.capacity.toNat) config state
        producerId = none)
    (consumersBlocked : ∀ consumerId,
      consumerStep (callbacks config.capacity.toNat) state consumerId = none)
    {i : Nat} (inside : i < config.producer.toNat)
    (point : state.main = .joinProducers i) :
    (state.producer ⟨i, inside⟩).Terminated := by
  by_contra running
  have consumers := admissible.consumers
  have first : Fin config.consumer.toNat := ⟨0, by omega⟩
  have producerStarted := (phases.producer_created ⟨i, inside⟩).not.mpr
    (by rw [point]; exact not_not_intro trivial)
  have consumerStarted := (phases.consumer_created first).not.mpr
    (by rw [point]; exact not_not_intro trivial)
  obtain ⟨_, none⟩ :=
    delivery.no_poison (phases.completions_eq_zero running)
  rcases producerStep_eq_none (producersBlocked ⟨i, inside⟩) with
    created | terminated | ⟨_, _, msg, _, _, full⟩
  · exact producerStarted created
  · exact running terminated
  · rcases delivery.blocked_consumer consumerStarted
      (consumersBlocked first) with ⟨_, _, empty⟩ | poisoned
    · exact items_ne_nil_of_full admissible full empty
    · rw [List.count_eq_zero.mpr (none first)] at poisoned
      omega

/-- When the consumers are blocked, main finds room for a poison message: at
a full queue each consumer would have left with poison, but fewer poison
messages were put than there are consumers. -/
theorem put_ne_none_of_blocked (phases : PhaseInvariant state)
    (delivery : Delivery state) (admissible : Admissible config)
    (consumersBlocked : ∀ consumerId,
      consumerStep (callbacks config.capacity.toNat) state consumerId = none)
    {i : Nat} (inside : i < config.consumer.toNat)
    (point : state.main = .completed i) {msg : Int} :
    state.channel.put msg ≠ none := by
  intro full
  have each : ∀ consumerId,
      (state.consumer consumerId).taken.count poison = 1 := by
    intro consumerId
    have started := (phases.consumer_created consumerId).not.mpr
      (by rw [point]; exact not_not_intro trivial)
    rcases delivery.blocked_consumer started
      (consumersBlocked consumerId) with ⟨_, _, empty⟩ | poisoned
    · exact absurd empty (items_ne_nil_of_full admissible full)
    · exact poisoned
  have counts := delivery.count_poison
  simp only [each, Finset.sum_const, Finset.card_univ, Fintype.card_fin,
    smul_eq_mul, Nat.mul_one, point, MainPoint.completions] at counts
  omega

/-- When the consumers are blocked, the one that main joins has terminated:
it would wait at an empty queue, so the others would have taken all poison
messages, which are as many as the consumers. -/
theorem consumer_terminated_of_blocked (phases : PhaseInvariant state)
    (delivery : Delivery state)
    (consumersBlocked : ∀ consumerId,
      consumerStep (callbacks config.capacity.toNat) state consumerId = none)
    {i : Nat} (inside : i < config.consumer.toNat)
    (point : state.main = .joinConsumers i) :
    (state.consumer ⟨i, inside⟩).point.Terminated := by
  by_contra running
  have counts := delivery.count_poison
  have started := (phases.consumer_created ⟨i, inside⟩).not.mpr
    (by rw [point]; exact not_not_intro trivial)
  rcases delivery.blocked_consumer started
    (consumersBlocked ⟨i, inside⟩) with ⟨none, _, empty⟩ | poisoned
  · have fewer : ∑ consumerId,
        (state.consumer consumerId).taken.count poison <
          ∑ _consumerId : Fin config.consumer.toNat, 1 := by
      apply Finset.sum_lt_sum
      · exact fun consumerId _ => delivery.count_poison_le_one consumerId
      · exact ⟨⟨i, inside⟩, Finset.mem_univ _, by omega⟩
    simp only [empty, List.count_nil, point, MainPoint.completions]
      at counts
    simp only [Finset.sum_const, Finset.card_univ, Fintype.card_fin,
      smul_eq_mul, Nat.mul_one] at fewer
    omega
  · rcases consumerStep_eq_none (consumersBlocked ⟨i, inside⟩) with
      created | terminated | ⟨reading, _⟩
    · exact started created
    · exact running terminated
    · have valid := delivery.consumer_valid ⟨i, inside⟩
      simp only [ConsumerValid, reading] at valid
      rw [List.count_eq_zero.mpr valid.1] at poisoned
      omega

/-- A state in which no thread can step is one in which `run` has
returned. -/
theorem returned_of_stuck (admissible : Admissible config)
    (phases : PhaseInvariant state) (delivery : Delivery state)
    (stuck : ¬(system config).CanStepUnder Uninterrupted state) :
    ∃ total, state.main = .returned total := by
  have noStep : ∀ action, Uninterrupted state action →
      step (callbacks config.capacity.toNat) config state action = none := by
    intro action uninterrupted
    cases taken : step (callbacks config.capacity.toNat) config state action
      with
    | none => rfl
    | some next => exact absurd ⟨action, uninterrupted, next, taken⟩ stuck
  obtain ⟨mainBlocked, producersBlocked, consumersBlocked⟩ :=
    blocked_of_stuck noStep
  rcases mainStep_eq_none mainBlocked with ⟨i, inside, point, running⟩ |
    ⟨i, put, point, callback, inside, full⟩ | ⟨i, inside, point, running⟩ |
      returned
  · exact absurd (producer_terminated_of_blocked admissible phases delivery
      producersBlocked consumersBlocked inside point) running
  · cases callback
    exact absurd full (put_ne_none_of_blocked phases delivery admissible
      consumersBlocked inside point)
  · exact absurd (consumer_terminated_of_blocked phases delivery
      consumersBlocked inside point) running
  · exact returned

/-- The work of every initial state. -/
def initialWork (config : LatencyBenchmarkConfig) : Nat :=
  work (start config.producer.toNat config.consumer.toNat
    (LatencyBenchmarkHandle.new 0) BoundedQueue.empty 0 : State config)

/-- The configuration bounds the length of every run without interrupts. -/
theorem length_le_initialWork (admissible : Admissible config)
    {trace : List (State config ×
      Action config.producer.toNat config.consumer.toNat)}
    (run : (system config).Run trace state)
    (meets : TransitionSystem.Meets Uninterrupted trace) :
    trace.length ≤ initialWork config := by
  obtain ⟨initial, ⟨handle, clock, _, rfl⟩, bound⟩ :=
    run.length_add_measure_le work
      (fun before action after reached uninterrupted taken =>
        work_lt_of_step (invariant_of_reachable admissible
          reached.reachable).1 uninterrupted taken) meets
  change _ ≤ initialWork config at bound
  omega

/-- Every run without interrupts can be continued until `run` returns. -/
theorem exists_returned (admissible : Admissible config) :
    ∃ state, (system config).ReachableUnder Uninterrupted state ∧
      ∃ total, state.main = .returned total := by
  obtain ⟨handle, constructed⟩ := admissible.exists_newHandle
  have initial : (system config).initial
      (start _ _ handle BoundedQueue.empty 0) :=
    ⟨handle, 0, constructed, rfl⟩
  obtain ⟨last, reachable, stuck⟩ :=
    (TransitionSystem.ReachableUnder.of_initial initial).exists_final work
      fun before action after reached uninterrupted taken =>
        work_lt_of_step (invariant_of_reachable admissible
          reached.reachable).1 uninterrupted taken
  obtain ⟨phases, delivery⟩ :=
    invariant_of_reachable admissible reachable.reachable
  exact ⟨last, reachable,
    returned_of_stuck admissible phases delivery stuck⟩

/-- **Progress.**  Without interrupts, every reachable state is one in which
`run` has returned or some thread can step, and the configuration bounds the
number of steps of every run. -/
theorem progress_and_bound (admissible : Admissible config) :
    (∀ state, (system config).ReachableUnder Uninterrupted state →
      (∃ total, state.main = .returned total) ∨
        (system config).CanStepUnder Uninterrupted state) ∧
    ∀ trace state, (system config).Run trace state →
      TransitionSystem.Meets Uninterrupted trace →
        trace.length ≤ initialWork config := by
  constructor
  · intro state reachable
    obtain ⟨phases, delivery⟩ :=
      invariant_of_reachable admissible reachable.reachable
    by_cases canStep : (system config).CanStepUnder Uninterrupted state
    · exact Or.inr canStep
    · exact Or.inl (returned_of_stuck admissible phases delivery canStep)
  · intro trace state run meets
    exact length_le_initialWork admissible run meets

/-- The theorem where both producers have filled the queue. -/
theorem progress_and_bound_pair :
    ∃ state, (system pairConfig).ReachableUnder Uninterrupted state ∧
      state.channel.items = [0, 2] ∧
      (system pairConfig).CanStepUnder Uninterrupted state ∧
      ∀ trace last, (system pairConfig).Run trace last →
        TransitionSystem.Meets Uninterrupted trace → trace.length ≤ 60 := by
  have facts : ((system pairConfig).execute pairStart
      (timed (pairFill 0 1))).map (fun state =>
        (state.main, state.channel.items)) =
      some (.joinProducers 0, [0, 2]) := rfl
  obtain ⟨last, executed, values⟩ := Option.map_eq_some_iff.mp facts
  simp only [Prod.mk.injEq] at values
  obtain ⟨joining, full⟩ := values
  have uninterrupted : ∀ action ∈ timed (pairFill 0 1), ∀ consumerId,
      action.actor ≠ .interrupt consumerId := by decide
  have reachable := (TransitionSystem.ReachableUnder.of_initial
    initial_pairStart).execute
      (fun action mem _ => uninterrupted action mem) executed
  obtain ⟨progress, bound⟩ := progress_and_bound pairConfig_admissible
  refine ⟨last, reachable, full, ?_, bound⟩
  rcases progress last reachable with ⟨total, returned⟩ | canStep
  · rw [joining] at returned
    cases returned
  · exact canStep

end ArrayBlockingQueue

end LatencyBenchmark
