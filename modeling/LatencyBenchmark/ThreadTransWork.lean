import LatencyBenchmark.ThreadTransPhases

/-!
# Blocking and remaining work of the thread transfer benchmark

A thread that cannot step is not running, waits for another thread or is
blocked by the channel.  A weight that every move decreases counts the work
left to the threads; it leaves room for what a message still costs once it is
in the channel.
-/

namespace LatencyBenchmark

namespace ThreadTrans

variable {Channel : Type} {producers consumers : Nat}
variable {callbacks : Callbacks Channel} {config : LatencyBenchmarkConfig}
variable {state next : State Channel producers consumers}

/-! ## Blocked threads -/

/-- Where `run` cannot step. -/
theorem mainStep_eq_none (blocked : mainStep callbacks state = none) :
    (∃ i, ∃ inside : i < producers, state.main = .joinProducers i ∧
      ¬(state.producer ⟨i, inside⟩).Terminated) ∨
    (∃ i put, state.main = .completed i ∧ callbacks.completed = some put ∧
      i < consumers ∧ put state.channel = none) ∨
    (∃ i, ∃ inside : i < consumers, state.main = .joinConsumers i ∧
      ¬(state.consumer ⟨i, inside⟩).point.Terminated) ∨
    ∃ total, state.main = .returned total := by
  unfold mainStep at blocked
  cases point : state.main with
  | startConsumers i | startProducers i =>
      simp only [point] at blocked
      split at blocked <;> cases blocked
  | sleep =>
      simp only [point] at blocked
      cases blocked
  | joinProducers i =>
      simp only [point] at blocked
      split at blocked
      · next inside =>
          split at blocked
          · cases blocked
          · next running => exact Or.inl ⟨i, inside, rfl, running⟩
      · cases blocked
  | completed i =>
      simp only [point] at blocked
      cases callback : callbacks.completed with
      | none =>
          simp only [callback] at blocked
          cases blocked
      | some put =>
          simp only [callback] at blocked
          split at blocked
          · next inside =>
              rw [Option.map_eq_none_iff] at blocked
              exact Or.inr (Or.inl ⟨i, put, rfl, rfl, inside, blocked⟩)
          · cases blocked
  | joinConsumers i =>
      simp only [point] at blocked
      split at blocked
      · next inside =>
          split at blocked
          · cases blocked
          · next running =>
              exact Or.inr (Or.inr (Or.inl ⟨i, inside, rfl, running⟩))
      · cases blocked
  | returned total => exact Or.inr (Or.inr (Or.inr ⟨total, rfl⟩))

/-- Where a producer cannot step. -/
theorem producerStep_eq_none {producerId : Fin producers}
    (blocked : producerStep callbacks config state producerId = none) :
    state.producer producerId = .created ∨
      (state.producer producerId).Terminated ∨
        ∃ round i msg nanoTimeWriteBeg,
          state.producer producerId = .write round i msg nanoTimeWriteBeg ∧
            callbacks.write state.channel msg = none := by
  unfold producerStep at blocked
  cases point : state.producer producerId with
  | created => exact Or.inl rfl
  | ended | died exception => exact Or.inr (Or.inl trivial)
  | round round i =>
      simp only [point] at blocked
      repeat' split at blocked
      all_goals cases blocked
  | write round i msg nanoTimeWriteBeg =>
      simp only [point, Option.map_eq_none_iff] at blocked
      exact Or.inr (Or.inr ⟨round, i, msg, nanoTimeWriteBeg, rfl, blocked⟩)
  | storeBegin round i msg nanoTimeWriteBeg nanoTimeWriteEnd
  | storeEnd round i msg nanoTimeWriteEnd =>
      simp only [point] at blocked
      split at blocked <;> cases blocked
  | written round i msg nanoTimeWriteBeg | sleep round =>
      simp only [point] at blocked
      cases blocked

/-- Where a consumer cannot step. -/
theorem consumerStep_eq_none {consumerId : Fin consumers}
    (blocked : consumerStep callbacks state consumerId = none) :
    (state.consumer consumerId).point = .created ∨
      (state.consumer consumerId).point.Terminated ∨
        ((state.consumer consumerId).point = .read ∧
          callbacks.read state.channel = none) := by
  unfold consumerStep at blocked
  cases point : (state.consumer consumerId).point with
  | created => exact Or.inl rfl
  | ended | died exception => exact Or.inr (Or.inl trivial)
  | read =>
      simp only [point, Option.map_eq_none_iff] at blocked
      exact Or.inr (Or.inr ⟨rfl, blocked⟩)
  | received msg | store msg nanoTime =>
      simp only [point] at blocked
      split at blocked <;> cases blocked

/-- The action delivers no interrupt. -/
def Uninterrupted (_state : State Channel producers consumers)
    (action : Action producers consumers) : Prop :=
  ∀ consumerId, action.actor ≠ .interrupt consumerId

/-- In a state without a next step every thread is blocked. -/
theorem blocked_of_stuck
    (stuck : ∀ action, Uninterrupted state action →
      step callbacks config state action = none) :
    mainStep callbacks state = none ∧
      (∀ producerId,
        producerStep callbacks config state producerId = none) ∧
        ∀ consumerId, consumerStep callbacks state consumerId = none := by
  have noStep : ∀ actor, (∀ consumerId, actor ≠ .interrupt consumerId) →
      step callbacks config state ⟨actor, state.clock⟩ = none :=
    fun actor uninterrupted => stuck ⟨actor, state.clock⟩ uninterrupted
  refine ⟨?_, fun producerId => ?_, fun consumerId => ?_⟩
  · simpa [step] using noStep .main (by simp)
  · simpa [step] using noStep (.producer producerId) (by simp)
  · simpa [step] using noStep (.consumer consumerId) (by simp)

/-! ## Remaining work -/

/-- The work left to `run`, when a message costs `cost` in the channel. -/
def MainPoint.work (producers consumers cost : Nat) : MainPoint → Nat
  | .startConsumers i =>
      (consumers - i) + 2 * producers + (cost + 2) * consumers + 6
  | .sleep => 2 * producers + (cost + 2) * consumers + 5
  | .startProducers i =>
      (producers - i) + producers + (cost + 2) * consumers + 4
  | .joinProducers i => (producers - i) + (cost + 2) * consumers + 3
  | .completed i => (cost + 1) * (consumers - i) + consumers + 2
  | .joinConsumers i => (consumers - i) + 1
  | .returned _ => 0

/-- The work left to a producer at the head of its inner loop. -/
def roundWork (config : LatencyBenchmarkConfig) (cost round i : Nat) : Nat :=
  if round < config.totalRounds.toNat then
    (cost + 5) * ((config.totalRounds.toNat - round - 1) *
        config.recordPerRound.toNat + (config.recordPerRound.toNat - i)) +
      2 * (config.totalRounds.toNat - round) + 1
  else
    1

/-- The work left to a producer. -/
def ProducerPoint.work (config : LatencyBenchmarkConfig) (cost : Nat) :
    ProducerPoint → Nat
  | .created => roundWork config cost 0 0
  | .round current i => roundWork config cost current i
  | .write current i _ _ => roundWork config cost current (i + 1) + cost + 4
  | .written current i _ _ => roundWork config cost current (i + 1) + 3
  | .storeBegin current i _ _ _ => roundWork config cost current (i + 1) + 2
  | .storeEnd current i _ _ => roundWork config cost current (i + 1) + 1
  | .sleep current => roundWork config cost (current + 1) 0 + 1
  | .ended => 0
  | .died _ => 0

/-- The work left to a consumer that has a message. -/
def ConsumerPoint.work : ConsumerPoint → Nat
  | .received _ => 2
  | .store _ _ => 1
  | _ => 0

/-- The work left to all threads, apart from messages in the channel. -/
def State.work (config : LatencyBenchmarkConfig) (cost : Nat)
    (state : State Channel producers consumers) : Nat :=
  state.main.work producers consumers cost +
    (∑ producerId, (state.producer producerId).work config cost) +
      ∑ consumerId, (state.consumer consumerId).point.work

theorem roundWork_pos (cost round i : Nat) :
    0 < roundWork config cost round i := by
  unfold roundWork
  split <;> omega

/-- A record of the inner loop. -/
theorem roundWork_succ (cost : Nat) {round i : Nat}
    (inRounds : round < config.totalRounds)
    (inRecords : i < config.recordPerRound) :
    roundWork config cost round i =
      roundWork config cost round (i + 1) + cost + 5 := by
  have rounds : round < config.totalRounds.toNat := by omega
  have left : config.recordPerRound.toNat - i =
      (config.recordPerRound.toNat - (i + 1)) + 1 := by omega
  simp only [roundWork, rounds, if_true, left]
  ring

/-- The end of a round. -/
theorem roundWork_next (cost : Nat) {round : Nat} (i : Nat)
    (inRounds : round < config.totalRounds) :
    roundWork config cost (round + 1) 0 + 2 ≤
      roundWork config cost round i := by
  have rounds : round < config.totalRounds.toNat := by omega
  unfold roundWork
  rw [if_pos rounds]
  split
  · next more =>
      obtain ⟨left, total⟩ : ∃ left,
          config.totalRounds.toNat = round + left + 2 :=
        ⟨config.totalRounds.toNat - round - 2, by omega⟩
      have first : round + left + 2 - (round + 1) - 1 = left := by omega
      have second : round + left + 2 - (round + 1) = left + 1 := by omega
      have third : round + left + 2 - round - 1 = left + 1 := by omega
      have fourth : round + left + 2 - round = left + 2 := by omega
      rw [total, first, second, third, fourth, Nat.sub_zero]
      have grows : (cost + 5) * (left * config.recordPerRound.toNat +
            config.recordPerRound.toNat) ≤
          (cost + 5) * ((left + 1) * config.recordPerRound.toNat +
            (config.recordPerRound.toNat - i)) := by
        apply Nat.mul_le_mul_left
        rw [Nat.add_mul, Nat.one_mul]
        exact Nat.le_add_right _ _
      omega
  · omega

/-- Moving a producer exchanges the work left to it. -/
theorem work_moveProducer (config : LatencyBenchmarkConfig) (cost : Nat)
    {producerId : Fin producers}
    {before : ProducerPoint} (after : ProducerPoint)
    (point : state.producer producerId = before) :
    (∑ other, (Function.update state.producer producerId after other).work
        config cost) + before.work config cost =
      (∑ other, (state.producer other).work config cost) +
        after.work config cost :=
  point ▸ ThreadFamily.sum_update state.producer producerId after
    fun _ point => point.work config cost

/-- Replacing a consumer exchanges the work left to it. -/
theorem work_updateConsumer {consumerId : Fin consumers}
    {before : ConsumerPoint} (after : Consumer)
    (point : (state.consumer consumerId).point = before) :
    (∑ other,
        (Function.update state.consumer consumerId after other).point.work) +
        before.work =
      (∑ other, (state.consumer other).point.work) + after.point.work :=
  point ▸ ThreadFamily.sum_update state.consumer consumerId after
    fun _ consumer => consumer.point.work

/-- Every move of `run` uses up work; a put into the channel also pays for
the message. -/
theorem MainMove.work_lt (config : LatencyBenchmarkConfig) (cost : Nat)
    (phases : PhaseInvariant state)
    (move : MainMove callbacks state next) :
    (next.channel = state.channel ∧
      next.work config cost < state.work config cost) ∨
    ∃ put, callbacks.completed = some put ∧
      put state.channel = some next.channel ∧
        next.work config cost + cost < state.work config cost := by
  have split : (cost + 2) * consumers = (cost + 1) * consumers + consumers := by
    ring
  cases move with
  | @startConsumer i point inside =>
      have created := (phases.consumer_created ⟨i, inside⟩).mpr
        (by simp [point, MainPoint.ConsumerStarted])
      have exchanged := work_updateConsumer
        ⟨.read, (state.consumer ⟨i, inside⟩).totalRead,
          (state.consumer ⟨i, inside⟩).taken⟩ created
      change _ + 0 = _ + 0 at exchanged
      refine Or.inl ⟨rfl, ?_⟩
      simp only [State.work, State.moveConsumer, point, MainPoint.work]
      omega
  | @startProducer i point inside =>
      have created := (phases.producer_created ⟨i, inside⟩).mpr
        (by simp [point, MainPoint.ProducerStarted])
      have exchanged := work_moveProducer config cost
        (.round 0 0) created
      change _ + roundWork config cost 0 0 = _ + roundWork config cost 0 0
        at exchanged
      refine Or.inl ⟨rfl, ?_⟩
      simp only [State.work, State.moveProducer, point, MainPoint.work]
      omega
  | @complete i put channel point callback inside taken =>
      have left : consumers - i = (consumers - (i + 1)) + 1 := by omega
      refine Or.inr ⟨put, callback, taken, ?_⟩
      simp only [State.work, point, MainPoint.work]
      rw [left, Nat.mul_add, Nat.mul_one]
      omega
  | joinedProducers point =>
      refine Or.inl ⟨rfl, ?_⟩
      simp only [State.work, point, MainPoint.work, Nat.sub_zero]
      omega
  | startedConsumers point | wake point | startedProducers point
  | joinProducer point | completed point
  | joinConsumer point | joinedConsumers point =>
      refine Or.inl ⟨rfl, ?_⟩
      simp only [State.work, point, MainPoint.work]
      omega

/-- Every move of a producer uses up work; a write into the channel also pays
for the message. -/
theorem ProducerMove.work_lt (cost : Nat) {producerId : Fin producers}
    (move : ProducerMove callbacks config state producerId next) :
    (next.channel = state.channel ∧
      next.work config cost < state.work config cost) ∨
    ∃ msg, callbacks.write state.channel msg = some next.channel ∧
      next.work config cost + cost < state.work config cost := by
  -- The producer's own work drops, and nothing else changes.
  have moved : ∀ (before after : ProducerPoint) (paid : Nat),
      state.producer producerId = before →
        after.work config cost + paid < before.work config cost →
          state.main.work producers consumers cost +
              (∑ other, (Function.update state.producer producerId after
                other).work config cost) +
                (∑ other, (state.consumer other).point.work) + paid <
            state.work config cost := by
    intro before after paid point drops
    have exchanged := work_moveProducer config cost after point
    unfold State.work
    omega
  cases move with
  | @fetch round i point inRounds inRecords =>
      have record := roundWork_succ cost inRounds inRecords
      have drops : roundWork config cost round (i + 1) + cost + 4 + 0 <
          roundWork config cost round i := by
        omega
      exact Or.inl ⟨rfl, moved _ _ 0 point drops⟩
  | @fetchOutside round i point =>
      exact Or.inl ⟨rfl, moved _ _ 0 point (roundWork_pos cost round i)⟩
  | @pause round i point inRounds =>
      have roundEnd := roundWork_next cost i inRounds
      have drops : roundWork config cost (round + 1) 0 + 1 + 0 <
          roundWork config cost round i := by
        omega
      exact Or.inl ⟨rfl, moved _ _ 0 point drops⟩
  | @nextRound round i point inRounds =>
      have roundEnd := roundWork_next cost i inRounds
      have drops : roundWork config cost (round + 1) 0 + 0 <
          roundWork config cost round i := by
        omega
      exact Or.inl ⟨rfl, moved _ _ 0 point drops⟩
  | @finish round i point =>
      exact Or.inl ⟨rfl, moved _ _ 0 point (roundWork_pos cost round i)⟩
  | @write round i msg nanoTimeWriteBeg channel point written =>
      refine Or.inr ⟨msg, written, moved _ _ cost point ?_⟩
      change roundWork config cost round (i + 1) + 3 + cost <
        roundWork config cost round (i + 1) + cost + 4
      omega
  | @readEnd round i msg nanoTimeWriteBeg point =>
      have drops : roundWork config cost round (i + 1) + 2 + 0 <
          roundWork config cost round (i + 1) + 3 := by
        omega
      exact Or.inl ⟨rfl, moved _ _ 0 point drops⟩
  | @storeBegin round i _ _ _ handle point =>
      have drops : roundWork config cost round (i + 1) + 1 + 0 <
          roundWork config cost round (i + 1) + 2 := by
        omega
      exact Or.inl ⟨rfl, moved _ _ 0 point drops⟩
  | @storeBeginFails round i _ _ _ exception point =>
      have drops : 0 + 0 < roundWork config cost round (i + 1) + 2 := by
        omega
      exact Or.inl ⟨rfl, moved _ _ 0 point drops⟩
  | @storeEnd round i _ _ handle point =>
      have drops : roundWork config cost round (i + 1) + 0 <
          roundWork config cost round (i + 1) + 1 := by
        omega
      exact Or.inl ⟨rfl, moved _ _ 0 point drops⟩
  | @storeEndFails round i _ _ exception point =>
      have drops : 0 + 0 < roundWork config cost round (i + 1) + 1 := by
        omega
      exact Or.inl ⟨rfl, moved _ _ 0 point drops⟩
  | @wake round point =>
      have drops : roundWork config cost (round + 1) 0 + 0 <
          roundWork config cost (round + 1) 0 + 1 := by
        omega
      exact Or.inl ⟨rfl, moved _ _ 0 point drops⟩

/-- Every move of a consumer uses up work, except that a message taken from
the channel still has to be handled. -/
theorem ConsumerMove.work_lt (config : LatencyBenchmarkConfig) (cost : Nat)
    {consumerId : Fin consumers}
    (move : ConsumerMove callbacks state consumerId next) :
    (next.channel = state.channel ∧
      next.work config cost < state.work config cost) ∨
    ∃ msg, callbacks.read state.channel = some (msg, next.channel) ∧
      next.work config cost = state.work config cost + 2 := by
  have moved : ∀ (before : ConsumerPoint) (after : Consumer),
      (state.consumer consumerId).point = before →
        after.point.work < before.work →
          state.main.work producers consumers cost +
              (∑ other, (state.producer other).work config cost) +
                (∑ other, (Function.update state.consumer consumerId after
                  other).point.work) <
            state.work config cost := by
    intro before after point drops
    have exchanged := work_updateConsumer after point
    unfold State.work
    omega
  cases move with
  | @read msg channel point received =>
      have exchanged := work_updateConsumer
        ⟨.received msg, (state.consumer consumerId).totalRead,
          msg :: (state.consumer consumerId).taken⟩ point
      change _ + 0 = _ + 2 at exchanged
      refine Or.inr ⟨msg, received, ?_⟩
      simp only [State.work]
      omega
  | stop point | stamp point | store point | storeFails point =>
      exact Or.inl ⟨rfl, moved _ _ point (by simp [ConsumerPoint.work])⟩

end ThreadTrans

end LatencyBenchmark
