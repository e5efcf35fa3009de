import LatencyBenchmark.ThreadTransChannelTraffic

/-!
# Counters of the Go channel benchmark

A consumer's `idx` counts the blocks it received.  `atomic.AddInt32` numbers
the consumers, so each stores its count in a slot of its own.
-/

namespace LatencyBenchmark

namespace ThreadTransChannel

variable {cntProducer cntConsumer : Nat} {limit : MakeLimit}
variable {config : ThreadTransConfig}
variable {state next : State cntProducer cntConsumer}

/-- The consumer has received and not yet counted a block. -/
def ConsumerPoint.uncounted : ConsumerPoint → Nat
  | .stamp _ | .count => 1
  | _ => 0

/-- Main has taken the consumer's ready signal. -/
def ConsumerPoint.SignalledReady : ConsumerPoint → Prop
  | .notStarted | .addReady | .ready => False
  | _ => True

instance : DecidablePred ConsumerPoint.SignalledReady
  | .notStarted | .addReady | .ready => inferInstanceAs (Decidable False)
  | .receive | .stamp _ | .count | .store | .signal | .complete =>
      inferInstanceAs (Decidable True)

/-- The consumer has obtained its `consumer_idx`. -/
def Consumer.Numbered (consumer : Consumer) : Prop :=
  consumer.point ≠ .notStarted ∧ consumer.point ≠ .addReady

instance : DecidablePred Consumer.Numbered := fun _ =>
  inferInstanceAs (Decidable (_ ∧ _))

/-- `consumer_idx` after its decrement. -/
def Consumer.slot (consumer : Consumer) : Int :=
  if consumer.point = .ready then
    toInt32 (consumer.consumerIdx - 1)
  else
    consumer.consumerIdx

/-- The local variables of a consumer fit the point it is at. -/
structure Consumer.Valid (consumer : Consumer) : Prop where
  counted : consumer.idx + consumer.point.uncounted =
    consumer.received.length
  none_before_ready :
    ¬consumer.point.SignalledReady → consumer.received = []
  ready_lt : consumer.point = .ready → consumer.consumerIdx < 2 ^ 31

theorem Traffic.received_length_lt (traffic : Traffic config state)
    (consumerId : Fin cntConsumer) :
    (state.consumer consumerId).received.length < 2 ^ 64 := by
  have single : (state.consumer consumerId).received.length ≤
      ∑ other, (state.consumer other).received.length :=
    Finset.single_le_sum
      (f := fun other => (state.consumer other).received.length)
      (fun _ _ => Nat.zero_le _) (Finset.mem_univ consumerId)
  have total := traffic.sum_length
  have bound := traffic.length_le
  have small : cnt config < 2 ^ 64 := Nat.mod_lt _ (by norm_num)
  omega

/-- Main has left the ready loop. -/
def MainPoint.LeftReadyLoop : MainPoint → Prop
  | .make | .startConsumers _ | .ready => False
  | _ => True

/-- The counters of the consumers.  The ready loop compares an `int32` with
`cnt_consumer` and is never left when that is out of its range. -/
structure Counters (state : State cntProducer cntConsumer) : Prop where
  valid : ∀ consumerId, (state.consumer consumerId).Valid
  cntConsumer_lt : state.main.LeftReadyLoop → cntConsumer < 2 ^ 31

theorem counters_start (clock : Int) :
    Counters (start cntProducer cntConsumer clock) where
  valid := fun _ => ⟨rfl, fun _ => rfl, by simp [start]⟩
  cntConsumer_lt := False.elim

theorem Counters.congr (counters : Counters state)
    (consumer : next.consumer = state.consumer)
    (main : next.main.LeftReadyLoop → state.main.LeftReadyLoop) :
    Counters next := by
  obtain ⟨valid, few⟩ := counters
  rw [← consumer] at valid
  exact ⟨valid, few ∘ main⟩

/-- Past its ready signal a consumer only has to count right. -/
theorem Consumer.Valid.of_signalled {consumer : Consumer}
    (signalled : consumer.point.SignalledReady)
    (counted : consumer.idx + consumer.point.uncounted =
      consumer.received.length) : consumer.Valid where
  counted := counted
  none_before_ready := fun waiting => absurd signalled waiting
  ready_lt := by
    intro point
    rw [point] at signalled
    exact signalled.elim

theorem Counters.updateConsumer (counters : Counters state)
    {consumerId : Fin cntConsumer} {consumer : Consumer}
    (moved : next.consumer =
      Function.update state.consumer consumerId consumer)
    (few : next.main.LeftReadyLoop → cntConsumer < 2 ^ 31)
    (valid : consumer.Valid) : Counters next where
  valid := by
    rw [moved]
    exact ThreadFamily.forall_update (fun _ => Consumer.Valid)
      counters.valid valid
  cntConsumer_lt := few

/-- Only the ready signal of the last number ends the ready loop. -/
theorem Received.cntConsumer_lt {tmp : Int} {main after : MainPoint}
    (receives : Received cntProducer cntConsumer tmp main after)
    (small : tmp < 2 ^ 31)
    (few : main.LeftReadyLoop → cntConsumer < 2 ^ 31)
    (left : after.LeftReadyLoop) : cntConsumer < 2 ^ 31 := by
  cases receives with
  | lastReady last => omega
  | ready notLast => exact left.elim
  | lastProducer | producer | lastConsumer | consumer | ignored =>
      exact few trivial

theorem Counters.mainMove (counters : Counters state)
    (phases : Phases limit config state)
    (move : MainMove limit config state next) :
    Counters next := by
  cases move with
  | make point fits | startedConsumers point done =>
      exact counters.congr rfl False.elim
  | makePanics point tooLong => exact counters.congr rfl id
  | @startConsumer i point inside =>
      have sleeping := phases.consumer_sleeping point inside
      have old := counters.valid ⟨i, inside⟩
      refine counters.updateConsumer rfl False.elim ⟨?_, ?_, ?_⟩
      · simpa [sleeping, ConsumerPoint.uncounted] using old.counted
      · intro _
        exact old.none_before_ready
          (by simp [sleeping, ConsumerPoint.SignalledReady])
      · simp
  | startProducer point inside | startedProducers point done
  | sentNils point done =>
      exact counters.congr rfl (by simp [point, MainPoint.LeftReadyLoop])

theorem Counters.consumerMove (counters : Counters state)
    (traffic : Traffic config state) {consumerId : Fin cntConsumer}
    (move : ConsumerMove state consumerId next) : Counters next := by
  have old := counters.valid consumerId
  have counted := old.counted
  cases move with
  | addReady point =>
      refine counters.updateConsumer rfl counters.cntConsumer_lt ⟨?_, ?_, ?_⟩
      · simpa [point, ConsumerPoint.uncounted] using counted
      · intro _
        exact old.none_before_ready
          (by simp [point, ConsumerPoint.SignalledReady])
      · intro _
        exact toInt32_lt _
  | count point =>
      have bound := traffic.received_length_lt consumerId
      simp only [point, ConsumerPoint.uncounted] at counted
      refine counters.updateConsumer rfl counters.cntConsumer_lt
        (.of_signalled trivial ?_)
      simp only [ConsumerPoint.uncounted]
      rw [Nat.mod_eq_of_lt (by omega)]
      exact counted
  | stamp point | store point inside =>
      refine counters.updateConsumer rfl counters.cntConsumer_lt
        (.of_signalled trivial ?_)
      simpa [point, ConsumerPoint.uncounted] using counted
  | storePanics point outside => exact counters.congr rfl id

theorem Counters.rendezvous (counters : Counters state)
    {actor : Actor cntProducer cntConsumer}
    (move : Rendezvous state actor next) : Counters next := by
  cases move with
  | producerSignal sends receives =>
      exact ⟨counters.valid,
        receives.cntConsumer_lt (by norm_num) counters.cntConsumer_lt⟩
  | @readySignal consumerId _ sends receives =>
      have old := counters.valid consumerId
      have empty := old.none_before_ready
        (by simp [sends, ConsumerPoint.SignalledReady])
      have few := receives.cntConsumer_lt (old.ready_lt sends)
        counters.cntConsumer_lt
      refine counters.updateConsumer rfl few (.of_signalled trivial ?_)
      simp [ConsumerPoint.uncounted, empty]
  | @completeSignal consumerId _ sends receives =>
      have counted := (counters.valid consumerId).counted
      have few := receives.cntConsumer_lt (by norm_num)
        counters.cntConsumer_lt
      refine counters.updateConsumer rfl few (.of_signalled trivial ?_)
      simpa [sends, ConsumerPoint.uncounted] using counted
  | @block _ consumerId _ _ _ sends receives =>
      have counted := (counters.valid consumerId).counted
      refine counters.updateConsumer rfl counters.cntConsumer_lt
        (.of_signalled trivial ?_)
      simpa [receives, ConsumerPoint.uncounted] using counted
  | @nil consumerId _ _ _ sends inside receives =>
      have counted := (counters.valid consumerId).counted
      have few := counters.cntConsumer_lt
        (by simp [sends, MainPoint.LeftReadyLoop])
      refine counters.updateConsumer rfl (fun _ => few)
        (.of_signalled trivial ?_)
      simpa [receives, ConsumerPoint.uncounted] using counted

/-- Every step keeps the counters. -/
theorem Counters.step (counters : Counters state)
    (phases : Phases limit config state) (traffic : Traffic config state)
    {action : Action cntProducer cntConsumer}
    (taken : ThreadTransChannel.step limit config state action = some next) :
    Counters next := by
  have now : Counters { state with clock := action.time } :=
    counters.congr rfl id
  have phasesNow : Phases limit config { state with clock := action.time } :=
    phases.congr rfl rfl rfl rfl
  have trafficNow : Traffic config { state with clock := action.time } :=
    traffic.congr rfl rfl rfl
  obtain ⟨_, move⟩ := step_cases taken
  cases move with
  | main move => exact now.mainMove phasesNow move
  | producer move => cases move <;> exact now.congr rfl id
  | consumer move => exact now.consumerMove trafficNow move
  | rendezvous move => exact now.rendezvous move

end ThreadTransChannel

end LatencyBenchmark
