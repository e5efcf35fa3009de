import LatencyBenchmark.ThreadFamily
import LatencyBenchmark.ThreadTransChannelMoves

/-!
# Phases of the Go channel benchmark

Where main stands decides which goroutines exist and how many nils it has
sent, and as many consumers as nils sent have left their receive loop.
-/

namespace LatencyBenchmark

namespace ThreadTransChannel

variable {cntProducer cntConsumer : Nat} {limit : MakeLimit}
variable {config : ThreadTransConfig}
variable {state next : State cntProducer cntConsumer}

/-- Main has started the consumer. -/
def MainPoint.ConsumerStarted : MainPoint → Nat → Prop
  | .make, _ => False
  | .startConsumers i, consumerId => consumerId < i
  | _, _ => True

/-- Main has started the producer. -/
def MainPoint.ProducerStarted : MainPoint → Nat → Prop
  | .startProducers i, producerId => producerId < i
  | .join _ _, _ | .sendNil _ _ _, _ | .report, _ => True
  | _, _ => False

/-- The consumer has received its nil. -/
def ConsumerPoint.GotNil : ConsumerPoint → Prop
  | .store | .signal | .complete => True
  | _ => False

instance : DecidablePred ConsumerPoint.GotNil
  | .store | .signal | .complete => inferInstanceAs (Decidable True)
  | .notStarted | .addReady | .ready | .receive | .stamp _ | .count =>
      inferInstanceAs (Decidable False)

def Consumer.GotNil (consumer : Consumer) : Prop :=
  consumer.point.GotNil

instance : DecidablePred Consumer.GotNil := fun consumer =>
  inferInstanceAs (Decidable consumer.point.GotNil)

/-- The number of nils sent fits the point main is at.  The nils go out when
the producer counter reaches `cnt_producer`, which happens once. -/
def MainPoint.NilsSent (cntProducer cntConsumer nilsSent : Nat) :
    MainPoint → Prop
  | .join cntProducerComplete cntConsumerComplete =>
      (cntProducerComplete < cntProducer ∧ nilsSent = 0 ∨
        cntProducer ≤ cntProducerComplete ∧ nilsSent = cntConsumer) ∧
      cntConsumerComplete < cntConsumer
  | .sendNil i cntProducerComplete cntConsumerComplete =>
      nilsSent = i ∧ i ≤ cntConsumer ∧ cntProducerComplete = cntProducer ∧
      cntConsumerComplete < cntConsumer
  | .report => nilsSent = 0 ∨ nilsSent = cntConsumer
  | _ => nilsSent = 0

/-- What the point main is at says about the other goroutines. -/
structure Phases (limit : MakeLimit) (config : ThreadTransConfig)
    (state : State cntProducer cntConsumer) : Prop where
  fits : state.main ≠ .make → cnt config ≤ limit.blocks
  consumer_started : ∀ consumerId,
    (state.consumer consumerId).point ≠ .notStarted ↔
      state.main.ConsumerStarted consumerId
  producer_started : ∀ producerId,
    state.producer producerId ≠ .notStarted ↔
      state.main.ProducerStarted producerId
  nils_sent : state.main.NilsSent cntProducer cntConsumer state.nilsSent
  nils_received :
    ThreadFamily.count Consumer.GotNil state.consumer = state.nilsSent

theorem Phases.nilsSent_le (phases : Phases limit config state) :
    state.nilsSent ≤ cntConsumer := by
  rw [← phases.nils_received]
  exact ThreadFamily.count_le_card.trans_eq (Fintype.card_fin cntConsumer)

/-- No consumer leaves its receive loop before main sends a nil. -/
theorem Phases.nilsSent_ne_zero (phases : Phases limit config state)
    {consumerId : Fin cntConsumer}
    (gotNil : (state.consumer consumerId).GotNil) : state.nilsSent ≠ 0 := by
  rw [← phases.nils_received]
  intro none
  exact ThreadFamily.count_eq_zero_iff.mp none consumerId gotNil

/-- All consumers have their nil when as many nils are out. -/
theorem Phases.nilsSent_eq_iff (phases : Phases limit config state) :
    state.nilsSent = cntConsumer ↔
      ∀ consumerId, (state.consumer consumerId).GotNil := by
  have all : ThreadFamily.count Consumer.GotNil state.consumer =
      Fintype.card (Fin cntConsumer) ↔
        ∀ consumerId, (state.consumer consumerId).GotNil :=
    ThreadFamily.count_eq_card_iff
  rwa [phases.nils_received, Fintype.card_fin] at all

/-- The consumer that main starts next has not run. -/
theorem Phases.consumer_sleeping (phases : Phases limit config state) {i : Nat}
    (point : state.main = .startConsumers i) (inside : i < cntConsumer) :
    (state.consumer ⟨i, inside⟩).point = .notStarted := by
  have active := phases.consumer_started ⟨i, inside⟩
  simpa [point, MainPoint.ConsumerStarted] using active

/-- The producer that main starts next has not run. -/
theorem Phases.producer_sleeping (phases : Phases limit config state) {i : Nat}
    (point : state.main = .startProducers i) (inside : i < cntProducer) :
    state.producer ⟨i, inside⟩ = .notStarted := by
  have active := phases.producer_started ⟨i, inside⟩
  simpa [point, MainPoint.ProducerStarted] using active

theorem Received.ne_make {tmp : Int} {main after : MainPoint}
    (receives : Received cntProducer cntConsumer tmp main after) :
    main ≠ .make := by
  cases receives <;> simp

theorem Received.consumerStarted {tmp : Int} {main after : MainPoint}
    (receives : Received cntProducer cntConsumer tmp main after)
    (consumerId : Nat) :
    after.ConsumerStarted consumerId ↔ main.ConsumerStarted consumerId := by
  cases receives <;> simp [MainPoint.ConsumerStarted]

theorem Received.producerStarted {tmp : Int} {main after : MainPoint}
    (receives : Received cntProducer cntConsumer tmp main after)
    (producerId : Nat) :
    after.ProducerStarted producerId ↔ main.ProducerStarted producerId := by
  cases receives <;> simp [MainPoint.ProducerStarted]

theorem Received.nilsSent {tmp : Int} {main after : MainPoint} {nils : Nat}
    (receives : Received cntProducer cntConsumer tmp main after)
    (sent : main.NilsSent cntProducer cntConsumer nils) :
    after.NilsSent cntProducer cntConsumer nils := by
  cases receives with
  | lastReady last | ready notLast => exact sent
  | lastProducer one last | producer one notLast
  | lastConsumer two last | consumer two notLast
  | ignored notOne notTwo =>
      simp only [MainPoint.NilsSent] at sent ⊢
      omega

theorem phases_start (clock : Int) :
    Phases limit config (start cntProducer cntConsumer clock) where
  fits := by simp [start]
  consumer_started := by simp [start, MainPoint.ConsumerStarted]
  producer_started := by simp [start, MainPoint.ProducerStarted]
  nils_sent := by simp [start, MainPoint.NilsSent]
  nils_received := by
    rw [show (start cntProducer cntConsumer clock).nilsSent = 0 from rfl,
      ThreadFamily.count_eq_zero_iff]
    simp [start, Consumer.GotNil, ConsumerPoint.GotNil]

/-- The phases read the program points and the number of nils only. -/
theorem Phases.congr (phases : Phases limit config state)
    (main : next.main = state.main) (producer : next.producer = state.producer)
    (consumer : next.consumer = state.consumer)
    (nilsSent : next.nilsSent = state.nilsSent) : Phases limit config next := by
  obtain ⟨fits, consumerStarted, producerStarted, sent, received⟩ := phases
  rw [← main] at fits consumerStarted producerStarted sent
  rw [← producer] at producerStarted
  rw [← consumer] at consumerStarted received
  rw [← nilsSent] at sent received
  exact ⟨fits, consumerStarted, producerStarted, sent, received⟩

theorem Phases.moveProducer (phases : Phases limit config state)
    {producerId : Fin cntProducer} {point : ProducerPoint}
    (old : state.producer producerId ≠ .notStarted)
    (new : point ≠ .notStarted) :
    Phases limit config (state.moveProducer producerId point) :=
  { phases with
    producer_started := by
      apply ThreadFamily.forall_update
        (fun (other : Fin cntProducer) member =>
          member ≠ ProducerPoint.notStarted ↔
            state.main.ProducerStarted other) phases.producer_started
      have started := (phases.producer_started producerId).mp old
      exact iff_of_true new started }

theorem Phases.setConsumer (phases : Phases limit config state)
    {consumerId : Fin cntConsumer} {consumer : Consumer}
    (old : (state.consumer consumerId).point ≠ .notStarted)
    (new : consumer.point ≠ .notStarted)
    (gotNil : consumer.GotNil ↔ (state.consumer consumerId).GotNil) :
    Phases limit config (state.setConsumer consumerId consumer) :=
  { phases with
    consumer_started := by
      apply ThreadFamily.forall_update
        (fun (other : Fin cntConsumer) (member : Consumer) =>
          member.point ≠ .notStarted ↔
            state.main.ConsumerStarted other) phases.consumer_started
      have started := (phases.consumer_started consumerId).mp old
      exact iff_of_true new started
    nils_received := by
      have received := phases.nils_received
      rwa [← ThreadFamily.count_update_same gotNil] at received }

theorem Phases.receive (phases : Phases limit config state) {tmp : Int}
    {main : MainPoint}
    (receives : Received cntProducer cntConsumer tmp state.main main) :
    Phases limit config { state with main := main } :=
  { phases with
    fits := fun _ => phases.fits receives.ne_make
    consumer_started := by
      intro consumerId
      rw [receives.consumerStarted]
      exact phases.consumer_started consumerId
    producer_started := by
      intro producerId
      rw [receives.producerStarted]
      exact phases.producer_started producerId
    nils_sent := receives.nilsSent phases.nils_sent }

theorem Phases.mainMove (phases : Phases limit config state)
    (someProducer : 0 < cntProducer) (someConsumer : 0 < cntConsumer)
    (move : MainMove limit config state next) : Phases limit config next := by
  have asleep := fun i => phases.consumer_sleeping (i := i)
  obtain ⟨fits, consumerStarted, producerStarted, sent, received⟩ := phases
  cases move with
  | make point fits =>
      simp only [point, MainPoint.ConsumerStarted, MainPoint.ProducerStarted,
        MainPoint.NilsSent] at consumerStarted producerStarted sent
      refine ⟨fun _ => fits, ?_, producerStarted, sent, received⟩
      intro consumerId
      rw [consumerStarted]
      simp [MainPoint.ConsumerStarted]
  | makePanics point tooLong =>
      exact ⟨fits, consumerStarted, producerStarted, sent, received⟩
  | @startConsumer i point inside =>
      simp only [point, MainPoint.ConsumerStarted, MainPoint.ProducerStarted,
        MainPoint.NilsSent] at consumerStarted producerStarted sent
      refine ⟨fun _ => fits (by simp [point]), ?_, producerStarted, sent, ?_⟩
      · exact ThreadFamily.iff_lt_update (Consumer.point · ≠ .notStarted)
          inside consumerStarted (by simp)
      · apply (ThreadFamily.count_update_same _).trans received
        simp [Consumer.GotNil, ConsumerPoint.GotNil, asleep i point inside]
  | @startedConsumers i point done =>
      simp only [point, MainPoint.ConsumerStarted, MainPoint.ProducerStarted,
        MainPoint.NilsSent] at consumerStarted producerStarted sent
      refine ⟨fun _ => fits (by simp [point]), ?_, producerStarted, sent,
        received⟩
      intro consumerId
      have started : (consumerId : Nat) < i := by
        have := consumerId.isLt
        omega
      rw [consumerStarted]
      exact iff_of_true started trivial
  | startProducer point inside =>
      simp only [point, MainPoint.ConsumerStarted, MainPoint.ProducerStarted,
        MainPoint.NilsSent] at consumerStarted producerStarted sent
      refine ⟨fun _ => fits (by simp [point]), consumerStarted, ?_, sent,
        received⟩
      exact ThreadFamily.iff_lt_update (· ≠ ProducerPoint.notStarted) inside
        producerStarted (by simp)
  | @startedProducers i point done =>
      simp only [point, MainPoint.ConsumerStarted, MainPoint.ProducerStarted,
        MainPoint.NilsSent] at consumerStarted producerStarted sent
      refine ⟨fun _ => fits (by simp [point]), consumerStarted, ?_,
        ⟨Or.inl ⟨someProducer, sent⟩, someConsumer⟩, received⟩
      intro producerId
      have started : (producerId : Nat) < i := by
        have := producerId.isLt
        omega
      rw [producerStarted]
      exact iff_of_true started trivial
  | sentNils point done =>
      simp only [point, MainPoint.ConsumerStarted, MainPoint.ProducerStarted,
        MainPoint.NilsSent] at consumerStarted producerStarted sent
      refine ⟨fun _ => fits (by simp [point]), consumerStarted,
        producerStarted, ⟨Or.inr ⟨sent.2.2.1.ge, ?_⟩, sent.2.2.2⟩, received⟩
      have all : state.nilsSent = cntConsumer := by omega
      exact all

theorem Phases.producerMove (phases : Phases limit config state)
    {producerId : Fin cntProducer}
    (move : ProducerMove config state producerId next) :
    Phases limit config next := by
  cases move with
  | nextLoop point inLoop | finish point loopEnds | endRange point rangeEnds
  | wake point =>
      exact phases.moveProducer (by simp [point]) (by simp)
  | issue point inRange inside | stampBegin point | stampEnd point =>
      exact (phases.moveProducer (by simp [point]) (by simp)).congr
        rfl rfl rfl rfl
  | issuePanics point inRange outside => exact phases.congr rfl rfl rfl rfl

theorem Phases.consumerMove (phases : Phases limit config state)
    {consumerId : Fin cntConsumer}
    (move : ConsumerMove state consumerId next) : Phases limit config next := by
  cases move with
  | count point =>
      exact phases.setConsumer (by simp [point]) (by simp)
        (by simp [Consumer.GotNil, ConsumerPoint.GotNil, point])
  | addReady point | stamp point | store point inside =>
      exact (phases.setConsumer (by simp [point]) (by simp)
        (by simp [Consumer.GotNil, ConsumerPoint.GotNil, point])).congr
        rfl rfl rfl rfl
  | storePanics point outside => exact phases.congr rfl rfl rfl rfl

theorem Phases.rendezvous (phases : Phases limit config state)
    {actor : Actor cntProducer cntConsumer}
    (move : Rendezvous state actor next) : Phases limit config next := by
  cases move with
  | producerSignal sends receives =>
      exact (phases.moveProducer (by simp [sends]) (by simp)).receive receives
  | readySignal sends receives | completeSignal sends receives =>
      exact (phases.setConsumer (by simp [sends]) (by simp)
        (by simp [Consumer.GotNil, ConsumerPoint.GotNil, sends])).receive
        receives
  | @block producerId _ i j idx sends receives =>
      have moved : Phases limit config
          (state.moveProducer producerId (.stampEnd i j idx)) :=
        phases.moveProducer (by simp [sends]) (by simp)
      exact (moved.setConsumer (by simp [State.moveProducer, receives])
        (by simp) (by simp [Consumer.GotNil, ConsumerPoint.GotNil,
          State.moveProducer, receives])).congr rfl rfl rfl rfl
  | @nil consumerId i _ _ sends inside receives =>
      obtain ⟨fits, consumerStarted, producerStarted, sent, received⟩ := phases
      simp only [sends, MainPoint.ConsumerStarted, MainPoint.ProducerStarted,
        MainPoint.NilsSent] at consumerStarted producerStarted sent
      refine ⟨fun _ => fits (by simp [sends]), ?_, producerStarted, ?_, ?_⟩
      · exact ThreadFamily.forall_update
          (fun _ (member : Consumer) => member.point ≠ .notStarted ↔ True)
          consumerStarted (by simp)
      · simp only [MainPoint.NilsSent]
        omega
      · simp only [State.setConsumer]
        rw [ThreadFamily.count_update_gain _ _, received, Nat.add_comm]
        · simp [Consumer.GotNil, ConsumerPoint.GotNil]
        · simp [Consumer.GotNil, ConsumerPoint.GotNil, receives]

/-- Every step keeps the phases. -/
theorem Phases.step (phases : Phases limit config state)
    (someProducer : 0 < cntProducer) (someConsumer : 0 < cntConsumer)
    {action : Action cntProducer cntConsumer}
    (taken : ThreadTransChannel.step limit config state action = some next) :
    Phases limit config next := by
  have now : Phases limit config { state with clock := action.time } :=
    phases.congr rfl rfl rfl rfl
  obtain ⟨_, move⟩ := step_cases taken
  cases move with
  | main move => exact now.mainMove someProducer someConsumer move
  | producer move => exact now.producerMove move
  | consumer move => exact now.consumerMove move
  | rendezvous move => exact now.rendezvous move

end ThreadTransChannel

end LatencyBenchmark
