import LatencyBenchmark.ArrayBlockingQueueDelivery

/-!
# Causal timestamps

A producer reads the clock before it writes a message and again afterwards,
the consumer that takes the message reads it once more, and all three store
their reading later, in any order.  A begin stamp is a begin reading wherever
it is at the moment, in a producer's hand or in a record, and a later stamp
is an end or read reading of the same message.  A message has no later stamp
before it is issued, so no begin stamp ever exceeds a later stamp.
-/

namespace LatencyBenchmark

namespace ThreadTrans

/-- The message and the begin reading a producer has in hand. -/
def ProducerPoint.beginStamp : ProducerPoint → Option (Int × Int)
  | .write _ _ msg nanoTimeWriteBeg | .written _ _ msg nanoTimeWriteBeg
  | .storeBegin _ _ msg nanoTimeWriteBeg _ => some (msg, nanoTimeWriteBeg)
  | _ => none

/-- The message and the end reading a producer has in hand. -/
def ProducerPoint.endStamp : ProducerPoint → Option (Int × Int)
  | .storeBegin _ _ msg _ nanoTimeWriteEnd
  | .storeEnd _ _ msg nanoTimeWriteEnd => some (msg, nanoTimeWriteEnd)
  | _ => none

/-- The message and the reading a consumer has in hand. -/
def ConsumerPoint.readStamp : ConsumerPoint → Option (Int × Int)
  | .store msg nanoTime => some (msg, nanoTime)
  | _ => none

variable {Channel : Type} {producers consumers : Nat}

/-- A begin reading of a message, stored or still in hand. -/
inductive BeginStamp (state : State Channel producers consumers) (id : Nat)
    (nsec : Int) : Prop
  | inHand {producerId : Fin producers}
      (point : (state.producer producerId).beginStamp = some (↑id, nsec))
  | stored {record : LatencyBenchmarkRecord}
      (holds : state.handle.Holds actionWriteBegin id record)
      (same : record.nsec = nsec)

/-- An end or read reading of a message, stored or still in hand. -/
inductive LaterStamp (state : State Channel producers consumers) (id : Nat)
    (nsec : Int) : Prop
  | endInHand {producerId : Fin producers}
      (point : (state.producer producerId).endStamp = some (↑id, nsec))
  | readInHand {consumerId : Fin consumers}
      (point : (state.consumer consumerId).point.readStamp =
        some (↑id, nsec))
  | stored {action : Int} {record : LatencyBenchmarkRecord}
      (holds : state.handle.Holds action id record)
      (later : action ≠ actionWriteBegin) (same : record.nsec = nsec)

variable {callbacks : Callbacks Channel} {config : LatencyBenchmarkConfig}
variable {state next : State Channel producers consumers}

/-! ## Where stamps come from -/

theorem BeginStamp.of_moveProducer {producerId : Fin producers}
    {point : ProducerPoint} {handle : LatencyBenchmarkHandle}
    {channel : Channel} {id : Nat} {nsec : Int}
    (stamp : BeginStamp { state.moveProducer producerId point with
      handle := handle, channel := channel } id nsec)
    (old : ∀ record, handle.Holds actionWriteBegin id record →
      BeginStamp state id record.nsec) :
    BeginStamp state id nsec ∨ point.beginStamp = some (↑id, nsec) := by
  cases stamp with
  | @inHand other inHand =>
      by_cases same : other = producerId
      · subst same
        dsimp only [State.moveProducer] at inHand
        rw [Function.update_self] at inHand
        exact Or.inr inHand
      · dsimp only [State.moveProducer] at inHand
        rw [Function.update_of_ne same] at inHand
        exact Or.inl (.inHand inHand)
  | @stored record holds same =>
      subst same
      exact Or.inl (old record holds)

theorem LaterStamp.of_moveProducer {producerId : Fin producers}
    {point : ProducerPoint} {handle : LatencyBenchmarkHandle}
    {channel : Channel} {id : Nat} {nsec : Int}
    (stamp : LaterStamp { state.moveProducer producerId point with
      handle := handle, channel := channel } id nsec)
    (old : ∀ action record, handle.Holds action id record →
      action ≠ actionWriteBegin → LaterStamp state id record.nsec) :
    LaterStamp state id nsec ∨ point.endStamp = some (↑id, nsec) := by
  cases stamp with
  | @endInHand other inHand =>
      by_cases same : other = producerId
      · subst same
        dsimp only [State.moveProducer] at inHand
        rw [Function.update_self] at inHand
        exact Or.inr inHand
      · dsimp only [State.moveProducer] at inHand
        rw [Function.update_of_ne same] at inHand
        exact Or.inl (.endInHand inHand)
  | readInHand inHand => exact Or.inl (.readInHand inHand)
  | @stored action record holds later same =>
      subst same
      exact Or.inl (old action record holds later)

/-- A begin stamp is new only when a producer fetches the message. -/
theorem BeginStamp.of_producerMove {producerId : Fin producers}
    (move : ProducerMove callbacks config state producerId next)
    {id : Nat} {nsec : Int} (stamp : BeginStamp next id nsec) :
    BeginStamp state id nsec ∨ (nsec = state.clock ∧ ∃ round i,
      state.producer producerId = .round round i ∧
        round < config.totalRounds ∧ i < config.recordPerRound ∧
          (id : Int) = messageId config producerId round i) := by
  have same : ∀ record, state.handle.Holds actionWriteBegin id record →
      BeginStamp state id record.nsec :=
    fun _ holds => .stored holds rfl
  cases move with
  | @fetch round i point inRounds inRecords inside =>
      rcases stamp.of_moveProducer same with old | new
      · exact Or.inl old
      · obtain ⟨sameId, rfl⟩ := Prod.mk.inj (Option.some.inj new)
        exact Or.inr ⟨rfl, round, i, point, inRounds, inRecords, sameId.symm⟩
  | write point | readEnd point =>
      rcases stamp.of_moveProducer same with old | new
      · exact Or.inl old
      · exact Or.inl (.inHand (by rw [point]; exact new))
  | @storeBegin round i msg nanoTimeWriteBeg nanoTimeWriteEnd handle point
      stored =>
      have old : ∀ record, handle.Holds actionWriteBegin id record →
          BeginStamp state id record.nsec := by
        intro record holds
        rcases LatencyBenchmarkHandle.holds_of_storeRecord stored holds with
          earlier | ⟨_, rfl, rfl⟩
        · exact .stored earlier rfl
        · exact .inHand (by rw [point]; rfl)
      rcases stamp.of_moveProducer old with old | new
      · exact Or.inl old
      · cases new
  | @storeEnd round i msg nanoTimeWriteEnd handle point stored =>
      have old : ∀ record, handle.Holds actionWriteBegin id record →
          BeginStamp state id record.nsec := by
        intro record holds
        rcases LatencyBenchmarkHandle.holds_of_storeRecord stored holds with
          earlier | ⟨different, _, _⟩
        · exact .stored earlier rfl
        · cases different
      rcases stamp.of_moveProducer old with old | new
      · exact Or.inl old
      · cases new
  | fetchOutside point | pause point | nextRound point | finish point
  | storeBeginFails point | storeEndFails point | wake point =>
      rcases stamp.of_moveProducer same with old | new
      · exact Or.inl old
      · cases new

/-- An end stamp is new only when a producer has written the message. -/
theorem LaterStamp.of_producerMove {producerId : Fin producers}
    (move : ProducerMove callbacks config state producerId next)
    {id : Nat} {nsec : Int} (stamp : LaterStamp next id nsec) :
    LaterStamp state id nsec ∨ (nsec = state.clock ∧
      ∃ round i nanoTimeWriteBeg, state.producer producerId =
        .written round i id nanoTimeWriteBeg) := by
  have same : ∀ action record, state.handle.Holds action id record →
      action ≠ actionWriteBegin → LaterStamp state id record.nsec :=
    fun _ _ holds later => .stored holds later rfl
  cases move with
  | readEnd point =>
      rcases stamp.of_moveProducer same with old | new
      · exact Or.inl old
      · obtain ⟨rfl, rfl⟩ := Prod.mk.inj (Option.some.inj new)
        exact Or.inr ⟨rfl, _, _, _, point⟩
  | @storeBegin round i msg nanoTimeWriteBeg nanoTimeWriteEnd handle point
      stored =>
      have old : ∀ action record, handle.Holds action id record →
          action ≠ actionWriteBegin → LaterStamp state id record.nsec := by
        intro action record holds later
        rcases LatencyBenchmarkHandle.holds_of_storeRecord stored holds with
          earlier | ⟨begin, _, _⟩
        · exact .stored earlier later rfl
        · exact absurd begin later
      rcases stamp.of_moveProducer old with old | new
      · exact Or.inl old
      · exact Or.inl (.endInHand (by rw [point]; exact new))
  | @storeEnd round i msg nanoTimeWriteEnd handle point stored =>
      have old : ∀ action record, handle.Holds action id record →
          action ≠ actionWriteBegin → LaterStamp state id record.nsec := by
        intro action record holds later
        rcases LatencyBenchmarkHandle.holds_of_storeRecord stored holds with
          earlier | ⟨_, rfl, rfl⟩
        · exact .stored earlier later rfl
        · exact .endInHand (by rw [point]; rfl)
      rcases stamp.of_moveProducer old with old | new
      · exact Or.inl old
      · cases new
  | fetch point | fetchOutside point | pause point | nextRound point
  | finish point | write point | storeBeginFails point
  | storeEndFails point | wake point =>
      rcases stamp.of_moveProducer same with old | new
      · exact Or.inl old
      · cases new

/-- Begin stamps are with the producers and in the records. -/
theorem BeginStamp.of_same {id : Nat} {nsec : Int}
    (stamp : BeginStamp next id nsec)
    (producer : next.producer = state.producer)
    (old : ∀ record, next.handle.Holds actionWriteBegin id record →
      state.handle.Holds actionWriteBegin id record) :
    BeginStamp state id nsec := by
  cases stamp with
  | inHand inHand => exact .inHand (producer ▸ inHand)
  | stored holds same => exact .stored (old _ holds) same

/-- A consumer moves: its own reading aside, later stamps stay. -/
theorem LaterStamp.of_updateConsumer {consumerId : Fin consumers}
    {consumer : Consumer} {handle : LatencyBenchmarkHandle}
    {channel : Channel} {id : Nat} {nsec : Int}
    (stamp : LaterStamp { state with
      handle := handle, channel := channel
      consumer := Function.update state.consumer consumerId consumer }
        id nsec)
    (old : ∀ action record, handle.Holds action id record →
      action ≠ actionWriteBegin → LaterStamp state id record.nsec) :
    LaterStamp state id nsec ∨
      consumer.point.readStamp = some (↑id, nsec) := by
  cases stamp with
  | endInHand inHand => exact Or.inl (.endInHand inHand)
  | @readInHand other inHand =>
      dsimp only at inHand
      by_cases same : other = consumerId
      · subst same
        rw [Function.update_self] at inHand
        exact Or.inr inHand
      · rw [Function.update_of_ne same] at inHand
        exact Or.inl (.readInHand inHand)
  | @stored action record holds later same =>
      subst same
      exact Or.inl (old action record holds later)

/-- Consumers make no begin stamps. -/
theorem BeginStamp.of_consumerMove {consumerId : Fin consumers}
    (move : ConsumerMove callbacks state consumerId next)
    {id : Nat} {nsec : Int} (stamp : BeginStamp next id nsec) :
    BeginStamp state id nsec := by
  cases move with
  | store point stored =>
      refine stamp.of_same rfl fun record holds => ?_
      rcases LatencyBenchmarkHandle.holds_of_storeRecord stored holds with
        earlier | ⟨different, _, _⟩
      · exact earlier
      · cases different
  | read point | stop point | stamp point | storeFails point =>
      exact stamp.of_same rfl fun _ holds => holds

/-- A read stamp is new only when a consumer has taken the message. -/
theorem LaterStamp.of_consumerMove {consumerId : Fin consumers}
    (move : ConsumerMove callbacks state consumerId next)
    {id : Nat} {nsec : Int} (stamp : LaterStamp next id nsec) :
    LaterStamp state id nsec ∨ (nsec = state.clock ∧
      (state.consumer consumerId).point = .received id) := by
  have same : ∀ action record, state.handle.Holds action id record →
      action ≠ actionWriteBegin → LaterStamp state id record.nsec :=
    fun _ _ holds later => .stored holds later rfl
  cases move with
  | stamp point normal =>
      rcases stamp.of_updateConsumer same with old | new
      · exact Or.inl old
      · obtain ⟨rfl, rfl⟩ := Prod.mk.inj (Option.some.inj new)
        exact Or.inr ⟨rfl, point⟩
  | @store msg nanoTime handle point stored =>
      have old : ∀ action record, handle.Holds action id record →
          action ≠ actionWriteBegin → LaterStamp state id record.nsec := by
        intro action record holds later
        rcases LatencyBenchmarkHandle.holds_of_storeRecord stored holds with
          earlier | ⟨_, rfl, rfl⟩
        · exact .stored earlier later rfl
        · exact .readInHand (by rw [point]; rfl)
      rcases stamp.of_updateConsumer old with old | new
      · exact Or.inl old
      · cases new
  | read point | stop point | storeFails point =>
      rcases stamp.of_updateConsumer same with old | new
      · exact Or.inl old
      · cases new

/-- `run` makes no begin stamps. -/
theorem BeginStamp.of_mainMove (move : MainMove callbacks state next)
    {id : Nat} {nsec : Int} (stamp : BeginStamp next id nsec) :
    BeginStamp state id nsec := by
  cases move with
  | @startProducer i point inside =>
      have started : BeginStamp (state.moveProducer ⟨i, inside⟩ (.round 0 0))
          id nsec := stamp.of_same rfl fun _ holds => holds
      rcases started.of_moveProducer fun _ holds => .stored holds rfl with
        old | new
      · exact old
      · cases new
  | startConsumer point inside | startedConsumers point done
  | wake point | startedProducers point done
  | joinProducer point inside terminated | joinedProducers point done
  | complete point callback inside done | completed point done
  | joinConsumer point inside terminated | joinedConsumers point done =>
      exact stamp.of_same rfl fun _ holds => holds

/-- Later stamps are with the threads and in the records. -/
theorem LaterStamp.of_same {id : Nat} {nsec : Int}
    (stamp : LaterStamp next id nsec)
    (producer : next.producer = state.producer)
    (consumer : next.consumer = state.consumer)
    (handle : next.handle = state.handle) : LaterStamp state id nsec := by
  cases stamp with
  | endInHand inHand => exact .endInHand (producer ▸ inHand)
  | readInHand inHand => exact .readInHand (consumer ▸ inHand)
  | stored holds later same => exact .stored (handle ▸ holds) later same

/-- `run` makes no later stamps. -/
theorem LaterStamp.of_mainMove (move : MainMove callbacks state next)
    {id : Nat} {nsec : Int} (stamp : LaterStamp next id nsec) :
    LaterStamp state id nsec := by
  have same : ∀ action record, state.handle.Holds action id record →
      action ≠ actionWriteBegin → LaterStamp state id record.nsec :=
    fun _ _ holds later => .stored holds later rfl
  cases move with
  | @startProducer i point inside =>
      have started : LaterStamp (state.moveProducer ⟨i, inside⟩ (.round 0 0))
          id nsec := stamp.of_same rfl rfl rfl
      rcases started.of_moveProducer same with old | new
      · exact old
      · cases new
  | @startConsumer i point inside =>
      have started : LaterStamp (state.moveConsumer ⟨i, inside⟩ .read)
          id nsec := stamp.of_same rfl rfl rfl
      rcases started.of_updateConsumer same with old | new
      · exact old
      · cases new
  | startedConsumers point done
  | wake point | startedProducers point done
  | joinProducer point inside terminated | joinedProducers point done
  | complete point callback inside done | completed point done
  | joinConsumer point inside terminated | joinedConsumers point done =>
      exact stamp.of_same rfl rfl rfl

/-- Producers leave the seconds of their records at zero. -/
theorem ProducerMove.sec_eq_zero {producerId : Fin producers}
    (move : ProducerMove callbacks config state producerId next)
    {action : Int} {id : Nat} {record : LatencyBenchmarkRecord}
    (holds : next.handle.Holds action id record) :
    state.handle.Holds action id record ∨ record.sec = 0 := by
  cases move with
  | storeBegin point stored | storeEnd point stored =>
      rcases LatencyBenchmarkHandle.holds_of_storeRecord stored holds with
        earlier | ⟨_, _, rfl⟩
      · exact Or.inl earlier
      · exact Or.inr rfl
  | fetch point | fetchOutside point | pause point | nextRound point
  | finish point | write point | readEnd point | storeBeginFails point
  | storeEndFails point | wake point => exact Or.inl holds

/-- Consumers leave the seconds of their records at zero. -/
theorem ConsumerMove.sec_eq_zero {consumerId : Fin consumers}
    (move : ConsumerMove callbacks state consumerId next)
    {action : Int} {id : Nat} {record : LatencyBenchmarkRecord}
    (holds : next.handle.Holds action id record) :
    state.handle.Holds action id record ∨ record.sec = 0 := by
  cases move with
  | store point stored =>
      rcases LatencyBenchmarkHandle.holds_of_storeRecord stored holds with
        earlier | ⟨_, _, rfl⟩
      · exact Or.inl earlier
      · exact Or.inr rfl
  | read point | stop point | stamp point | storeFails point =>
      exact Or.inl holds

/-- A producer never takes back a message. -/
theorem ProducerMove.issued_le (admissible : Admissible config)
    {state next : State Channel config.producer.toNat consumers}
    {producerId : Fin config.producer.toNat}
    (allocated :
      state.handle.Allocated recordedActions (messageCount config))
    (valid : (state.producer producerId).Valid config producerId)
    (move : ProducerMove callbacks config state producerId next)
    (other : Fin config.producer.toNat) :
    (state.producer other).issued config ≤
      (next.producer other).issued config := by
  obtain ⟨point, _, effect⟩ := move.effect admissible allocated valid
  have grows : (state.producer producerId).issued config ≤
      point.issued config → (state.producer other).issued config ≤
        (Function.update state.producer producerId point other).issued
          config := by
    intro own
    by_cases same : other = producerId
    · subst same
      rwa [Function.update_self]
    · rw [Function.update_of_ne same]
  cases effect with
  | silent issued | store _ _ issued => exact grows (by omega)
  | write _ _ issued => exact grows (by omega)

end ThreadTrans

namespace ArrayBlockingQueue

open ThreadTrans

variable {config : LatencyBenchmarkConfig} {state next : State config}

/-- The step calls `System.nanoTime()`. -/
def ReadsClock (config : LatencyBenchmarkConfig) (state : State config) :
    Actor config.producer.toNat config.consumer.toNat → Prop
  | .producer producerId =>
      match state.producer producerId with
      | .round round i =>
          round < config.totalRounds ∧ i < config.recordPerRound
      | .written _ _ _ _ => True
      | _ => False
  | .consumer consumerId =>
      match (state.consumer consumerId).point with
      | .received msg => msg ≠ poison
      | _ => False
  | .main | .interrupt _ => False

/-- Fewer than `2 ^ 63` nanoseconds from a start. -/
def Within (lower nsec : Int) : Prop :=
  lower ≤ nsec ∧ nsec < lower + 2 ^ 63

/-- The step reads the clock within the span, if it reads it. -/
def ReadingsWithin (config : LatencyBenchmarkConfig) (lower : Int)
    (state : State config)
    (action : Action config.producer.toNat config.consumer.toNat) : Prop :=
  ReadsClock config state action.actor → Within lower action.time

/-- A producer has put the message into the queue. -/
def Issued (state : State config) (id : Nat) : Prop :=
  ∃ producerId : Fin config.producer.toNat,
    ∃ j < (state.producer producerId).issued config,
      id = producerId * perProducer config + j

/-- Stamps lie in the past and in the span, those after a message was written
belong to written messages, and none precedes a begin stamp. -/
structure Causal (lower : Int) (state : State config) : Prop where
  past : ∀ {id nsec}, BeginStamp state id nsec → nsec ≤ state.clock
  causal : ∀ {id beg later}, BeginStamp state id beg →
    LaterStamp state id later → beg ≤ later
  issued : ∀ {id later}, LaterStamp state id later → Issued state id
  begin_within : ∀ {id nsec}, BeginStamp state id nsec → Within lower nsec
  later_within : ∀ {id nsec}, LaterStamp state id nsec → Within lower nsec
  seconds : ∀ {action id record}, state.handle.Holds action id record →
    record.sec = 0

variable {lower : Int}

theorem Causal.atTime (causal : Causal lower state) {time : Int}
    (later : state.clock ≤ time) :
    Causal lower { state with clock := time } where
  past := fun stamp => le_trans
    (causal.past (stamp.of_same rfl fun _ holds => holds)) later
  causal := fun begin other => causal.causal
    (begin.of_same rfl fun _ holds => holds) (other.of_same rfl rfl rfl)
  issued := fun stamp => causal.issued (stamp.of_same rfl rfl rfl)
  begin_within := fun stamp =>
    causal.begin_within (stamp.of_same rfl fun _ holds => holds)
  later_within := fun stamp => causal.later_within (stamp.of_same rfl rfl rfl)
  seconds := causal.seconds

/-- A message that its producer is about to fetch was not issued. -/
theorem not_issued_of_fetch (admissible : Admissible config)
    (valid : ∀ producerId : Fin config.producer.toNat,
      (state.producer producerId).Valid config producerId)
    {producerId : Fin config.producer.toNat} {round i id : Nat}
    (point : state.producer producerId = .round round i)
    (inRounds : round < config.totalRounds)
    (inRecords : i < config.recordPerRound)
    (own : (id : Int) = messageId config producerId round i) :
    ¬Issued state id := by
  rintro ⟨other, j, before, rfl⟩
  have rounds : round < config.totalRounds.toNat := by omega
  have records : i < config.recordPerRound.toNat := by omega
  rw [admissible.messageId_eq producerId.isLt rounds records,
    Nat.cast_inj] at own
  obtain ⟨sameProducer, sameIndex⟩ := digits_unique
    (lt_of_lt_of_le before (valid other).issued_le)
    (index_lt_perProducer rounds records) own
  obtain rfl := Fin.ext sameProducer
  rw [point] at before
  change j < position config round i at before
  unfold position at before
  omega

/-- Every move of a producer keeps the order of the stamps. -/
theorem Causal.producerMove (causal : Causal lower state)
    (delivery : Delivery state) (admissible : Admissible config)
    {producerId : Fin config.producer.toNat}
    (reads : ReadsClock config state (.producer producerId) →
      Within lower state.clock)
    (move : ProducerMove (callbacks config.capacity.toNat) config state
      producerId next) :
    Causal lower next := by
  have clock : next.clock = state.clock := by
    obtain ⟨point, handle, channel, rfl, _⟩ := move.frame
    rfl
  have issuedLe := move.issued_le admissible delivery.allocated
    (delivery.producer_valid producerId)
  have kept : ∀ {id}, Issued state id → Issued next id := by
    rintro id ⟨other, j, before, own⟩
    exact ⟨other, j, lt_of_lt_of_le before (issuedLe other), own⟩
  have written : ∀ {id : Nat} {round i nanoTimeWriteBeg},
      state.producer producerId = .written round i id nanoTimeWriteBeg →
        Issued state id := by
    intro id round i nanoTimeWriteBeg point
    have valid := delivery.producer_valid producerId
    rw [point] at valid
    obtain ⟨_, _, own⟩ := valid
    refine ⟨producerId, position config round i, ?_, Nat.cast_inj.mp own⟩
    rw [point]
    exact Nat.lt_succ_self _
  refine ⟨?_, ?_, ?_, ?_, ?_, ?_⟩
  · intro id nsec stamp
    rw [clock]
    rcases stamp.of_producerMove move with old | ⟨rfl, _⟩
    · exact causal.past old
    · exact le_refl _
  · intro id beg later begin other
    rcases begin.of_producerMove move with oldBegin |
      ⟨_, round, i, point, inRounds, inRecords, own⟩
    · rcases other.of_producerMove move with old | ⟨rfl, _⟩
      · exact causal.causal oldBegin old
      · exact causal.past oldBegin
    -- A message that is fetched only now has no later stamp.
    · have fresh := not_issued_of_fetch admissible delivery.producer_valid
        point inRounds inRecords own
      rcases other.of_producerMove move with old |
        ⟨_, _, _, _, writtenPoint⟩
      · exact absurd (causal.issued old) fresh
      · cases point.symm.trans writtenPoint
  · intro id later stamp
    rcases stamp.of_producerMove move with old | ⟨_, _, _, _, point⟩
    · exact kept (causal.issued old)
    · exact kept (written point)
  · intro id nsec stamp
    rcases stamp.of_producerMove move with old |
      ⟨rfl, round, i, point, inRounds, inRecords, _⟩
    · exact causal.begin_within old
    · apply reads
      simp only [ReadsClock, point]
      exact ⟨inRounds, inRecords⟩
  · intro id nsec stamp
    rcases stamp.of_producerMove move with old | ⟨rfl, _, _, _, point⟩
    · exact causal.later_within old
    · apply reads
      simp only [ReadsClock, point]
  · intro action id record holds
    rcases move.sec_eq_zero holds with old | zero
    · exact causal.seconds old
    · exact zero

/-- A message in a consumer's hand was issued. -/
theorem Delivery.issued_of_taken (delivery : Delivery state)
    {consumerId : Fin config.consumer.toNat} {id : Nat}
    (taken : (id : Int) ∈ (state.consumer consumerId).taken) :
    Issued state id := by
  have total : (id : Int) ∈
      (∑ consumerId, ((state.consumer consumerId).taken : Multiset Int)) +
        state.channel.items :=
    Multiset.mem_add.mpr (Or.inl (Multiset.mem_sum.mpr
      ⟨consumerId, Finset.mem_univ _, taken⟩))
  rw [delivery.conserved, Multiset.mem_add, Multiset.mem_sum] at total
  rcases total with ⟨producerId, _, issued⟩ | poisoned
  · obtain ⟨j, before, own⟩ := mem_issuedMessages.mp issued
    exact ⟨producerId, j, before, (Nat.cast_inj.mp own).symm⟩
  · have same := Multiset.eq_of_mem_replicate poisoned
    unfold poison at same
    omega

/-- Every move of a consumer keeps the order of the stamps. -/
theorem Causal.consumerMove (causal : Causal lower state)
    (delivery : Delivery state) {consumerId : Fin config.consumer.toNat}
    (reads : ReadsClock config state (.consumer consumerId) →
      Within lower state.clock)
    (move : ConsumerMove (callbacks config.capacity.toNat) state consumerId
      next) :
    Causal lower next := by
  obtain ⟨consumer, handle, channel, same, _⟩ := move.frame
  have clock : next.clock = state.clock := by
    rw [same]
  have kept : ∀ {id}, Issued state id → Issued next id := by
    intro id issued
    rw [same]
    exact issued
  have received : ∀ {id : Nat},
      (state.consumer consumerId).point = .received id →
        Issued state id := by
    intro id point
    have valid := delivery.consumer_valid consumerId
    simp only [ConsumerValid, point] at valid
    obtain ⟨earlier, taken, _⟩ := valid
    exact delivery.issued_of_taken (taken ▸ List.mem_cons_self)
  refine ⟨?_, ?_, ?_, ?_, ?_, ?_⟩
  · intro id nsec stamp
    rw [clock]
    exact causal.past (stamp.of_consumerMove move)
  · intro id beg later begin other
    have oldBegin := begin.of_consumerMove move
    rcases other.of_consumerMove move with old | ⟨rfl, _⟩
    · exact causal.causal oldBegin old
    · exact causal.past oldBegin
  · intro id later stamp
    rcases stamp.of_consumerMove move with old | ⟨_, point⟩
    · exact kept (causal.issued old)
    · exact kept (received point)
  · intro id nsec stamp
    exact causal.begin_within (stamp.of_consumerMove move)
  · intro id nsec stamp
    rcases stamp.of_consumerMove move with old | ⟨rfl, point⟩
    · exact causal.later_within old
    · apply reads
      simp only [ReadsClock, point]
      unfold poison
      omega
  · intro action id record holds
    rcases move.sec_eq_zero holds with old | zero
    · exact causal.seconds old
    · exact zero

/-- Every move of `run` keeps the order of the stamps. -/
theorem Causal.mainMove (causal : Causal lower state)
    (phases : PhaseInvariant state)
    (move : MainMove (callbacks config.capacity.toNat) state next) :
    Causal lower next := by
  have frame : next.clock = state.clock ∧ next.handle = state.handle ∧
      ∀ producerId, (state.producer producerId).issued config ≤
        (next.producer producerId).issued config := by
    cases move with
    | @startProducer i point inside =>
        have created : state.producer ⟨i, inside⟩ = .created := by
          rw [phases.producer_created, point]
          exact Nat.lt_irrefl i
        refine ⟨rfl, rfl, fun other => ?_⟩
        by_cases same : other = ⟨i, inside⟩
        · subst same
          rw [created]
          exact Nat.zero_le _
        · dsimp only [State.moveProducer]
          rw [Function.update_of_ne same]
    | startConsumer point inside | startedConsumers point done
    | wake point | startedProducers point done
    | joinProducer point inside terminated | joinedProducers point done
    | complete point callback inside done | completed point done
    | joinConsumer point inside terminated | joinedConsumers point done =>
        exact ⟨rfl, rfl, fun _ => le_refl _⟩
  obtain ⟨clock, handle, issuedLe⟩ := frame
  refine ⟨?_, ?_, ?_, ?_, ?_, ?_⟩
  · intro id nsec stamp
    rw [clock]
    exact causal.past (stamp.of_mainMove move)
  · intro id beg later begin other
    exact causal.causal (begin.of_mainMove move) (other.of_mainMove move)
  · intro id later stamp
    obtain ⟨producerId, j, before, own⟩ :=
      causal.issued (stamp.of_mainMove move)
    exact ⟨producerId, j, lt_of_lt_of_le before (issuedLe producerId), own⟩
  · intro id nsec stamp
    exact causal.begin_within (stamp.of_mainMove move)
  · intro id nsec stamp
    exact causal.later_within (stamp.of_mainMove move)
  · intro action id record holds
    rw [handle] at holds
    exact causal.seconds holds

/-- Every step whose reading lies in the span keeps the order of the
stamps. -/
theorem Causal.step (causal : Causal lower state)
    (phases : PhaseInvariant state) (delivery : Delivery state)
    (admissible : Admissible config)
    {action : Action config.producer.toNat config.consumer.toNat}
    (within : ReadingsWithin config lower state action)
    (taken : (system config).step state action = some next) :
    Causal lower next := by
  obtain ⟨later, move⟩ := step_cases_actor taken
  have atTime := causal.atTime later
  unfold ReadingsWithin at within
  cases actor : action.actor with
  | main =>
      rw [actor] at move
      exact atTime.mainMove (phases.atTime action.time) move
  | producer producerId =>
      rw [actor] at move within
      exact atTime.producerMove (delivery.atTime action.time) admissible
        within move
  | consumer consumerId =>
      rw [actor] at move within
      exact atTime.consumerMove (delivery.atTime action.time) within move
  | interrupt consumerId =>
      rw [actor] at move
      exact move ▸ atTime

/-- The constructor stores no record. -/
theorem not_holds_newHandle {handle : LatencyBenchmarkHandle}
    (constructed : newHandle config = .ok handle) {action : Int} {id : Nat}
    {record : LatencyBenchmarkRecord} : ¬handle.Holds action id record := by
  obtain ⟨begins, first, rest⟩ :=
    ExceptTraversal.exists_of_bind_eq_ok constructed
  obtain ⟨ends, second, third⟩ := ExceptTraversal.exists_of_bind_eq_ok rest
  intro holds
  exact LatencyBenchmarkHandle.not_holds_new (recordCount config)
    (LatencyBenchmarkHandle.holds_of_addAction first
      (LatencyBenchmarkHandle.holds_of_addAction second
        (LatencyBenchmarkHandle.holds_of_addAction third holds)))

theorem causal_start (lower : Int) {handle : LatencyBenchmarkHandle}
    (constructed : newHandle config = .ok handle) (clock : Int) :
    Causal lower (start _ _ handle BoundedQueue.empty clock :
      State config) := by
  have noBegin : ∀ {id nsec}, ¬BeginStamp (start _ _ handle
      BoundedQueue.empty clock : State config) id nsec := by
    rintro id nsec (inHand | ⟨holds, _⟩)
    · cases inHand
    · exact not_holds_newHandle constructed holds
  have noLater : ∀ {id nsec}, ¬LaterStamp (start _ _ handle
      BoundedQueue.empty clock : State config) id nsec := by
    rintro id nsec (inHand | inHand | ⟨holds, _, _⟩)
    · cases inHand
    · cases inHand
    · exact not_holds_newHandle constructed holds
  exact ⟨fun stamp => absurd stamp noBegin, fun begin => absurd begin noBegin,
    fun stamp => absurd stamp noLater, fun stamp => absurd stamp noBegin,
    fun stamp => absurd stamp noLater,
    fun holds => absurd holds (not_holds_newHandle constructed)⟩

/-- In every state of a run whose readings lie in the span, the stamps are in
order. -/
theorem causal_of_reachable (admissible : Admissible config)
    (reachable : (system config).ReachableUnder
      (ReadingsWithin config lower) state) :
    Causal lower state := by
  apply reachable.invariant
  · rintro initial ⟨handle, clock, constructed, rfl⟩
    exact causal_start lower constructed clock
  · rintro before action after reached within taken causal
    obtain ⟨phases, delivery⟩ :=
      invariant_of_reachable admissible reached.reachable
    exact causal.step phases delivery admissible within taken

/-! ## The report of a finished run -/

/-- A stored begin record precedes the other stored records of its
message. -/
theorem Causal.ordered (causal : Causal lower state) {action : Int}
    (later : action ≠ actionWriteBegin) {id : Nat}
    {beg end_ : LatencyBenchmarkRecord}
    (begHolds : state.handle.Holds actionWriteBegin id beg)
    (endHolds : state.handle.Holds action id end_) :
    beg.nsec ≤ end_.nsec ∧ end_.nsec < beg.nsec + 2 ^ 63 := by
  have begin : BeginStamp state id beg.nsec := .stored begHolds rfl
  have other : LaterStamp state id end_.nsec := .stored endHolds later rfl
  have begWithin := causal.begin_within begin
  have endWithin := causal.later_within other
  unfold Within at begWithin endWithin
  exact ⟨causal.causal begin other, by omega⟩

/-- No elapsed value between a begin record and another record of its message
is negative. -/
theorem Causal.shownElapsed_nonneg (causal : Causal lower state)
    {action : Int} (later : action ≠ actionWriteBegin) {id : Nat}
    {beg end_ : LatencyBenchmarkRecord}
    (begHolds : state.handle.Holds actionWriteBegin id beg)
    (endHolds : state.handle.Holds action id end_) :
    0 ≤ LatencyBenchmarkHandle.shownElapsed beg end_ := by
  obtain ⟨ordered, near⟩ := causal.ordered later begHolds endHolds
  exact LatencyBenchmarkHandle.shownElapsed_nonneg
    (causal.seconds begHolds) (causal.seconds endHolds) ordered near

theorem Causal.elapsedTime_nonneg (causal : Causal lower state)
    {action : Int} (later : action ≠ actionWriteBegin) {id : Nat}
    {beg end_ : LatencyBenchmarkRecord}
    (begHolds : state.handle.Holds actionWriteBegin id beg)
    (endHolds : state.handle.Holds action id end_) :
    0 ≤ LatencyBenchmarkHandle.elapsedTime beg end_ := by
  obtain ⟨ordered, near⟩ := causal.ordered later begHolds endHolds
  rw [LatencyBenchmarkHandle.elapsedTime_eq (causal.seconds begHolds)
    (causal.seconds endHolds) ordered near]
  omega

/-- The measuring loop over a begin array and another array computes no
negative value. -/
theorem Causal.measure_nonneg (causal : Causal lower state) {action : Int}
    (later : action ≠ actionWriteBegin) {count : Nat}
    {begs ends : List LatencyBenchmarkRecord}
    (begArray : state.handle.getActionTimestampRecords actionWriteBegin =
      some (begs.map some))
    (endArray : state.handle.getActionTimestampRecords action =
      some (ends.map some))
    (begLength : begs.length = count) (endLength : ends.length = count) :
    ∃ elapsed sum, LatencyBenchmarkHandle.measure (begs.map some)
        (ends.map some) 0 = .ok (elapsed, sum) ∧
      elapsed.length = count ∧ ∀ value ∈ elapsed, 0 ≤ value := by
  obtain ⟨sum, measured⟩ := LatencyBenchmarkHandle.measure_map_some begs ends
    (begLength.trans endLength.symm) 0
  refine ⟨_, sum, measured, ?_, ?_⟩
  · rw [List.length_zipWith, begLength, endLength, Nat.min_self]
  · intro value mem
    obtain ⟨id, inside, rfl⟩ := List.mem_iff_getElem.mp mem
    rw [List.length_zipWith, begLength, endLength, Nat.min_self] at inside
    rw [List.getElem_zipWith]
    have begHolds : state.handle.Holds actionWriteBegin id
        (begs.get ⟨id, begLength.symm ▸ inside⟩) := by
      refine ⟨_, begArray, ?_⟩
      rw [List.getElem?_map, List.getElem?_eq_getElem]
      rfl
    have endHolds : state.handle.Holds action id
        (ends.get ⟨id, endLength.symm ▸ inside⟩) := by
      refine ⟨_, endArray, ?_⟩
      rw [List.getElem?_map, List.getElem?_eq_getElem]
      rfl
    exact causal.shownElapsed_nonneg later begHolds endHolds

/-- In a finished run whose clock readings span less than `2 ^ 63`
nanoseconds, the begin record of every message is no later than its end
record and its read record, and no elapsed value of the report is
negative. -/
theorem causalTimestamps_of_returned (admissible : Admissible config)
    (reachable : (system config).ReachableUnder
      (ReadingsWithin config lower) state)
    {total : Int} (returned : state.main = .returned total) :
    (∀ id < messageCount config, ∃ beg end_ read,
      state.handle.Holds actionWriteBegin id beg ∧
      state.handle.Holds actionWriteEnd id end_ ∧
      state.handle.Holds actionRead id read ∧
      beg.nsec ≤ end_.nsec ∧ beg.nsec ≤ read.nsec) ∧
    ∀ latencyPair ∈ [(actionWriteBegin, actionWriteEnd),
        (actionWriteBegin, actionRead)],
      (∀ id beg end_, state.handle.Holds latencyPair.1 id beg →
        state.handle.Holds latencyPair.2 id end_ →
          ¬LatencyBenchmarkHandle.IsMissing end_ →
            0 ≤ LatencyBenchmarkHandle.elapsedTime beg end_) ∧
      ∃ begRecords endRecords elapsed sum,
        state.handle.getActionTimestampRecords latencyPair.1 =
          some begRecords ∧
        state.handle.getActionTimestampRecords latencyPair.2 =
          some endRecords ∧
        LatencyBenchmarkHandle.measure begRecords endRecords 0 =
          .ok (elapsed, sum) ∧
        elapsed.length = messageCount config ∧
          ∀ value ∈ elapsed, 0 ≤ value := by
  have causal := causal_of_reachable admissible reachable
  obtain ⟨phases, delivery⟩ :=
    invariant_of_reachable admissible reachable.reachable
  obtain ⟨producersEnded, consumersTerminated⟩ :=
    delivery.all_ended phases returned
  have recorded := delivery.recorded producersEnded
    (fun consumerId => (delivery.consumer_ended
      (consumersTerminated consumerId)).1)
    (delivery.items_eq_nil phases admissible consumersTerminated)
  constructor
  · intro id inside
    obtain ⟨beg, begHolds⟩ :=
      (recorded actionWriteBegin (by decide) id inside).holdsRecord
    obtain ⟨end_, endHolds⟩ :=
      (recorded actionWriteEnd (by decide) id inside).holdsRecord
    obtain ⟨read, readHolds⟩ :=
      (recorded actionRead (by decide) id inside).holdsRecord
    exact ⟨beg, end_, read, begHolds, endHolds, readHolds,
      (causal.ordered (by decide) begHolds endHolds).1,
      (causal.ordered (by decide) begHolds readHolds).1⟩
  · intro latencyPair mem
    have pair : latencyPair.1 = actionWriteBegin ∧
        latencyPair.2 ≠ actionWriteBegin ∧
          latencyPair.2 ∈ recordedActions := by
      simp only [List.mem_cons, List.not_mem_nil, or_false] at mem
      rcases mem with rfl | rfl <;> decide
    obtain ⟨first, later, known⟩ := pair
    rw [first]
    refine ⟨fun id beg end_ begHolds endHolds _ =>
      causal.elapsedTime_nonneg later begHolds endHolds, ?_⟩
    obtain ⟨begs, begArray, begLength⟩ := delivery.allocated.exists_records
      actionWriteBegin_mem
      (recorded _ (by decide))
    obtain ⟨ends, endArray, endLength⟩ :=
      delivery.allocated.exists_records known (recorded _ known)
    obtain ⟨elapsed, sum, measured, length, nonneg⟩ :=
      causal.measure_nonneg later begArray endArray begLength endLength
    exact ⟨_, _, elapsed, sum, begArray, endArray, measured, length, nonneg⟩

theorem exists_returned_pair :
    ∃ state, (system pairConfig).ReachableUnder
        (ReadingsWithin pairConfig 0) state ∧ state.main = .returned 4 := by
  have facts : ((system pairConfig).execute pairStart
      (pairRun 0 1 0 1)).map State.main = some (.returned 4) := rfl
  obtain ⟨last, executed, returned⟩ := Option.map_eq_some_iff.mp facts
  have times : ∀ action ∈ pairRun 0 1 0 1, Within 0 action.time := by
    unfold Within
    decide
  exact ⟨last, (TransitionSystem.ReachableUnder.of_initial
    initial_pairStart).execute
      (fun action mem _ _ => times action mem) executed, returned⟩

/-- The theorem on the run of two producers and two consumers. -/
theorem causalTimestamps_of_returned_pair :
    ∃ state, (system pairConfig).ReachableUnder
        (ReadingsWithin pairConfig 0) state ∧ state.main = .returned 4 ∧
      ∀ id < messageCount pairConfig, ∃ beg end_ read,
        state.handle.Holds actionWriteBegin id beg ∧
          state.handle.Holds actionWriteEnd id end_ ∧
            state.handle.Holds actionRead id read ∧
              beg.nsec ≤ end_.nsec ∧ beg.nsec ≤ read.nsec := by
  obtain ⟨state, reachable, returned⟩ := exists_returned_pair
  exact ⟨state, reachable, returned, (causalTimestamps_of_returned
    pairConfig_admissible reachable returned).1⟩

end ArrayBlockingQueue

end LatencyBenchmark
