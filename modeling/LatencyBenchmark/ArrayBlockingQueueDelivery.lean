import LatencyBenchmark.ArrayBlockingQueue
import LatencyBenchmark.ProducerProgress

/-!
# Delivery through the ArrayBlockingQueue

Messages are conserved: what the consumers took together with what is queued
is what the producers and the completed callback have put.  Since the queue
keeps the order and the poison messages come last, a consumer that took one
leaves no message of a producer behind.
-/

namespace LatencyBenchmark

namespace ArrayBlockingQueue

open ThreadTrans

variable {config : LatencyBenchmarkConfig}

/-- What a consumer has taken and counted fits the point it is at: poison is
the last message it takes. -/
def ConsumerValid (consumer : Consumer) : Prop :=
  match consumer.point with
  | .created => consumer.taken = [] ∧ consumer.totalRead = 0
  | .read => poison ∉ consumer.taken ∧
      consumer.totalRead = consumer.taken.length
  | .received msg => ∃ earlier, consumer.taken = msg :: earlier ∧
      poison ∉ earlier ∧ consumer.totalRead = earlier.length
  | .store msg _ => msg ≠ poison ∧
      ∃ earlier, consumer.taken = msg :: earlier ∧
        poison ∉ earlier ∧ consumer.totalRead = earlier.length
  | .ended => ∃ earlier, consumer.taken = poison :: earlier ∧
      poison ∉ earlier ∧ consumer.totalRead = earlier.length
  | .died _ => False

/-- The messages a consumer took and no longer has in hand. -/
def handled (consumer : Consumer) : List Int :=
  match consumer.point with
  | .received _ | .store _ _ => consumer.taken.tail
  | _ => consumer.taken

/-- What the benchmark keeps over all its steps. -/
structure Delivery (state : State config) : Prop where
  allocated : state.handle.Allocated recordedActions (messageCount config)
  producer_valid : ∀ producerId : Fin config.producer.toNat,
    (state.producer producerId).Valid config producerId
  begin_recorded : ∀ producerId : Fin config.producer.toNat,
    ∀ j < (state.producer producerId).beginStored config,
      state.handle.Recorded actionWriteBegin
        (producerId * perProducer config + j)
  end_recorded : ∀ producerId : Fin config.producer.toNat,
    ∀ j < (state.producer producerId).endStored config,
      state.handle.Recorded actionWriteEnd
        (producerId * perProducer config + j)
  consumer_valid : ∀ consumerId, ConsumerValid (state.consumer consumerId)
  read_recorded : ∀ consumerId, ∀ id : Nat,
    (id : Int) ∈ handled (state.consumer consumerId) →
      state.handle.Recorded actionRead id
  conserved :
    (∑ consumerId, ((state.consumer consumerId).taken : Multiset Int)) +
        state.channel.items =
      (∑ producerId : Fin config.producer.toNat,
        issuedMessages config producerId
          ((state.producer producerId).issued config)) +
        Multiset.replicate
          (state.main.completions config.consumer.toNat) poison
  poison_last : state.channel.items.Pairwise fun earlier later =>
    earlier = poison → later = poison
  drained : ∀ consumerId, poison ∈ (state.consumer consumerId).taken →
    ∀ msg ∈ state.channel.items, msg = poison

/-! ## Messages that were issued -/

theorem poison_not_mem_issuedMessages (producerId issued : Nat) :
    poison ∉ issuedMessages config producerId issued := by
  rw [mem_issuedMessages]
  rintro ⟨j, _, same⟩
  unfold poison at same
  omega

variable {state next : State config}

/-- How often a message was taken or is queued. -/
theorem Delivery.count_eq (delivery : Delivery state) (msg : Int) :
    (∑ consumerId, (state.consumer consumerId).taken.count msg) +
        state.channel.items.count msg =
      (∑ producerId : Fin config.producer.toNat,
        (issuedMessages config producerId
          ((state.producer producerId).issued config)).count msg) +
        (Multiset.replicate
          (state.main.completions config.consumer.toNat) poison).count msg := by
  have counts := congrArg (Multiset.count msg) delivery.conserved
  rw [Multiset.count_add, Multiset.count_add, Multiset.count_sum',
    Multiset.count_sum'] at counts
  simpa only [Multiset.coe_count] using counts

/-- How often poison was taken or is queued. -/
theorem Delivery.count_poison (delivery : Delivery state) :
    (∑ consumerId, (state.consumer consumerId).taken.count poison) +
        state.channel.items.count poison =
      state.main.completions config.consumer.toNat := by
  have counts := delivery.count_eq poison
  have none : ∑ producerId : Fin config.producer.toNat,
      (issuedMessages config producerId
        ((state.producer producerId).issued config)).count poison = 0 := by
    apply Finset.sum_eq_zero
    intro producerId _
    exact Multiset.count_eq_zero_of_notMem
      (poison_not_mem_issuedMessages _ _)
  rwa [none, Multiset.count_replicate_self, Nat.zero_add] at counts

/-- Before the completed callback runs there is no poison anywhere. -/
theorem Delivery.no_poison (delivery : Delivery state)
    (before : state.main.completions config.consumer.toNat = 0) :
    poison ∉ state.channel.items ∧
      ∀ consumerId, poison ∉ (state.consumer consumerId).taken := by
  have counts := delivery.count_poison
  rw [before, Nat.add_eq_zero_iff, Finset.sum_eq_zero_iff] at counts
  refine ⟨List.count_eq_zero.mp counts.2, fun consumerId => ?_⟩
  exact List.count_eq_zero.mp (counts.1 consumerId (Finset.mem_univ _))

/-- Every message taken or queued is poison or the message of a producer. -/
theorem Delivery.message_bounds (delivery : Delivery state) {msg : Int}
    (mem : msg ∈ state.channel.items ∨
      ∃ consumerId, msg ∈ (state.consumer consumerId).taken) :
    msg = poison ∨ ∃ id < messageCount config, msg = (id : Nat) := by
  have total : msg ∈
      (∑ consumerId, ((state.consumer consumerId).taken : Multiset Int)) +
        state.channel.items := by
    rw [Multiset.mem_add]
    rcases mem with queued | ⟨consumerId, taken⟩
    · exact Or.inr queued
    · exact Or.inl (Multiset.mem_sum.mpr ⟨consumerId, Finset.mem_univ _,
        taken⟩)
  rw [delivery.conserved, Multiset.mem_add, Multiset.mem_sum] at total
  rcases total with ⟨producerId, _, issued⟩ | poisoned
  · obtain ⟨j, before, rfl⟩ := mem_issuedMessages.mp issued
    have bound := (delivery.producer_valid producerId).issued_le
    exact Or.inr ⟨_, id_lt_messageCount producerId.isLt
      (lt_of_lt_of_le before bound), rfl⟩
  · exact Or.inl (Multiset.eq_of_mem_replicate poisoned)

/-- How many messages of producers were taken or are queued. -/
theorem Delivery.countP_eq (delivery : Delivery state) :
    (∑ consumerId,
        (state.consumer consumerId).taken.countP (· ≠ poison)) +
        state.channel.items.countP (· ≠ poison) =
      ∑ producerId : Fin config.producer.toNat,
        (state.producer producerId).issued config := by
  have counts := congrArg (Multiset.countPAddMonoidHom (· ≠ poison))
    delivery.conserved
  rw [map_add, map_add, map_sum, map_sum] at counts
  simp only [Multiset.coe_countPAddMonoidHom, Multiset.coe_countP] at counts
  have normal : ∀ producerId : Fin config.producer.toNat,
      (issuedMessages config producerId
        ((state.producer producerId).issued config)).countP (· ≠ poison) =
          (state.producer producerId).issued config := by
    intro producerId
    rw [Multiset.countP_eq_card.mpr, card_issuedMessages]
    intro msg mem same
    exact poison_not_mem_issuedMessages _ _ (same ▸ mem)
  have none : (Multiset.replicate (state.main.completions
      config.consumer.toNat) poison).countP (· ≠ poison) = 0 := by
    rw [Multiset.countP_eq_zero]
    intro msg mem different
    exact different (Multiset.eq_of_mem_replicate mem)
  rw [none, Nat.add_zero] at counts
  simpa only [normal] using counts

/-- A consumer never takes more messages of producers than there are. -/
theorem Delivery.countP_taken_le (delivery : Delivery state)
    (consumerId : Fin config.consumer.toNat) :
    (state.consumer consumerId).taken.countP (· ≠ poison) ≤
      messageCount config := by
  have total := delivery.countP_eq
  have own := Finset.single_le_sum
    (f := fun other => (state.consumer other).taken.countP (· ≠ poison))
    (fun _ _ => Nat.zero_le _) (Finset.mem_univ consumerId)
  have shares : ∑ producerId : Fin config.producer.toNat,
      (state.producer producerId).issued config ≤ messageCount config := by
    have bound := Finset.sum_le_card_nsmul Finset.univ
      (fun producerId : Fin config.producer.toNat =>
        (state.producer producerId).issued config) (perProducer config)
      fun producerId _ => (delivery.producer_valid producerId).issued_le
    simpa [messageCount] using bound
  omega

/-! ## Each thread keeps the delivery -/

/-- A producer moves, with or without a message for the queue. -/
theorem Delivery.moveProducer (delivery : Delivery state)
    {producerId : Fin config.producer.toNat} {point : ProducerPoint}
    {handle : LatencyBenchmarkHandle}
    {channel : BoundedQueue Int config.capacity.toNat} (messages : List Int)
    (atMostOne : messages.length ≤ 1)
    (allocated : handle.Allocated recordedActions (messageCount config))
    (kept : ∀ other id, state.handle.Recorded other id →
      handle.Recorded other id)
    (valid : point.Valid config producerId)
    (begins : ∀ j < point.beginStored config,
      handle.Recorded actionWriteBegin
        (producerId * perProducer config + j))
    (ends : ∀ j < point.endStored config,
      handle.Recorded actionWriteEnd (producerId * perProducer config + j))
    (items : channel.items = state.channel.items ++ messages)
    (issued : issuedMessages config producerId (point.issued config) =
      (messages : Multiset Int) + issuedMessages config producerId
        ((state.producer producerId).issued config))
    (early : messages = [] ∨
      state.main.completions config.consumer.toNat = 0) :
    Delivery { state.moveProducer producerId point with
      handle := handle, channel := channel } := by
  have noPoison : ∀ msg ∈ messages, poison ∉ state.channel.items ∧
      ∀ consumerId, poison ∉ (state.consumer consumerId).taken := by
    intro msg mem
    rcases early with rfl | before
    · simp at mem
    · exact delivery.no_poison before
  refine ⟨allocated, ?_, ?_, ?_, delivery.consumer_valid, ?_, ?_, ?_, ?_⟩
  · exact ThreadFamily.forall_update
      (fun (other : Fin _) (point : ProducerPoint) =>
        point.Valid config other)
      delivery.producer_valid valid
  · refine ThreadFamily.forall_update
      (fun (other : Fin _) (point : ProducerPoint) =>
        ∀ j < point.beginStored config,
          handle.Recorded actionWriteBegin (other * perProducer config + j))
      (fun other j before => ?_) begins
    exact kept _ _ (delivery.begin_recorded other j before)
  · refine ThreadFamily.forall_update
      (fun (other : Fin _) (point : ProducerPoint) =>
        ∀ j < point.endStored config,
          handle.Recorded actionWriteEnd (other * perProducer config + j))
      (fun other j before => ?_) ends
    exact kept _ _ (delivery.end_recorded other j before)
  · exact fun consumerId id mem =>
      kept _ _ (delivery.read_recorded consumerId id mem)
  · have grown := ThreadFamily.sum_update_add
      (fun (other : Fin _) (point : ProducerPoint) =>
        issuedMessages config other (point.issued config)) issued
    dsimp only [State.moveProducer] at grown ⊢
    rw [grown, items, ← Multiset.coe_add, ← add_assoc, delivery.conserved]
    abel
  · dsimp only
    rw [items, List.pairwise_append]
    refine ⟨delivery.poison_last, ?_, ?_⟩
    · match messages, atMostOne with
      | [], _ => exact List.Pairwise.nil
      | [msg], _ => exact List.pairwise_singleton _ msg
    · intro earlier queued later mem same
      exact absurd (same ▸ queued) (noPoison later mem).1
  · intro consumerId taken msg mem
    dsimp only at mem
    rw [items, List.mem_append] at mem
    rcases mem with queued | new
    · exact delivery.drained consumerId taken msg queued
    · exact absurd taken ((noPoison msg new).2 consumerId)

/-- Every move of a producer keeps the delivery. -/
theorem Delivery.producerMove (delivery : Delivery state)
    (phases : PhaseInvariant state) (admissible : Admissible config)
    {producerId : Fin config.producer.toNat}
    (move : ProducerMove (callbacks config.capacity.toNat) config state
      producerId next) :
    Delivery next := by
  have begins := delivery.begin_recorded producerId
  have ends := delivery.end_recorded producerId
  obtain ⟨point, valid, effect⟩ := move.effect admissible delivery.allocated
    (delivery.producer_valid producerId)
  cases effect with
  | silent issued beginStored endStored =>
      refine delivery.moveProducer [] (Nat.zero_le 1)
        delivery.allocated (fun _ _ recorded => recorded) valid
          (beginStored ▸ begins) (endStored ▸ ends) ?_ ?_ (Or.inl rfl)
      · rw [List.append_nil]
      · rw [issued, Multiset.coe_nil, zero_add]
  | @write channel running written issued beginStored endStored =>
      obtain ⟨_, items⟩ := BoundedQueue.put_eq_some_iff.mp written
      refine delivery.moveProducer [_] (le_refl 1) delivery.allocated
        (fun _ _ recorded => recorded) valid (beginStored ▸ begins)
          (endStored ▸ ends) items ?_
            (Or.inr (phases.completions_eq_zero running))
      rw [issued, issuedMessages_succ]
      rfl
  | @store handle allocated kept issued beginStored endStored =>
      refine delivery.moveProducer [] (Nat.zero_le 1)
        allocated kept valid ?_ ?_ ?_ ?_ (Or.inl rfl)
      · intro j before
        rcases beginStored j before with earlier | new
        · exact kept _ _ (begins j earlier)
        · exact new
      · intro j before
        rcases endStored j before with earlier | new
        · exact kept _ _ (ends j earlier)
        · exact new
      · exact (List.append_nil _).symm
      · rw [issued, Multiset.coe_nil, zero_add]

/-- A consumer moves, with or without a message from the queue. -/
theorem Delivery.updateConsumer (delivery : Delivery state)
    {consumerId : Fin config.consumer.toNat} {consumer : Consumer}
    {handle : LatencyBenchmarkHandle}
    {channel : BoundedQueue Int config.capacity.toNat}
    (allocated : handle.Allocated recordedActions (messageCount config))
    (kept : ∀ other id, state.handle.Recorded other id →
      handle.Recorded other id)
    (valid : ConsumerValid consumer)
    (recorded : ∀ id : Nat, (id : Int) ∈ handled consumer →
      handle.Recorded actionRead id)
    (messages : List Int)
    (items : state.channel.items = messages ++ channel.items)
    (taken : (consumer.taken : Multiset Int) =
      messages + (state.consumer consumerId).taken)
    (drains : poison ∈ consumer.taken →
      ∀ msg ∈ channel.items, msg = poison) :
    Delivery { state with
      handle := handle, channel := channel
      consumer :=
        Function.update state.consumer consumerId consumer } := by
  refine ⟨allocated, delivery.producer_valid, ?_, ?_, ?_, ?_, ?_, ?_, ?_⟩
  · exact fun producerId j before =>
      kept _ _ (delivery.begin_recorded producerId j before)
  · exact fun producerId j before =>
      kept _ _ (delivery.end_recorded producerId j before)
  · exact ThreadFamily.forall_update
      (fun (_ : Fin _) (consumer : Consumer) => ConsumerValid consumer)
      delivery.consumer_valid valid
  · refine ThreadFamily.forall_update
      (fun (_ : Fin _) (consumer : Consumer) =>
        ∀ id : Nat, (id : Int) ∈ handled consumer →
          handle.Recorded actionRead id) (fun other id mem => ?_) recorded
    exact kept _ _ (delivery.read_recorded other id mem)
  · have grown := ThreadFamily.sum_update_add
      (fun (_ : Fin _) (consumer : Consumer) =>
        (consumer.taken : Multiset Int)) taken
    have conserved := delivery.conserved
    dsimp only at grown conserved ⊢
    rw [grown, ← conserved, items, ← Multiset.coe_add]
    abel
  · have poisonLast := delivery.poison_last
    rw [items, List.pairwise_append] at poisonLast
    exact poisonLast.2.1
  · refine ThreadFamily.forall_update
      (fun (_ : Fin _) (consumer : Consumer) => poison ∈ consumer.taken →
        ∀ msg ∈ channel.items, msg = poison)
      (fun other otherTaken msg mem => ?_) drains
    apply delivery.drained other otherTaken msg
    rw [items]
    exact List.mem_append_right messages mem

/-- Every move of a consumer keeps the delivery. -/
theorem Delivery.consumerMove (delivery : Delivery state)
    (admissible : Admissible config)
    {consumerId : Fin config.consumer.toNat}
    (move : ConsumerMove (callbacks config.capacity.toNat) state consumerId
      next) :
    Delivery next := by
  have valid := delivery.consumer_valid consumerId
  have recorded := delivery.read_recorded consumerId
  have drained := delivery.drained consumerId
  cases move with
  | @read msg channel point received =>
      have items := BoundedQueue.take_eq_some_iff.mp received
      simp only [ConsumerValid, point] at valid
      refine delivery.updateConsumer delivery.allocated
        (fun _ _ recorded => recorded) ⟨_, rfl, valid⟩ ?_ [msg] items rfl ?_
      · intro id mem
        exact recorded id (by simpa [handled, point] using mem)
      · intro taken later mem
        have poisonLast := delivery.poison_last
        rw [items, List.pairwise_cons] at poisonLast
        rcases List.mem_cons.mp taken with same | earlier
        · exact poisonLast.1 later mem same.symm
        · exact absurd earlier valid.1
  | stop point =>
      simp only [ConsumerValid, point] at valid
      refine delivery.updateConsumer delivery.allocated
        (fun _ _ recorded => recorded) valid ?_ [] rfl
          (by rw [Multiset.coe_nil, zero_add]) drained
      obtain ⟨earlier, taken, _⟩ := valid
      intro id mem
      simp only [handled, taken, List.mem_cons] at mem
      rcases mem with same | before
      · omega
      · exact recorded id (by simpa [handled, point, taken] using before)
  | @stamp msg point normal =>
      simp only [ConsumerValid, point] at valid
      refine delivery.updateConsumer delivery.allocated
        (fun _ _ recorded => recorded) ⟨normal, valid⟩ ?_ [] rfl
          (by rw [Multiset.coe_nil, zero_add]) drained
      intro id mem
      exact recorded id (by simpa [handled, point] using mem)
  | @store msg nanoTime handle point stored =>
      simp only [ConsumerValid, point] at valid
      obtain ⟨normal, earlier, taken, noPoison, count⟩ := valid
      have few := delivery.countP_taken_le consumerId
      have small := admissible.messageCount_lt
      rcases delivery.message_bounds (Or.inr ⟨consumerId, taken ▸
        List.mem_cons_self⟩) with same | ⟨id, inside, rfl⟩
      · exact absurd same normal
      obtain ⟨filled, filledEq, allocated, isRecorded, kept⟩ :=
        delivery.allocated.storeRecord actionRead_mem inside
          ⟨actionRead, id, 0, nanoTime⟩ rfl rfl
      cases Except.ok.inj (stored.symm.trans filledEq)
      refine delivery.updateConsumer allocated kept ⟨?_, ?_⟩ ?_ [] rfl
        (by rw [Multiset.coe_nil, zero_add]) drained
      · rw [taken, List.mem_cons, not_or]
        exact ⟨normal.symm, noPoison⟩
      · have length : (state.consumer consumerId).taken.countP
            (· ≠ poison) = earlier.length + 1 := by
          rw [taken, ← List.length_cons, List.countP_eq_length]
          intro msg mem
          rcases List.mem_cons.mp mem with rfl | before
          · simpa using normal
          · simpa using fun same : msg = poison => noPoison (same ▸ before)
        dsimp only
        rw [taken, count, toInt32_eq_self (by omega) (by omega)]
        simp
      · intro other mem
        simp only [handled, taken, List.mem_cons] at mem
        rcases mem with same | before
        · rw [Nat.cast_inj.mp same]
          exact isRecorded
        · apply kept
          exact recorded other (by simpa [handled, point, taken] using before)
  | @storeFails msg nanoTime exception point failed =>
      simp only [ConsumerValid, point] at valid
      obtain ⟨normal, earlier, taken, noPoison, count⟩ := valid
      rcases delivery.message_bounds (Or.inr ⟨consumerId, taken ▸
        List.mem_cons_self⟩) with same | ⟨id, inside, rfl⟩
      · exact absurd same normal
      obtain ⟨filled, filledEq, _⟩ :=
        delivery.allocated.storeRecord actionRead_mem inside
          ⟨actionRead, id, 0, nanoTime⟩ rfl rfl
      cases failed.symm.trans filledEq

/-- `run` goes on without a message for the queue. -/
theorem Delivery.moveMain (delivery : Delivery state) {main : MainPoint}
    (completions : main.completions config.consumer.toNat =
      state.main.completions config.consumer.toNat) :
    Delivery { state with main := main } := by
  refine ⟨delivery.allocated, delivery.producer_valid,
    delivery.begin_recorded, delivery.end_recorded, delivery.consumer_valid,
    delivery.read_recorded, ?_, delivery.poison_last, delivery.drained⟩
  have conserved := delivery.conserved
  dsimp only at conserved ⊢
  rw [completions, conserved]

/-- Every move of `run` keeps the delivery. -/
theorem Delivery.mainMove (delivery : Delivery state)
    (phases : PhaseInvariant state)
    (move : MainMove (callbacks config.capacity.toNat) state next) :
    Delivery next := by
  cases move with
  | @startConsumer i point inside =>
      have created := (phases.consumer_created ⟨i, inside⟩).mpr
        (by simp [point, MainPoint.ConsumerStarted])
      have valid := delivery.consumer_valid ⟨i, inside⟩
      simp only [ConsumerValid, created] at valid
      obtain ⟨none, noneRead⟩ := valid
      have started :
          Delivery (state.moveConsumer ⟨i, inside⟩ .read) := by
        refine delivery.updateConsumer delivery.allocated
          (fun _ _ recorded => recorded) ?_ ?_ [] rfl
            (by rw [Multiset.coe_nil, zero_add]) ?_
        · simp [ConsumerValid, none, noneRead]
        · simp [handled, none]
        · simp [none]
      apply started.moveMain
      change 0 = state.main.completions _
      rw [point]
      rfl
  | @startProducer i point inside =>
      have created := (phases.producer_created ⟨i, inside⟩).mpr
        (by simp [point, MainPoint.ProducerStarted])
      have started :
          Delivery (state.moveProducer ⟨i, inside⟩ (.round 0 0)) := by
        refine delivery.moveProducer [] (Nat.zero_le 1) delivery.allocated
          (fun _ _ recorded => recorded) ProducerPoint.valid_first ?_ ?_
            (List.append_nil _).symm ?_ (Or.inl rfl)
        · simp [ProducerPoint.beginStored]
        · simp [ProducerPoint.endStored]
        · rw [created, Multiset.coe_nil, zero_add]
          simp [ProducerPoint.issued]
      apply started.moveMain
      change 0 = state.main.completions _
      rw [point]
      rfl
  | @complete i put channel point callback inside taken =>
      cases callback
      obtain ⟨_, items⟩ := BoundedQueue.put_eq_some_iff.mp taken
      refine ⟨delivery.allocated, delivery.producer_valid,
        delivery.begin_recorded, delivery.end_recorded,
        delivery.consumer_valid, delivery.read_recorded, ?_, ?_, ?_⟩
      · have conserved := delivery.conserved
        rw [point] at conserved
        dsimp only [MainPoint.completions] at conserved ⊢
        rw [items, ← Multiset.coe_add, ← add_assoc, conserved,
          Multiset.replicate_succ, ← Multiset.singleton_add]
        simp only [Multiset.coe_singleton]
        abel
      · dsimp only
        rw [items, List.pairwise_append]
        refine ⟨delivery.poison_last, List.pairwise_singleton _ _, ?_⟩
        intro _ _ later mem _
        exact List.mem_singleton.mp mem
      · intro consumerId poisoned msg mem
        dsimp only at mem
        rw [items, List.mem_append] at mem
        rcases mem with queued | new
        · exact delivery.drained consumerId poisoned msg queued
        · exact List.mem_singleton.mp new
  | @completed i point done =>
      have le := phases.completions_le
      rw [point] at le
      rcases done with none | done
      · cases none
      · apply delivery.moveMain
        rw [point]
        exact le_antisymm (Nat.le_of_not_lt done) le
  | startedConsumers point | wake point | startedProducers point
  | joinProducer point | joinedProducers point | joinConsumer point
  | joinedConsumers point =>
      exact delivery.moveMain (by rw [point]; rfl)

theorem Delivery.atTime (delivery : Delivery state) (time : Int) :
    Delivery { state with clock := time } :=
  ⟨delivery.allocated, delivery.producer_valid, delivery.begin_recorded,
    delivery.end_recorded, delivery.consumer_valid, delivery.read_recorded,
    delivery.conserved, delivery.poison_last, delivery.drained⟩

/-- Every step keeps the delivery. -/
theorem Delivery.step (delivery : Delivery state)
    (phases : PhaseInvariant state) (admissible : Admissible config)
    {action : Action config.producer.toNat config.consumer.toNat}
    (taken : (system config).step state action = some next) :
    Delivery next := by
  have now := delivery.atTime action.time
  rcases step_cases taken with move | ⟨_, move⟩ | ⟨_, move⟩ | ⟨_, _, rfl⟩
  · exact now.mainMove (phases.atTime action.time) move
  · exact now.producerMove (phases.atTime action.time) admissible move
  · exact now.consumerMove admissible move
  · exact now

theorem delivery_start (admissible : Admissible config)
    (initial : (system config).initial state) : Delivery state := by
  obtain ⟨handle, clock, constructed, rfl⟩ := initial
  refine ⟨admissible.allocated_newHandle constructed, ?_, ?_, ?_, ?_, ?_, ?_,
    List.Pairwise.nil, ?_⟩
  · exact fun _ => trivial
  · exact fun _ j before => absurd before (Nat.not_lt_zero j)
  · exact fun _ j before => absurd before (Nat.not_lt_zero j)
  · exact fun _ => ⟨rfl, rfl⟩
  · intro _ id mem
    simp [start, handled] at mem
  · simp [start, MainPoint.completions, ProducerPoint.issued, issuedMessages]
  · intro _ taken
    simp [start] at taken

/-- Phases and delivery hold in every reachable state. -/
theorem invariant_of_reachable (admissible : Admissible config)
    (reachable : (system config).Reachable state) :
    PhaseInvariant state ∧ Delivery state := by
  apply reachable.invariant
  · rintro initial ⟨handle, clock, constructed, rfl⟩
    exact ⟨phaseInvariant_start handle _ clock,
      delivery_start admissible ⟨handle, clock, constructed, rfl⟩⟩
  · rintro before action after _ taken ⟨phases, delivery⟩
    exact ⟨phases.step taken, delivery.step phases admissible taken⟩

/-! ## When `run` has returned -/

/-- Wrapping additions of counters whose sum fits an `int` are exact. -/
theorem foldl_toInt32_eq_sum {counters : List Int} {total : Int}
    (nonneg : 0 ≤ total) (each : ∀ counter ∈ counters, 0 ≤ counter)
    (fits : total + counters.sum < 2 ^ 31) :
    counters.foldl (fun total read => toInt32 (total + read)) total =
      total + counters.sum := by
  induction counters generalizing total with
  | nil => simp
  | cons counter counters induction =>
      have counterNonneg := each counter List.mem_cons_self
      have rest : ∀ other ∈ counters, 0 ≤ other := fun other mem =>
        each other (List.mem_cons_of_mem _ mem)
      have restNonneg : 0 ≤ counters.sum := List.sum_nonneg rest
      rw [List.sum_cons] at fits ⊢
      rw [List.foldl_cons, toInt32_eq_self (by omega) (by omega),
        induction (by omega) rest (by omega)]
      ring

/-- A joined producer has ended, since none dies from an exception. -/
theorem Delivery.producer_ended (delivery : Delivery state)
    {producerId : Fin config.producer.toNat}
    (terminated : (state.producer producerId).Terminated) :
    state.producer producerId = .ended :=
  (delivery.producer_valid producerId).eq_ended terminated

/-- A joined consumer has taken poison once and last. -/
theorem Delivery.consumer_ended (delivery : Delivery state)
    {consumerId : Fin config.consumer.toNat}
    (terminated : (state.consumer consumerId).point.Terminated) :
    (state.consumer consumerId).point = .ended ∧ ∃ earlier,
      (state.consumer consumerId).taken = poison :: earlier ∧
        poison ∉ earlier ∧
          (state.consumer consumerId).totalRead = earlier.length := by
  have valid := delivery.consumer_valid consumerId
  cases point : (state.consumer consumerId).point with
  | ended =>
      simp only [ConsumerValid, point] at valid
      exact ⟨rfl, valid⟩
  | died exception => simp only [ConsumerValid, point] at valid
  | _ =>
      rw [point] at terminated
      exact terminated.elim

/-- When `run` has returned it has joined every thread. -/
theorem Delivery.all_ended (delivery : Delivery state)
    (phases : PhaseInvariant state) {total : Int}
    (returned : state.main = .returned total) :
    (∀ producerId, state.producer producerId = .ended) ∧
      ∀ consumerId, (state.consumer consumerId).point.Terminated := by
  constructor
  · intro producerId
    apply delivery.producer_ended
    apply phases.producer_joined
    rw [returned]
    trivial
  · intro consumerId
    apply phases.consumer_joined
    rw [returned]
    trivial

/-- Once every consumer has ended, nothing is left in the queue. -/
theorem Delivery.items_eq_nil (delivery : Delivery state)
    (phases : PhaseInvariant state) (admissible : Admissible config)
    (ended : ∀ consumerId, (state.consumer consumerId).point.Terminated) :
    state.channel.items = [] := by
  have consumers := admissible.consumers
  have first : Fin config.consumer.toNat := ⟨0, by omega⟩
  have onlyPoison : ∀ msg ∈ state.channel.items, msg = poison := by
    obtain ⟨_, earlier, taken, _⟩ := delivery.consumer_ended (ended first)
    exact delivery.drained first (taken ▸ List.mem_cons_self)
  have each : ∀ consumerId,
      (state.consumer consumerId).taken.count poison = 1 := by
    intro consumerId
    obtain ⟨_, earlier, taken, noPoison, _⟩ :=
      delivery.consumer_ended (ended consumerId)
    rw [taken, List.count_cons_self, List.count_eq_zero.mpr noPoison]
  have counts := delivery.count_poison
  have completionsLe := phases.completions_le
  simp only [each, Finset.sum_const, Finset.card_univ, Fintype.card_fin,
    smul_eq_mul, Nat.mul_one] at counts
  rw [List.eq_nil_iff_forall_not_mem]
  intro msg mem
  have queued : 0 < state.channel.items.count poison :=
    List.count_pos_iff.mpr (onlyPoison msg mem ▸ mem)
  omega

/-- Once all threads have ended, every message was taken exactly once. -/
theorem Delivery.sum_count_eq_one (delivery : Delivery state)
    (producersEnded : ∀ producerId, state.producer producerId = .ended)
    (empty : state.channel.items = []) {id : Nat}
    (inside : id < messageCount config) :
    ∑ consumerId, (state.consumer consumerId).taken.count (id : Int) = 1 := by
  have counts := delivery.count_eq (id : Int)
  have other : (id : Int) ≠ poison := by
    unfold poison
    omega
  simp only [empty, List.count_nil, Nat.add_zero, producersEnded,
    Multiset.count_replicate, other.symm, if_false] at counts
  rw [counts]
  exact sum_count_issuedMessages inside

/-- Once all threads have ended, every slot is recorded. -/
theorem Delivery.recorded (delivery : Delivery state)
    (producersEnded : ∀ producerId, state.producer producerId = .ended)
    (consumersEnded : ∀ consumerId,
      (state.consumer consumerId).point = .ended)
    (empty : state.channel.items = []) :
    ∀ action ∈ recordedActions, ∀ id < messageCount config,
      state.handle.Recorded action id := by
  intro action mem id inside
  have once := delivery.sum_count_eq_one producersEnded empty inside
  obtain ⟨positive, owner⟩ := owner_of_lt_messageCount inside
  have begins := delivery.begin_recorded ⟨_, owner⟩ (id % perProducer config)
  have ends := delivery.end_recorded ⟨_, owner⟩ (id % perProducer config)
  rw [producersEnded, Nat.div_add_mod'] at begins ends
  simp only [recordedActions, List.mem_cons, List.not_mem_nil, or_false]
    at mem
  rcases mem with rfl | rfl | rfl
  · exact begins (Nat.mod_lt _ positive)
  · exact ends (Nat.mod_lt _ positive)
  · obtain ⟨consumerId, taken, _⟩ := ThreadFamily.exists_weight_eq_one once
    apply delivery.read_recorded consumerId
    have mem : (id : Int) ∈ (state.consumer consumerId).taken := by
      apply List.count_pos_iff.mp
      omega
    simpa [handled, consumersEnded consumerId] using mem

/-- Once all threads have ended, the counters add up to the messages. -/
theorem Delivery.sum_totalRead (delivery : Delivery state)
    (producersEnded : ∀ producerId, state.producer producerId = .ended)
    (consumersEnded : ∀ consumerId,
      (state.consumer consumerId).point.Terminated)
    (empty : state.channel.items = []) :
    ∑ consumerId, (state.consumer consumerId).totalRead =
      messageCount config := by
  have counts := delivery.countP_eq
  simp only [empty, List.countP_nil, Nat.add_zero, producersEnded] at counts
  have each : ∀ consumerId, (state.consumer consumerId).totalRead =
      ((state.consumer consumerId).taken.countP (· ≠ poison) : Nat) := by
    intro consumerId
    obtain ⟨_, earlier, taken, noPoison, count⟩ :=
      delivery.consumer_ended (consumersEnded consumerId)
    have all : earlier.countP (· ≠ poison) = earlier.length := by
      rw [List.countP_eq_length]
      intro msg mem
      simpa using fun same : msg = poison => noPoison (same ▸ mem)
    rw [count, taken, List.countP_cons_of_neg (by simp), all]
  simp only [each]
  rw [← Nat.cast_sum, counts]
  simp [messageCount, ProducerPoint.issued]

/-- **Exactly-once delivery.**  When `run` has returned, every message was
taken once by one consumer, every consumer took poison once and last, the
queue is empty, the counters add up to the number of messages, and every slot
of the three arrays holds its own record. -/
theorem exactlyOnce_of_returned (admissible : Admissible config)
    (reachable : (system config).Reachable state) {total : Int}
    (returned : state.main = .returned total) :
    (∀ id < messageCount config, ∃ consumerId,
      (state.consumer consumerId).taken.count (id : Int) = 1 ∧
        ∀ other, other ≠ consumerId →
          (id : Int) ∉ (state.consumer other).taken) ∧
    (∀ consumerId, ∃ earlier,
      (state.consumer consumerId).taken = poison :: earlier ∧
        poison ∉ earlier) ∧
    state.channel.items = [] ∧
    ∑ consumerId, (state.consumer consumerId).totalRead =
      messageCount config ∧
    total = messageCount config ∧
    ∀ action ∈ recordedActions, ∃ records,
      state.handle.getActionTimestampRecords action = some records ∧
        records.length = messageCount config ∧
          ∀ id < messageCount config, ∃ record,
            records[id]? = some (some record) ∧ record.id = id ∧
              record.action = action := by
  obtain ⟨phases, delivery⟩ := invariant_of_reachable admissible reachable
  obtain ⟨producersEnded, consumersEnded⟩ :=
    delivery.all_ended phases returned
  have empty := delivery.items_eq_nil phases admissible consumersEnded
  have counters := delivery.sum_totalRead producersEnded consumersEnded empty
  refine ⟨?_, ?_, empty, counters, ?_, ?_⟩
  · intro id inside
    obtain ⟨consumerId, once, others⟩ := ThreadFamily.exists_weight_eq_one
      (delivery.sum_count_eq_one producersEnded empty inside)
    exact ⟨consumerId, once, fun other different =>
      List.count_eq_zero.mp (others other different)⟩
  · intro consumerId
    obtain ⟨_, earlier, taken, noPoison, _⟩ :=
      delivery.consumer_ended (consumersEnded consumerId)
    exact ⟨earlier, taken, noPoison⟩
  · have few := admissible.messageCount_lt
    have sum : (List.ofFn fun consumerId =>
        (state.consumer consumerId).totalRead).sum = messageCount config := by
      rw [List.sum_ofFn, counters]
    rw [phases.total_eq total returned, totalReadMsg,
      foldl_toInt32_eq_sum (le_refl 0) ?_ (by rw [sum]; omega), sum,
      Int.zero_add]
    intro counter mem
    obtain ⟨consumerId, rfl⟩ := List.mem_ofFn.mp mem
    obtain ⟨_, earlier, _, _, count⟩ :=
      delivery.consumer_ended (consumersEnded consumerId)
    omega
  · intro action mem
    have recorded := delivery.recorded producersEnded
      (fun consumerId => (delivery.consumer_ended
        (consumersEnded consumerId)).1) empty action mem
    obtain ⟨records, present, length⟩ :=
      delivery.allocated.arrays action mem
    refine ⟨records, present, length, fun id inside => ?_⟩
    obtain ⟨same, record, samePresent, fits⟩ := recorded id inside
    cases Option.some.inj (present.symm.trans samePresent)
    exact ⟨record, fits⟩

/-- Two messages from each of two producers to two consumers. -/
def pairConfig : LatencyBenchmarkConfig :=
  { totalRounds := 1, recordPerRound := 2, capacity := 2, producer := 2,
    consumer := 2 }

/-- Its initial state. -/
def pairStart : State pairConfig :=
  start 2 2 ⟨4, [(0, "write_begin"), (1, "write_end"), (2, "read")],
    [(0, List.replicate 4 none), (1, List.replicate 4 none),
      (2, List.replicate 4 none)]⟩ BoundedQueue.empty 0

/-- A number of steps of one thread. -/
def turns (count : Nat) (actor : Actor 2 2) : List (Actor 2 2) :=
  List.replicate count actor

/-- The first messages of both producers fill the queue. -/
def pairFill (writer other : Fin 2) : List (Actor 2 2) :=
  turns 7 .main ++ turns 5 (.producer writer) ++ turns 5 (.producer other)

/-- The consumers take them in turn, then both producers write and end.  One
consumer is interrupted before the other one takes two messages, and `run`
returns after each has taken its poison. -/
def pairRest (writer other reader second : Fin 2) : List (Actor 2 2) :=
  turns 1 (.consumer reader) ++ turns 1 (.consumer second) ++
    turns 8 (.producer other) ++ turns 2 (.consumer second) ++
    turns 8 (.producer writer) ++ turns 1 (.interrupt second) ++
    turns 8 (.consumer reader) ++ turns 6 .main ++
    turns 2 (.consumer second) ++ turns 2 (.consumer reader) ++
    turns 3 .main

/-- Steps that happen a nanosecond apart. -/
def timed (actors : List (Actor 2 2)) : List (Action 2 2) :=
  actors.mapIdx fun index actor => ⟨actor, index⟩

/-- A run from the start to the return of `run`. -/
def pairRun (writer other reader second : Fin 2) : List (Action 2 2) :=
  timed (pairFill writer other ++ pairRest writer other reader second)

theorem pairConfig_admissible : Admissible pairConfig := by
  constructor <;> decide

theorem initial_pairStart : (system pairConfig).initial pairStart :=
  ⟨_, 0, rfl, rfl⟩

theorem exactlyOnce_of_returned_pair :
    ∃ state : State pairConfig, (system pairConfig).Reachable state ∧
      state.main = .returned 4 ∧
      (state.consumer (0 : Fin 2)).taken = [-1, 1, 3, 0] ∧
      (state.consumer (1 : Fin 2)).taken = [-1, 2] ∧
      (∀ id < messageCount pairConfig, ∃ consumerId,
        (state.consumer consumerId).taken.count (id : Int) = 1 ∧
          ∀ other, other ≠ consumerId →
            (id : Int) ∉ (state.consumer other).taken) ∧
      state.channel.items = [] := by
  have facts : ((system pairConfig).execute pairStart
      (pairRun 0 1 0 1)).map (fun state => (state.main,
        (state.consumer (0 : Fin 2)).taken,
        (state.consumer (1 : Fin 2)).taken)) =
      some (.returned 4, [-1, 1, 3, 0], [-1, 2]) := rfl
  obtain ⟨last, executed, values⟩ := Option.map_eq_some_iff.mp facts
  simp only [Prod.mk.injEq] at values
  obtain ⟨returned, first, second⟩ := values
  have reachable := (TransitionSystem.Reachable.of_initial
    initial_pairStart).execute executed
  have delivered :=
    exactlyOnce_of_returned pairConfig_admissible reachable returned
  exact ⟨last, reachable, returned, first, second, delivered.1,
    delivered.2.2.1⟩

end ArrayBlockingQueue

end LatencyBenchmark
