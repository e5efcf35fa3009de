import LatencyBenchmark.CausalTimestamps
import LatencyBenchmark.DisruptorReport

/-!
# What the report of the Disruptor benchmark needs

`genReport` reads what the handlers have stored so far.  Every handler goes
through the events in the order of publication, so a message has its read
record exactly when it is among the events some handler has handled.  The
report therefore completes exactly when some handler has handled all events.
-/

namespace LatencyBenchmark

namespace LatencyBenchmarkHandle

/-- Over allocated arrays the record dump fails only on a null slot. -/
theorem Allocated.eq_nullPointer_of_dump {handle : LatencyBenchmarkHandle}
    {actions : List Int} {count : Nat}
    (allocated : handle.Allocated actions count) {exception : JavaException}
    (failed : handle.genTimestampRecordsReport = .error exception) :
    exception = .nullPointer := by
  unfold genTimestampRecordsReport at failed
  cases traversed : (List.range handle.recordCount.toNat).mapM
      fun index : Nat => handle.actionTimeRecords.mapM fun entry => do
        let record ← recordAt entry.2 index
        return handle.recordLine index entry.1 record with
  | ok lines =>
      rw [traversed] at failed
      cases failed
  | error own =>
      rw [traversed] at failed
      cases failed
      obtain ⟨index, inRange, line⟩ :=
        ExceptTraversal.exists_eq_error_of_mapM traversed
      obtain ⟨entry, mem, text⟩ :=
        ExceptTraversal.exists_eq_error_of_mapM line
      have known : entry.1 ∈ actions := by
        rw [← allocated.actions_eq]
        exact List.mem_map_of_mem mem
      obtain ⟨records, present, length⟩ := allocated.arrays entry.1 known
      have own : handle.getActionTimestampRecords entry.1 = some entry.2 := by
        apply EntryMap.get_of_mem _ mem
        rw [allocated.actions_eq]
        exact allocated.actions_nodup
      cases Option.some.inj (own.symm.trans present)
      rw [allocated.recordCount_eq, Int.toNat_natCast, List.mem_range]
        at inRange
      have inside : index < entry.2.length := length ▸ inRange
      unfold recordAt at text
      rw [if_neg (by omega), Int.toNat_natCast,
        List.getElem?_eq_getElem inside] at text
      cases slot : entry.2.get ⟨index, inside⟩ with
      | none =>
          rw [List.get_eq_getElem] at slot
          rw [slot] at text
          cases text
          rfl
      | some record =>
          rw [List.get_eq_getElem] at slot
          rw [slot] at text
          cases text

end LatencyBenchmarkHandle

namespace Disruptor

open ThreadTrans (ProducerPoint ProducerMove ProducerEffect Admissible
  actionWriteBegin actionWriteEnd actionRead issuedMessages messageCount
  perProducer recordedActions)

variable {config : LatencyBenchmarkConfig} {producers handlers : Nat}

/-- The message is an event that some handler has handled. -/
def Handled (state : State producers handlers) (id : Nat) : Prop :=
  ∃ handler, ∃ position < state.trans.channel.handled handler,
    state.trans.channel.published[position]? = some (id : Int)

/-- What producers and handlers keep over all steps: the messages issued are
published, and the read records are those of the handled events. -/
structure Handling (state : State config.producer.toNat handlers) : Prop where
  producer_valid : ∀ producerId : Fin config.producer.toNat,
    (state.trans.producer producerId).Valid config producerId
  begin_recorded : ∀ producerId : Fin config.producer.toNat,
    ∀ j < (state.trans.producer producerId).beginStored config,
      state.trans.handle.Recorded actionWriteBegin
        (producerId * perProducer config + j)
  end_recorded : ∀ producerId : Fin config.producer.toNat,
    ∀ j < (state.trans.producer producerId).endStored config,
      state.trans.handle.Recorded actionWriteEnd
        (producerId * perProducer config + j)
  published_eq : (state.trans.channel.published : Multiset Int) =
    ∑ producerId : Fin config.producer.toNat,
      issuedMessages config producerId
        ((state.trans.producer producerId).issued config)
  storing : ∀ handler msg nanoTime,
    state.handler handler = .store msg nanoTime →
      state.trans.channel.published[
        state.trans.channel.handled handler]? = some msg
  read_recorded : ∀ id, Handled state id →
    state.trans.handle.Recorded actionRead id
  read_handled : ∀ id, state.trans.handle.HoldsRecord actionRead id →
    Handled state id

/-! ## Handled events -/

/-- Handled events stay handled while events are added at the end. -/
theorem Handled.mono {state next : State producers handlers} {id : Nat}
    {later : List Int} (handled : Handled state id)
    (grows : next.trans.channel.published =
      state.trans.channel.published ++ later)
    (further : ∀ handler, state.trans.channel.handled handler ≤
      next.trans.channel.handled handler) : Handled next id := by
  obtain ⟨handler, position, before, event⟩ := handled
  obtain ⟨inside, _⟩ := List.getElem?_eq_some_iff.mp event
  refine ⟨handler, position, lt_of_lt_of_le before (further handler), ?_⟩
  rw [grows, List.getElem?_append_left inside, event]

/-- An event published only now is not handled yet. -/
theorem Handled.of_publish {state next : State producers handlers}
    {id : Nat} {later : List Int} (handled : Handled next id)
    (grows : next.trans.channel.published =
      state.trans.channel.published ++ later)
    (same : next.trans.channel.handled = state.trans.channel.handled)
    (behind : ∀ handler, state.trans.channel.handled handler ≤
      state.trans.channel.published.length) : Handled state id := by
  obtain ⟨handler, position, before, event⟩ := handled
  rw [same] at before
  have inside : position < state.trans.channel.published.length :=
    lt_of_lt_of_le before (behind handler)
  rw [grows, List.getElem?_append_left inside] at event
  exact ⟨handler, position, before, event⟩

/-- When one handler goes on, its next event is all that becomes handled. -/
theorem Handled.of_advance (state : State producers handlers)
    {next : State producers handlers} (handler : Fin handlers) {id : Nat}
    (handled : Handled next id)
    (events : next.trans.channel.published = state.trans.channel.published)
    (advanced : next.trans.channel.handled =
      Function.update state.trans.channel.handled handler
        (state.trans.channel.handled handler + 1)) :
    Handled state id ∨ state.trans.channel.published[
      state.trans.channel.handled handler]? = some (id : Int) := by
  obtain ⟨other, position, before, event⟩ := handled
  rw [events] at event
  rw [advanced] at before
  by_cases same : other = handler
  · subst same
    rw [Function.update_self] at before
    rcases Nat.lt_succ_iff_lt_or_eq.mp before with earlier | rfl
    · exact Or.inl ⟨other, position, earlier, event⟩
    · exact Or.inr event
  · rw [Function.update_of_ne same] at before
    exact Or.inl ⟨other, position, before, event⟩

/-- Producers store no read records. -/
theorem holds_of_producerMove {Channel : Type} {consumers : Nat}
    {callbacks : ThreadTrans.Callbacks Channel}
    {state next : ThreadTrans.State Channel producers consumers}
    {producerId : Fin producers}
    (move : ProducerMove callbacks config state producerId next) {id : Nat}
    {record : LatencyBenchmarkRecord}
    (holds : next.handle.Holds actionRead id record) :
    state.handle.Holds actionRead id record := by
  cases move with
  | storeBegin point stored | storeEnd point stored =>
      rcases LatencyBenchmarkHandle.holds_of_storeRecord stored holds with
        earlier | ⟨different, _, _⟩
      · exact earlier
      · cases different
  | fetch point | fetchOutside point | pause point | nextRound point
  | finish point | write point | readEnd point | storeBeginFails point
  | storeEndFails point | wake point => exact holds

variable {state next : State config.producer.toNat handlers}

theorem Invariant.allocated_messageCount (invariant : Invariant config state)
    (admissible : Admissible config) :
    state.trans.handle.Allocated recordedActions (messageCount config) := by
  have allocated := invariant.allocated
  rwa [count, admissible.recordCount_eq, Int.toNat_natCast] at allocated

theorem Handling.atTime (handling : Handling state) (time : Int) :
    Handling (state.atTime time) :=
  ⟨handling.producer_valid, handling.begin_recorded, handling.end_recorded,
    handling.published_eq, handling.storing, handling.read_recorded,
    handling.read_handled⟩

/-! ## Each thread keeps the handling -/

/-- Starting a producer changes nothing that was issued or stored. -/
theorem Handling.startProducers (handling : Handling state)
    {trans : ThreadTrans.State (RingBuffer handlers) config.producer.toNat 0}
    (handle : trans.handle = state.trans.handle)
    (channel : trans.channel = state.trans.channel)
    (producer : ∀ producerId,
      trans.producer producerId = state.trans.producer producerId ∨
        (state.trans.producer producerId = .created ∧
          trans.producer producerId = .round 0 0)) :
    Handling { state with trans := trans } := by
  have same : ∀ producerId : Fin config.producer.toNat,
      (trans.producer producerId).Valid config producerId ∧
        (trans.producer producerId).issued config =
          (state.trans.producer producerId).issued config ∧
        (trans.producer producerId).beginStored config =
          (state.trans.producer producerId).beginStored config ∧
        (trans.producer producerId).endStored config =
          (state.trans.producer producerId).endStored config := by
    intro producerId
    rcases producer producerId with same | ⟨created, started⟩
    · rw [same]
      exact ⟨handling.producer_valid producerId, rfl, rfl, rfl⟩
    · rw [created, started]
      refine ⟨ProducerPoint.valid_first, ?_, ?_, ?_⟩ <;>
        exact ThreadTrans.position_zero config
  refine ⟨fun producerId => (same producerId).1, ?_, ?_, ?_, ?_, ?_, ?_⟩
  · intro producerId j before
    dsimp only at before ⊢
    rw [(same producerId).2.2.1] at before
    rw [handle]
    exact handling.begin_recorded producerId j before
  · intro producerId j before
    dsimp only at before ⊢
    rw [(same producerId).2.2.2] at before
    rw [handle]
    exact handling.end_recorded producerId j before
  · dsimp only
    rw [channel, handling.published_eq]
    exact Finset.sum_congr rfl fun producerId _ => by
      rw [(same producerId).2.1]
  · dsimp only
    rw [channel]
    exact handling.storing
  · intro id handled
    unfold Handled at handled
    dsimp only at handled ⊢
    rw [channel] at handled
    rw [handle]
    exact handling.read_recorded id handled
  · intro id holds
    dsimp only at holds
    rw [handle] at holds
    unfold Handled
    dsimp only
    rw [channel]
    exact handling.read_handled id holds

/-- A producer moves, with or without an event for the ring. -/
theorem Handling.moveProducer (handling : Handling state)
    (invariant : Invariant config state)
    {producerId : Fin config.producer.toNat} {point : ProducerPoint}
    {handle : LatencyBenchmarkHandle} {channel : RingBuffer handlers}
    (events : List Int)
    (kept : ∀ other id, state.trans.handle.Recorded other id →
      handle.Recorded other id)
    (readKept : ∀ id record, handle.Holds actionRead id record →
      state.trans.handle.Holds actionRead id record)
    (valid : point.Valid config producerId)
    (begins : ∀ j < point.beginStored config,
      handle.Recorded actionWriteBegin
        (producerId * perProducer config + j))
    (ends : ∀ j < point.endStored config,
      handle.Recorded actionWriteEnd (producerId * perProducer config + j))
    (grows : channel =
      { state.trans.channel with
        published := state.trans.channel.published ++ events })
    (issued : issuedMessages config producerId (point.issued config) =
      (events : Multiset Int) + issuedMessages config producerId
        ((state.trans.producer producerId).issued config)) :
    Handling { state with
      trans := { state.trans.moveProducer producerId point with
        handle := handle, channel := channel } } := by
  subst grows
  have behind : ∀ handler, state.trans.channel.handled handler ≤
      state.trans.channel.published.length :=
    fun handler => (invariant.handler_in handler).handled_le
  refine ⟨?_, ?_, ?_, ?_, ?_, ?_, ?_⟩
  · exact ThreadFamily.forall_update
      (fun (other : Fin _) (point : ProducerPoint) =>
        point.Valid config other)
      handling.producer_valid valid
  · refine ThreadFamily.forall_update
      (fun (other : Fin _) (point : ProducerPoint) =>
        ∀ j < point.beginStored config,
          handle.Recorded actionWriteBegin (other * perProducer config + j))
      (fun other j before => ?_) begins
    exact kept _ _ (handling.begin_recorded other j before)
  · refine ThreadFamily.forall_update
      (fun (other : Fin _) (point : ProducerPoint) =>
        ∀ j < point.endStored config,
          handle.Recorded actionWriteEnd (other * perProducer config + j))
      (fun other j before => ?_) ends
    exact kept _ _ (handling.end_recorded other j before)
  · have grown := ThreadFamily.sum_update_add
      (fun (other : Fin _) (point : ProducerPoint) =>
        issuedMessages config other (point.issued config)) issued
    dsimp only [ThreadTrans.State.moveProducer] at grown ⊢
    rw [grown, ← Multiset.coe_add, handling.published_eq, add_comm]
  · intro handler msg nanoTime point
    have event := handling.storing handler msg nanoTime point
    obtain ⟨inside, _⟩ := List.getElem?_eq_some_iff.mp event
    dsimp only
    rw [List.getElem?_append_left inside, event]
  · intro id handled
    exact kept _ _ (handling.read_recorded id
      (handled.of_publish rfl rfl behind))
  · rintro id ⟨record, holds⟩
    exact (handling.read_handled id ⟨record, readKept id record holds⟩).mono
      rfl fun _ => le_refl _

/-- Every move of a producer keeps the handling. -/
theorem Handling.producerMove (handling : Handling state)
    (invariant : Invariant config state) (admissible : Admissible config)
    {producerId : Fin config.producer.toNat}
    {trans : ThreadTrans.State (RingBuffer handlers) config.producer.toNat 0}
    (move : ProducerMove (callbacks config.capacity.toNat handlers) config
      state.trans producerId trans) :
    Handling { state with trans := trans } := by
  have begins := handling.begin_recorded producerId
  have ends := handling.end_recorded producerId
  have readKept (id : Nat) (record : LatencyBenchmarkRecord)
      (holds : trans.handle.Holds actionRead id record) :
      state.trans.handle.Holds actionRead id record :=
    holds_of_producerMove move holds
  obtain ⟨point, valid, effect⟩ := move.effect admissible
    (invariant.allocated_messageCount admissible)
    (handling.producer_valid producerId)
  cases effect with
  | silent issued beginStored endStored =>
      refine handling.moveProducer invariant [] (fun _ _ recorded => recorded)
        readKept valid (beginStored ▸ begins) (endStored ▸ ends) ?_ ?_
      · rw [List.append_nil]
      · rw [issued, Multiset.coe_nil, zero_add]
  | @write channel running written issued beginStored endStored =>
      refine handling.moveProducer invariant [_]
        (fun _ _ recorded => recorded) readKept valid (beginStored ▸ begins)
          (endStored ▸ ends) (publish_eq_some written) ?_
      rw [issued, ThreadTrans.issuedMessages_succ]
      rfl
  | @store handle allocated kept issued beginStored endStored =>
      refine handling.moveProducer invariant [] kept readKept valid ?_ ?_ ?_
        ?_
      · intro j before
        rcases beginStored j before with earlier | new
        · exact kept _ _ (begins j earlier)
        · exact new
      · intro j before
        rcases endStored j before with earlier | new
        · exact kept _ _ (ends j earlier)
        · exact new
      · rw [List.append_nil]
        rfl
      · rw [issued, Multiset.coe_nil, zero_add]

/-- A handler goes on to its next event. -/
theorem Handling.handlerMove (handling : Handling state)
    (invariant : Invariant config state) {handler : Fin handlers} {time : Int}
    (move : HandlerMove state handler time next) : Handling next := by
  have inside := invariant.handler_in handler
  cases move with
  | @skip msg point event marker =>
      have range := invariant.published_in msg (List.mem_of_getElem? event)
      omega
  | @receive msg point event =>
      refine ⟨handling.producer_valid, handling.begin_recorded,
        handling.end_recorded, handling.published_eq, ?_,
        handling.read_recorded, handling.read_handled⟩
      refine ThreadFamily.forall_update
        (fun other (point : HandlerPoint) => ∀ held nanoTime,
          point = .store held nanoTime →
            state.trans.channel.published[
              state.trans.channel.handled other]? = some held)
        handling.storing ?_
      intro held nanoTime storing
      cases storing
      exact event
  | @storeFails msg nanoTime exception point failed =>
      rw [point] at inside
      obtain ⟨_, nonneg, below⟩ := inside
      lift msg to Nat using nonneg
      obtain ⟨filled, filledEq, _⟩ := invariant.allocated.storeRecord
        ThreadTrans.actionRead_mem (by omega) ⟨actionRead, msg, 0, nanoTime⟩
          rfl rfl
      cases failed.symm.trans filledEq
  | @store msg nanoTime handle point stored =>
      have event := handling.storing handler msg nanoTime point
      rw [point] at inside
      obtain ⟨_, nonneg, below⟩ := inside
      lift msg to Nat using nonneg
      obtain ⟨filled, filledEq, _, own, kept⟩ :=
        invariant.allocated.storeRecord ThreadTrans.actionRead_mem
          (by omega) ⟨actionRead, msg, 0, nanoTime⟩ rfl rfl
      cases Except.ok.inj (stored.symm.trans filledEq)
      refine ⟨handling.producer_valid,
        fun producerId j before =>
          kept _ _ (handling.begin_recorded producerId j before),
        fun producerId j before =>
          kept _ _ (handling.end_recorded producerId j before),
        handling.published_eq, ?_, ?_, ?_⟩
      · intro other held nanoTime storing
        dsimp only at storing ⊢
        by_cases same : other = handler
        · subst same
          rw [Function.update_self] at storing
          cases storing
        · rw [Function.update_of_ne same] at storing ⊢
          exact handling.storing other held nanoTime storing
      · intro id handled
        rcases handled.of_advance state handler rfl rfl with
          old | new
        · exact kept _ _ (handling.read_recorded id old)
        · cases Nat.cast_inj.mp (Option.some.inj (event.symm.trans new))
          exact own
      · rintro id ⟨record, holds⟩
        rcases LatencyBenchmarkHandle.holds_of_storeRecord stored holds with
          earlier | ⟨_, same, _⟩
        · have old := handling.read_handled id ⟨record, earlier⟩
          exact old.mono (List.append_nil _).symm
            (le_update_self_iff.mpr (Nat.le_succ _))
        · cases Nat.cast_inj.mp same
          refine ⟨handler, _, ?_, event⟩
          dsimp only
          rw [Function.update_self]
          exact Nat.lt_succ_self _

/-- Every step keeps the handling. -/
theorem Handling.step (handling : Handling state)
    (invariant : Invariant config state) (admissible : Admissible config)
    {action : Action config.producer.toNat handlers}
    (taken : Disruptor.step config state action = some next) :
    Handling next := by
  rcases step_cases taken with ⟨time, trans, move, rfl⟩ |
    ⟨time, trans, producerId, move, rfl⟩ | ⟨handler, time, _, move⟩ |
      ⟨_, moved⟩
  · have now := invariant.atTime time
    obtain ⟨handle, channel, producer, _⟩ :=
      mainMove_frame now.phases rfl move
    exact (handling.atTime time).startProducers handle channel producer
  · exact (handling.atTime time).producerMove (invariant.atTime time)
      admissible move
  · exact (handling.atTime time).handlerMove (invariant.atTime time) move
  · rcases mainStep_cases moved with ⟨_, _, rfl⟩ | ⟨_, rfl⟩ <;>
      exact ⟨handling.producer_valid, handling.begin_recorded,
        handling.end_recorded, handling.published_eq, handling.storing,
        handling.read_recorded, handling.read_handled⟩

theorem handling_of_reachable (admissible : Admissible config)
    {consumerNum : Nat} {state : State config.producer.toNat consumerNum}
    (reachable : (system config consumerNum).Reachable state) :
    Handling state := by
  apply reachable.invariant
  · rintro initial ⟨handle, clock, constructed, rfl⟩
    refine ⟨fun _ => trivial, ?_, ?_, ?_, ?_, ?_, ?_⟩
    · intro producerId j before
      exact absurd before (Nat.not_lt_zero j)
    · intro producerId j before
      exact absurd before (Nat.not_lt_zero j)
    · simp [start, ThreadTrans.start, ProducerPoint.issued, issuedMessages]
    · intro handler msg nanoTime storing
      cases storing
    · rintro id ⟨handler, position, before, _⟩
      exact absurd before (Nat.not_lt_zero position)
    · rintro id ⟨record, holds⟩
      exact absurd holds
        (ArrayBlockingQueue.not_holds_newHandle constructed)
  · intro before action after reached taken handling
    exact handling.step (invariant_of_reachable reached) admissible taken

/-! ## The report -/

section Report

variable {consumerNum : Nat}
variable {state : State config.producer.toNat consumerNum}

/-- When `genReport` is called, every producer has come to its end. -/
theorem ended_of_report (admissible : Admissible config)
    (reachable : (system config consumerNum).Reachable state)
    (atReport : state.main = .genReport)
    (producerId : Fin config.producer.toNat) :
    state.trans.producer producerId = .ended := by
  have invariant := invariant_of_reachable reachable
  have handling := handling_of_reachable admissible reachable
  obtain ⟨total, returned⟩ := invariant.main_returned (by simp [atReport])
  exact (handling.producer_valid producerId).eq_ended
    (invariant.phases.producer_joined producerId
      (by rw [returned]; trivial))

/-- Every message has been published once. -/
theorem published_perm (admissible : Admissible config)
    (reachable : (system config consumerNum).Reachable state)
    (atReport : state.main = .genReport) :
    state.trans.channel.published.Perm
      ((List.range (messageCount config)).map (Nat.cast : Nat → Int)) := by
  have handling := handling_of_reachable admissible reachable
  apply Multiset.coe_eq_coe.mp
  rw [handling.published_eq]
  simp only [ended_of_report admissible reachable atReport,
    ProducerPoint.issued]
  exact ThreadTrans.sum_issuedMessages config

/-- A handler that has caught up leaves a record in every slot. -/
theorem recorded_of_caughtUp (admissible : Admissible config)
    (reachable : (system config consumerNum).Reachable state)
    (atReport : state.main = .genReport) {handler : Fin consumerNum}
    (caughtUp : state.trans.channel.handled handler =
      state.trans.channel.published.length) :
    ∀ action ∈ recordedActions, ∀ id < messageCount config,
      state.trans.handle.Recorded action id := by
  intro action mem id inside
  have handling := handling_of_reachable admissible reachable
  obtain ⟨positive, owner⟩ := ThreadTrans.owner_of_lt_messageCount inside
  have begins := handling.begin_recorded ⟨_, owner⟩ (id % perProducer config)
  have ends := handling.end_recorded ⟨_, owner⟩ (id % perProducer config)
  rw [ended_of_report admissible reachable atReport,
    Nat.div_add_mod'] at begins ends
  simp only [recordedActions, List.mem_cons, List.not_mem_nil, or_false]
    at mem
  rcases mem with rfl | rfl | rfl
  · exact begins (Nat.mod_lt _ positive)
  · exact ends (Nat.mod_lt _ positive)
  · apply handling.read_recorded
    have published : (id : Int) ∈ state.trans.channel.published :=
      (published_perm admissible reachable atReport).mem_iff.mpr
        (List.mem_map_of_mem (List.mem_range.mpr inside))
    obtain ⟨position, event⟩ := List.mem_iff_getElem?.mp published
    obtain ⟨before, _⟩ := List.getElem?_eq_some_iff.mp event
    exact ⟨handler, position, caughtUp ▸ before, event⟩

/-- The record of the event published last was stored by a handler that has
caught up. -/
theorem caughtUp_of_filled (admissible : Admissible config)
    (reachable : (system config consumerNum).Reachable state)
    (atReport : state.main = .genReport)
    (positive : 0 < messageCount config)
    (filled : ∀ id < messageCount config,
      state.trans.handle.HoldsRecord actionRead id) :
    ∃ handler, state.trans.channel.handled handler =
      state.trans.channel.published.length := by
  have invariant := invariant_of_reachable reachable
  have handling := handling_of_reachable admissible reachable
  have perm := published_perm admissible reachable atReport
  have length := perm.length_eq
  rw [List.length_map, List.length_range] at length
  have nodup : state.trans.channel.published.Nodup :=
    perm.nodup_iff.mpr (List.nodup_range.map Nat.cast_injective)
  have inside : messageCount config - 1 <
      state.trans.channel.published.length := by omega
  have last := List.getElem?_eq_getElem inside
  obtain ⟨id, inRange, same⟩ :=
    List.mem_map.mp (perm.mem_iff.mp (List.getElem_mem inside))
  rw [← same] at last
  obtain ⟨handler, position, before, event⟩ :=
    handling.read_handled id (filled id (List.mem_range.mp inRange))
  have samePosition : position = messageCount config - 1 :=
    (List.getElem?_inj inside nodup).mp (last.trans event.symm) |>.symm
  have behind := (invariant.handler_in handler).handled_le
  exact ⟨handler, by omega⟩

/-- A dump that completes found every read record. -/
theorem filled_of_dump (admissible : Admissible config)
    (reachable : (system config consumerNum).Reachable state)
    (dumped : ∃ dump,
      state.trans.handle.genTimestampRecordsReport = .ok dump) :
    ∀ id < messageCount config,
      state.trans.handle.HoldsRecord actionRead id := by
  have allocated := (invariant_of_reachable
    reachable).allocated_messageCount admissible
  rw [LatencyBenchmarkHandle.exists_genTimestampRecordsReport_eq_ok_iff,
    allocated.recordCount_eq, Int.toNat_natCast] at dumped
  obtain ⟨records, present, _⟩ :=
    allocated.arrays actionRead ThreadTrans.actionRead_mem
  intro id inside
  obtain ⟨record, stored⟩ := dumped id inside (actionRead, records)
    (EntryMap.mem_of_get present)
  exact ⟨record, records, present, stored⟩

/-- **The report needs one handler that has caught up.**  When `genReport` is
called, every message has been published once.  The report completes exactly
when some handler has handled all of them, and otherwise ends with a
`NullPointerException`.  The configuration is the one `genReport` is called
with, after `setConsumer`; the run before it does not read its consumer. -/
theorem genReport_completes_iff (admissible : Admissible config)
    (someProducer : 1 ≤ config.producer)
    (positiveStep : 1 ≤ config.reportStep)
    (isInt : config.reportStep < 2 ^ 31)
    (reachable : (system config consumerNum).Reachable state)
    (atReport : state.main = .genReport) :
    state.trans.channel.published.Perm
      ((List.range (messageCount config)).map (Nat.cast : Nat → Int)) ∧
    ((∃ report, ThreadTrans.genReport state.trans.handle config =
        .ok report) ↔
      ∃ handler, state.trans.channel.handled handler =
        state.trans.channel.published.length) ∧
    ((∀ handler, state.trans.channel.handled handler ≠
        state.trans.channel.published.length) →
      ThreadTrans.genReport state.trans.handle config =
        .error .nullPointer) := by
  have positive := admissible.messageCount_pos someProducer
  have allocated := (invariant_of_reachable
    reachable).allocated_messageCount admissible
  have failing : (∀ handler, state.trans.channel.handled handler ≠
      state.trans.channel.published.length) →
        ThreadTrans.genReport state.trans.handle config =
          .error .nullPointer := by
    intro behind
    unfold ThreadTrans.genReport
    cases dumped : state.trans.handle.genTimestampRecordsReport with
    | ok dump =>
        obtain ⟨handler, caughtUp⟩ :=
          caughtUp_of_filled admissible reachable atReport positive
            (filled_of_dump admissible reachable ⟨dump, dumped⟩)
        exact absurd caughtUp (behind handler)
    | error exception =>
        rw [allocated.eq_nullPointer_of_dump dumped]
        rfl
  refine ⟨published_perm admissible reachable atReport, ⟨?_, ?_⟩, failing⟩
  · rintro ⟨report, reported⟩
    by_contra none
    rw [failing fun handler caughtUp => none ⟨handler, caughtUp⟩] at reported
    cases reported
  · rintro ⟨handler, caughtUp⟩
    have recorded :=
      recorded_of_caughtUp admissible reachable atReport caughtUp
    obtain ⟨records, dumped⟩ := allocated.exists_dump recorded
    obtain ⟨latency, reported⟩ := allocated.exists_latencyReport positive
      recorded positiveStep isInt [(actionWriteBegin, actionWriteEnd),
        (actionWriteBegin, actionRead)] (by decide)
    refine ⟨(records, latency), ?_⟩
    rw [ThreadTrans.genReport, dumped, ExceptTraversal.ok_bind, reported]
    rfl

/-- One producer with two messages, and two handlers. -/
def twoHandlersConfig : LatencyBenchmarkConfig :=
  { totalRounds := 1, recordPerRound := 2, consumer := 2 }

/-- The run in which the handlers take some steps each, two for a message, and
then the benchmark comes to its report. -/
def handlersRun (writer : Fin 1) (first second : Fin 2)
    (firstSteps secondSteps : Nat) : List (Action 1 2) :=
  List.replicate 4 (.trans ⟨.main, 0⟩) ++
    List.replicate 13 (.trans ⟨.producer writer, 0⟩) ++
      List.replicate firstSteps (.handler first 5) ++
        List.replicate secondSteps (.handler second 7) ++
          List.replicate 4 (.trans ⟨.main, 9⟩) ++ List.replicate 2 .main

/-- Two messages and two handlers: the report completes in the run in which
one handler keeps up and the other idles, and fails in the one in which both
have handled the first message only. -/
theorem genReport_completes_iff_twoHandlers :
    (∃ state : State 1 2, (system twoHandlersConfig 2).Reachable state ∧
      state.main = .genReport ∧ state.trans.channel.published = [0, 1] ∧
        state.trans.channel.handled 1 = 0 ∧
          ∃ report, ThreadTrans.genReport state.trans.handle
            twoHandlersConfig = .ok report) ∧
    ∃ state : State 1 2, (system twoHandlersConfig 2).Reachable state ∧
      state.main = .genReport ∧ state.trans.channel.published = [0, 1] ∧
        (∀ handler, state.trans.channel.handled handler = 1) ∧
          ThreadTrans.genReport state.trans.handle twoHandlersConfig =
            .error .nullPointer := by
  have admissible : Admissible twoHandlersConfig := by
    constructor <;> decide
  have initial : (system twoHandlersConfig 2).initial (start 1 2
      ⟨2, [(0, "write_begin"), (1, "write_end"), (2, "read")],
        [(0, [none, none]), (1, [none, none]), (2, [none, none])]⟩ 0) :=
    ⟨_, 0, rfl, rfl⟩
  have keptUp := (TransitionSystem.Reachable.of_initial initial).execute
    (show (system twoHandlersConfig 2).execute _ (handlersRun 0 0 1 4 0) =
      some _ from rfl)
  have behind := (TransitionSystem.Reachable.of_initial initial).execute
    (show (system twoHandlersConfig 2).execute _ (handlersRun 0 0 1 2 2) =
      some _ from rfl)
  have completed := genReport_completes_iff admissible (by decide) (by decide)
    (by decide) keptUp rfl
  have failed := genReport_completes_iff admissible (by decide) (by decide)
    (by decide) behind rfl
  refine ⟨⟨_, keptUp, rfl, rfl, rfl, completed.2.1.mpr ⟨0, rfl⟩⟩,
    _, behind, rfl, rfl, ?_, failed.2.2 ?_⟩
  · exact Fin.forall_fin_two.mpr ⟨rfl, rfl⟩
  · exact Fin.forall_fin_two.mpr ⟨nofun, nofun⟩

end Report

end Disruptor

end LatencyBenchmark
