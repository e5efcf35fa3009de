import LatencyBenchmark.ProducerProgress

/-!
# Write callbacks that fail

`WriteCallback.write` returns whether the message was handed over and may
throw `InterruptedException`.  The producer looks at neither: it stores its
two records after every call.  So once the producers have ended every slot of
the two write arrays holds a record, and these slots are the messages whose
write returned `true` exactly when no call failed.
-/

namespace LatencyBenchmark

namespace ThreadTrans

/-- How a call of the write callback ends. -/
inductive WriteOutcome where
  | returnsTrue
  | returnsFalse
  /-- It throws `InterruptedException`. -/
  | interrupted
  deriving DecidableEq, Repr

/-- Three callbacks of which the first may fail.  What decides the outcome of
a call, and whether the message reaches a reader, is the channel's own
affair; a call that blocks returns `none`. -/
structure FallibleCallbacks (Channel : Type) where
  write : Channel → Int → Option (WriteOutcome × Channel)
  read : Channel → Option (Int × Channel)
  completed : Option (Channel → Option Channel)

/-- A channel with a history variable: the messages of the write calls that
have ended and how they ended, newest first. -/
structure Watched (Channel : Type) where
  channel : Channel
  writes : List (Int × WriteOutcome)

/-- The callbacks as `LatencyBenchmarkThreadTransProducer.run` uses them: it
drops the result of `writeCallback.write` and goes on after an
`InterruptedException`. -/
def FallibleCallbacks.watched {Channel : Type}
    (callbacks : FallibleCallbacks Channel) : Callbacks (Watched Channel) where
  write := fun watched msg =>
    (callbacks.write watched.channel msg).map fun ended =>
      { channel := ended.2, writes := (msg, ended.1) :: watched.writes }
  read := fun watched =>
    (callbacks.read watched.channel).map fun received =>
      (received.1, { watched with channel := received.2 })
  completed := callbacks.completed.map fun put => fun watched =>
    (put watched.channel).map fun channel =>
      { watched with channel := channel }

variable {Channel : Type} {consumers : Nat}
variable {callbacks : FallibleCallbacks Channel}
variable {config : LatencyBenchmarkConfig}

/-- What the producers have written and recorded, whatever the other threads
and the callbacks do. -/
structure WritesRecorded (config : LatencyBenchmarkConfig)
    (state : State (Watched Channel) config.producer.toNat consumers) :
    Prop where
  allocated : state.handle.Allocated recordedActions (messageCount config)
  producer_valid : ∀ producerId : Fin config.producer.toNat,
    (state.producer producerId).Valid config producerId
  begin_recorded : ∀ producerId : Fin config.producer.toNat,
    ∀ j < (state.producer producerId).beginStored config,
      state.handle.Recorded actionWriteBegin
        (producerId * perProducer config + j)
  end_recorded : ∀ producerId : Fin config.producer.toNat,
    ∀ j < (state.producer producerId).endStored config,
      state.handle.Recorded actionWriteEnd
        (producerId * perProducer config + j)
  called : ((state.channel.writes.map Prod.fst : List Int) : Multiset Int) =
    ∑ producerId : Fin config.producer.toNat,
      issuedMessages config producerId
        ((state.producer producerId).issued config)

variable {state next :
  State (Watched Channel) config.producer.toNat consumers}

/-! ## Each thread keeps what was recorded -/

/-- A producer moves, with or without a call that ends. -/
theorem WritesRecorded.moveProducer (recorded : WritesRecorded config state)
    {producerId : Fin config.producer.toNat} {point : ProducerPoint}
    {handle : LatencyBenchmarkHandle} {channel : Watched Channel}
    (messages : List Int)
    (allocated : handle.Allocated recordedActions (messageCount config))
    (kept : ∀ other id, state.handle.Recorded other id →
      handle.Recorded other id)
    (valid : point.Valid config producerId)
    (begins : ∀ j < point.beginStored config,
      handle.Recorded actionWriteBegin
        (producerId * perProducer config + j))
    (ends : ∀ j < point.endStored config,
      handle.Recorded actionWriteEnd (producerId * perProducer config + j))
    (writes : channel.writes.map Prod.fst =
      messages ++ state.channel.writes.map Prod.fst)
    (issued : issuedMessages config producerId (point.issued config) =
      (messages : Multiset Int) + issuedMessages config producerId
        ((state.producer producerId).issued config)) :
    WritesRecorded config { state.moveProducer producerId point with
      handle := handle, channel := channel } := by
  refine ⟨allocated, ?_, ?_, ?_, ?_⟩
  · exact ThreadFamily.forall_update
      (fun (other : Fin _) (point : ProducerPoint) =>
        point.Valid config other)
      recorded.producer_valid valid
  · refine ThreadFamily.forall_update
      (fun (other : Fin _) (point : ProducerPoint) =>
        ∀ j < point.beginStored config,
          handle.Recorded actionWriteBegin (other * perProducer config + j))
      (fun other j before => ?_) begins
    exact kept _ _ (recorded.begin_recorded other j before)
  · refine ThreadFamily.forall_update
      (fun (other : Fin _) (point : ProducerPoint) =>
        ∀ j < point.endStored config,
          handle.Recorded actionWriteEnd (other * perProducer config + j))
      (fun other j before => ?_) ends
    exact kept _ _ (recorded.end_recorded other j before)
  · have grown := ThreadFamily.sum_update_add
      (fun (other : Fin _) (point : ProducerPoint) =>
        issuedMessages config other (point.issued config)) issued
    dsimp only [State.moveProducer] at grown ⊢
    rw [grown, writes, ← Multiset.coe_add, recorded.called]

/-- Every move of a producer keeps what was recorded. -/
theorem WritesRecorded.producerMove (recorded : WritesRecorded config state)
    (admissible : Admissible config)
    {producerId : Fin config.producer.toNat}
    (move : ProducerMove callbacks.watched config state producerId next) :
    WritesRecorded config next := by
  have begins := recorded.begin_recorded producerId
  have ends := recorded.end_recorded producerId
  obtain ⟨point, valid, effect⟩ := move.effect admissible recorded.allocated
    (recorded.producer_valid producerId)
  cases effect with
  | silent issued beginStored endStored =>
      exact recorded.moveProducer [] recorded.allocated
        (fun _ _ earlier => earlier) valid (beginStored ▸ begins)
          (endStored ▸ ends) rfl
            (by rw [issued, Multiset.coe_nil, zero_add])
  | @write channel running written issued beginStored endStored =>
      obtain ⟨ended, _, rfl⟩ := Option.map_eq_some_iff.mp written
      refine recorded.moveProducer [_] recorded.allocated
        (fun _ _ earlier => earlier) valid (beginStored ▸ begins)
          (endStored ▸ ends) rfl ?_
      rw [issued, issuedMessages_succ]
      rfl
  | @store handle allocated kept issued beginStored endStored =>
      refine recorded.moveProducer [] allocated kept valid ?_ ?_ rfl ?_
      · intro j before
        rcases beginStored j before with earlier | new
        · exact kept _ _ (begins j earlier)
        · exact new
      · intro j before
        rcases endStored j before with earlier | new
        · exact kept _ _ (ends j earlier)
        · exact new
      · rw [issued, Multiset.coe_nil, zero_add]

/-- A step that only stores read records or uses the channel keeps what was
recorded. -/
theorem WritesRecorded.withHandle (recorded : WritesRecorded config state)
    {handle : LatencyBenchmarkHandle} {channel : Watched Channel}
    {consumer : Fin consumers → Consumer} {main : MainPoint} {clock : Int}
    (allocated : handle.Allocated recordedActions (messageCount config))
    (kept : ∀ other id, state.handle.Recorded other id →
      handle.Recorded other id)
    (writes : channel.writes = state.channel.writes) :
    WritesRecorded config { state with
      handle := handle, channel := channel
      consumer := consumer, main := main, clock := clock } := by
  refine ⟨allocated, recorded.producer_valid, ?_, ?_, ?_⟩
  · exact fun producerId j before =>
      kept _ _ (recorded.begin_recorded producerId j before)
  · exact fun producerId j before =>
      kept _ _ (recorded.end_recorded producerId j before)
  · rw [writes]
    exact recorded.called

/-- Every move of a consumer keeps what was recorded, also when the read
callback invents messages. -/
theorem WritesRecorded.consumerMove (recorded : WritesRecorded config state)
    {consumerId : Fin consumers}
    (move : ConsumerMove callbacks.watched state consumerId next) :
    WritesRecorded config next := by
  have same : ∀ other id, state.handle.Recorded other id →
      state.handle.Recorded other id := fun _ _ earlier => earlier
  cases move with
  | @read msg channel point received =>
      obtain ⟨taken, _, delivered⟩ := Option.map_eq_some_iff.mp received
      cases delivered
      exact recorded.withHandle recorded.allocated same rfl
  | stop point => exact recorded.withHandle recorded.allocated same rfl
  | stamp point normal =>
      exact recorded.withHandle recorded.allocated same rfl
  | @store msg nanoTime handle point stored =>
      obtain ⟨allocated, kept⟩ :=
        recorded.allocated.of_storeRecord actionRead_mem stored rfl rfl
      exact recorded.withHandle allocated kept rfl
  | storeFails point failed =>
      exact recorded.withHandle recorded.allocated same rfl

/-- Every move of `run` keeps what was recorded. -/
theorem WritesRecorded.mainMove (recorded : WritesRecorded config state)
    (phases : PhaseInvariant state)
    (move : MainMove callbacks.watched state next) :
    WritesRecorded config next := by
  have same : ∀ other id, state.handle.Recorded other id →
      state.handle.Recorded other id := fun _ _ earlier => earlier
  cases move with
  | @startProducer i point inside =>
      have created : state.producer ⟨i, inside⟩ = .created := by
        rw [phases.producer_created, point]
        exact Nat.lt_irrefl i
      have started :
          WritesRecorded config
            (state.moveProducer ⟨i, inside⟩ (.round 0 0)) := by
        refine recorded.moveProducer [] recorded.allocated same
          ProducerPoint.valid_first ?_ ?_ rfl ?_
        · simp [ProducerPoint.beginStored]
        · simp [ProducerPoint.endStored]
        · rw [created, Multiset.coe_nil, zero_add]
          simp [ProducerPoint.issued]
      exact started.withHandle started.allocated
        (fun _ _ earlier => earlier) rfl
  | @complete i put channel point callback inside done =>
      obtain ⟨original, _, rfl⟩ := Option.map_eq_some_iff.mp callback
      obtain ⟨completed, _, rfl⟩ := Option.map_eq_some_iff.mp done
      exact recorded.withHandle recorded.allocated same rfl
  | startConsumer point inside | startedConsumers point done
  | wake point | startedProducers point done
  | joinProducer point inside terminated | joinedProducers point done
  | completed point done | joinConsumer point inside terminated
  | joinedConsumers point done =>
      exact recorded.withHandle recorded.allocated same rfl

/-- Every step keeps what was recorded. -/
theorem WritesRecorded.step (recorded : WritesRecorded config state)
    (phases : PhaseInvariant state) (admissible : Admissible config)
    {action : Action config.producer.toNat consumers}
    (taken : ThreadTrans.step callbacks.watched config state action =
      some next) :
    WritesRecorded config next := by
  have atTime :
      WritesRecorded config { state with clock := action.time } :=
    recorded.withHandle recorded.allocated (fun _ _ earlier => earlier) rfl
  rcases step_cases taken with move | ⟨_, move⟩ | ⟨_, move⟩ | ⟨_, _, rfl⟩
  · exact atTime.mainMove (phases.atTime action.time) move
  · exact atTime.producerMove admissible move
  · exact atTime.consumerMove move
  · exact atTime

theorem writesRecorded_start (admissible : Admissible config)
    {handle : LatencyBenchmarkHandle}
    (constructed : newHandle config = .ok handle) (channel : Channel)
    (clock : Int) :
    WritesRecorded config (start config.producer.toNat consumers
      handle ⟨channel, []⟩ clock) where
  allocated := admissible.allocated_newHandle constructed
  producer_valid := fun _ => trivial
  begin_recorded := by simp [start, ProducerPoint.beginStored]
  end_recorded := by simp [start, ProducerPoint.endStored]
  called := by simp [start, ProducerPoint.issued, issuedMessages]

/-- A configuration whose positive message count fits an `int`. -/
structure WithoutOverflow (config : LatencyBenchmarkConfig) : Prop where
  rounds : 1 ≤ config.totalRounds
  records : 1 ≤ config.recordPerRound
  producers : 1 ≤ config.producer
  fits : config.totalRounds * config.recordPerRound * config.producer < 2 ^ 31

/-- What the producers do does not depend on the consumers or the
capacity. -/
theorem WithoutOverflow.admissible (small : WithoutOverflow config) :
    Admissible { config with consumer := 1, capacity := 1 } where
  rounds := small.rounds
  records := small.records
  producers := Int.le_of_lt small.producers
  consumers := le_refl 1
  capacity := le_refl 1
  fits := small.fits

variable {channel : Channel}

/-- Phases and recorded writes hold in every reachable state. -/
theorem writesRecorded_of_reachable (small : WithoutOverflow config)
    {state : State (Watched Channel) config.producer.toNat
      config.consumer.toNat}
    (reachable :
      (system callbacks.watched ⟨channel, []⟩ config).Reachable state) :
    PhaseInvariant state ∧
      WritesRecorded { config with consumer := 1, capacity := 1 }
        state := by
  apply reachable.invariant
  · rintro initial ⟨handle, clock, constructed, rfl⟩
    exact ⟨phaseInvariant_start handle _ clock,
      writesRecorded_start small.admissible constructed channel clock⟩
  · rintro before action after _ taken ⟨phases, recorded⟩
    exact ⟨phases.step taken, recorded.step phases small.admissible taken⟩

/-! ## When the producers have ended -/

/-- The actions whose records producers store. -/
def writeActions : List Int :=
  [actionWriteBegin, actionWriteEnd]

/-- The slots of the write arrays that hold a record are the messages whose
write returned `true`. -/
def RecordsOnlyWrites {producers : Nat}
    (state : State (Watched Channel) producers consumers) : Prop :=
  ∀ action ∈ writeActions, ∀ id : Nat, state.handle.HoldsRecord action id ↔
    ((id : Int), WriteOutcome.returnsTrue) ∈ state.channel.writes

theorem recordedAction_of_writeAction {action : Int}
    (mem : action ∈ writeActions) : action ∈ recordedActions := by
  simp only [writeActions, List.mem_cons, List.not_mem_nil, or_false] at mem
  rcases mem with rfl | rfl <;> decide

/-- Once the producers have ended every slot of the write arrays holds a
record, however the calls ended. -/
theorem WritesRecorded.holdsRecord_iff (recorded : WritesRecorded config state)
    (ended : ∀ producerId, (state.producer producerId).Terminated)
    {action : Int} (mem : action ∈ writeActions) {id : Nat} :
    state.handle.HoldsRecord action id ↔ id < messageCount config := by
  constructor
  · exact recorded.allocated.lt_of_holdsRecord
      (recordedAction_of_writeAction mem)
  · intro inside
    obtain ⟨positive, owner⟩ := owner_of_lt_messageCount inside
    have atEnd := (recorded.producer_valid ⟨_, owner⟩).eq_ended
      (ended ⟨_, owner⟩)
    have begins :=
      recorded.begin_recorded ⟨_, owner⟩ (id % perProducer config)
    have ends := recorded.end_recorded ⟨_, owner⟩ (id % perProducer config)
    rw [atEnd, Nat.div_add_mod'] at begins ends
    simp only [writeActions, List.mem_cons, List.not_mem_nil, or_false] at mem
    rcases mem with rfl | rfl
    · exact (begins (Nat.mod_lt _ positive)).holdsRecord
    · exact (ends (Nat.mod_lt _ positive)).holdsRecord

/-- Once the producers have ended every message was written once. -/
theorem WritesRecorded.called_eq (recorded : WritesRecorded config state)
    (ended : ∀ producerId, (state.producer producerId).Terminated) :
    ((state.channel.writes.map Prod.fst : List Int) : Multiset Int) =
      (Multiset.range (messageCount config)).map (Nat.cast : Nat → Int) := by
  rw [recorded.called, ← sum_issuedMessages]
  apply Finset.sum_congr rfl
  intro producerId _
  rw [(recorded.producer_valid producerId).eq_ended (ended producerId)]
  rfl

/-- Once the producers have ended, the filled slots are the successful writes
exactly when every write was successful. -/
theorem WritesRecorded.recordsOnlyWrites_iff
    (recorded : WritesRecorded config state)
    (ended : ∀ producerId, (state.producer producerId).Terminated) :
    RecordsOnlyWrites state ↔
      ∀ call ∈ state.channel.writes, call.2 = .returnsTrue := by
  have called := recorded.called_eq ended
  have mem_called : ∀ msg : Int, msg ∈ state.channel.writes.map Prod.fst ↔
      ∃ id < messageCount config, (id : Int) = msg := by
    intro msg
    rw [← Multiset.mem_coe, called]
    simp only [Multiset.mem_map, Multiset.mem_range]
  constructor
  · rintro exact ⟨msg, outcome⟩ mem
    obtain ⟨id, inside, rfl⟩ :=
      (mem_called msg).mp (List.mem_map_of_mem mem)
    have begin : actionWriteBegin ∈ writeActions := List.mem_cons_self
    have successful := (exact _ begin id).mp
      ((recorded.holdsRecord_iff ended begin).mpr inside)
    -- No message is written twice, so this is the call that returned true.
    have once : (state.channel.writes.map Prod.fst).Nodup := by
      rw [← Multiset.coe_nodup, called]
      exact (Multiset.nodup_range _).map Nat.cast_injective
    exact congrArg Prod.snd
      (List.inj_on_of_nodup_map once mem successful rfl)
  · intro successful action mem id
    rw [recorded.holdsRecord_iff ended mem]
    constructor
    · intro inside
      obtain ⟨call, called, same⟩ := List.mem_map.mp
        ((mem_called id).mpr ⟨id, inside, rfl⟩)
      rwa [← same, ← successful call called]
    · intro written
      obtain ⟨other, inside, same⟩ := (mem_called id).mp
        (List.mem_map_of_mem written)
      rwa [← Nat.cast_inj.mp same]

/-- However the calls of the write callback end, in whatever state all
producers have ended: the records they left are the writes that returned
`true` exactly when every call returned `true`. -/
theorem recordsOnlyWrites_iff_allReturnTrue (small : WithoutOverflow config)
    {state : State (Watched Channel) config.producer.toNat
      config.consumer.toNat}
    (reachable :
      (system callbacks.watched ⟨channel, []⟩ config).Reachable state)
    (ended : ∀ producerId, (state.producer producerId).Terminated) :
    RecordsOnlyWrites state ↔
      ∀ call ∈ state.channel.writes, call.2 = .returnsTrue :=
  (writesRecorded_of_reachable small reachable).2.recordsOnlyWrites_iff ended

/-- Write calls that end as a script says; nothing is read. -/
def scriptedCallbacks : FallibleCallbacks (List WriteOutcome) where
  write := fun script _ =>
    match script with
    | [] => none
    | outcome :: rest => some (outcome, rest)
  read := fun _ => none
  completed := none

/-- Two producers with a message each. -/
def twoWritesConfig : LatencyBenchmarkConfig :=
  { totalRounds := 1, recordPerRound := 1, capacity := 2, producer := 2 }

/-- `run` starts its threads; the second producer runs to its end while the
first one is before its write. -/
def twoWritesRun (first second : Fin 2) : List (Action 2 1) :=
  List.replicate 6 ⟨.main, 0⟩ ++ [⟨.producer first, 0⟩] ++
    List.replicate 8 ⟨.producer second, 0⟩ ++
      List.replicate 7 ⟨.producer first, 0⟩

/-- The initial state in which the writes will end in some ways. -/
def twoWritesStart (outcomes : List WriteOutcome) :
    State (Watched (List WriteOutcome)) 2 1 :=
  start 2 1 ⟨2, [(0, "write_begin"), (1, "write_end"), (2, "read")],
    [(0, [none, none]), (1, [none, none]), (2, [none, none])]⟩
      ⟨outcomes, []⟩ 0

/-- However the two writes end, both producers run to their ends. -/
theorem reachable_twoWrites (earlier later : WriteOutcome) :
    ∃ state : State (Watched (List WriteOutcome)) 2 1,
      (system scriptedCallbacks.watched ⟨[earlier, later], []⟩
        twoWritesConfig).Reachable state ∧
      state.channel.writes = [(0, later), (1, earlier)] ∧
        ∀ producerId, (state.producer producerId).Terminated := by
  have initial : (system scriptedCallbacks.watched ⟨[earlier, later], []⟩
      twoWritesConfig).initial (twoWritesStart [earlier, later]) :=
    ⟨_, 0, rfl, rfl⟩
  have reachable := (TransitionSystem.Reachable.of_initial initial).execute
    (show (system scriptedCallbacks.watched _ twoWritesConfig).execute _
      (twoWritesRun 0 1) = some _ from rfl)
  exact ⟨_, reachable, rfl, Fin.forall_fin_two.mpr ⟨True.intro, True.intro⟩⟩

/-- Two writes that return `true`, and two of which the earlier one, of the
second producer, returns `false`. -/
theorem recordsOnlyWrites_iff_allReturnTrue_twoWrites :
    (∃ state : State (Watched (List WriteOutcome)) 2 1,
      (system scriptedCallbacks.watched ⟨[.returnsTrue, .returnsTrue], []⟩
        twoWritesConfig).Reachable state ∧
      state.channel.writes = [(0, .returnsTrue), (1, .returnsTrue)] ∧
        RecordsOnlyWrites state) ∧
    ∃ state : State (Watched (List WriteOutcome)) 2 1,
      (system scriptedCallbacks.watched ⟨[.returnsFalse, .returnsTrue], []⟩
        twoWritesConfig).Reachable state ∧
      state.channel.writes = [(0, .returnsTrue), (1, .returnsFalse)] ∧
        ¬RecordsOnlyWrites state := by
  have small : WithoutOverflow twoWritesConfig := by
    constructor <;> decide
  constructor
  · obtain ⟨last, reachable, writes, ended⟩ :=
      reachable_twoWrites .returnsTrue .returnsTrue
    have recorded := recordsOnlyWrites_iff_allReturnTrue small reachable ended
    rw [writes] at recorded
    exact ⟨last, reachable, writes, recorded.mpr (by decide)⟩
  · obtain ⟨last, reachable, writes, ended⟩ :=
      reachable_twoWrites .returnsFalse .returnsTrue
    have recorded := recordsOnlyWrites_iff_allReturnTrue small reachable ended
    rw [writes] at recorded
    exact ⟨last, reachable, writes, recorded.not.mpr (by decide)⟩

/-- One message from one producer. -/
def oneWriteConfig : LatencyBenchmarkConfig :=
  { totalRounds := 1, recordPerRound := 1, capacity := 1 }

/-- `run` starts its threads and the producer runs to its end. -/
def oneWriteRun (writer : Fin 1) : List (Action 1 1) :=
  List.replicate 5 ⟨.main, 0⟩ ++ List.replicate 8 ⟨.producer writer, 0⟩

/-- The initial state in which the only write will end in some way. -/
def oneWriteStart (outcome : WriteOutcome) :
    State (Watched (List WriteOutcome)) 1 1 :=
  start 1 1 ⟨1, [(0, "write_begin"), (1, "write_end"), (2, "read")],
    [(0, [none]), (1, [none]), (2, [none])]⟩ ⟨[outcome], []⟩ 0

/-- The write returns `false` and both its records are stored. -/
theorem failed_write_is_recorded :
    ∃ state : State (Watched (List WriteOutcome)) 1 1,
      (system scriptedCallbacks.watched ⟨[.returnsFalse], []⟩
        oneWriteConfig).Reachable state ∧
      (∀ producerId, (state.producer producerId).Terminated) ∧
        ¬RecordsOnlyWrites state := by
  have initial : (system scriptedCallbacks.watched ⟨[.returnsFalse], []⟩
      oneWriteConfig).initial (oneWriteStart .returnsFalse) :=
    ⟨_, 0, rfl, rfl⟩
  have reachable := (TransitionSystem.Reachable.of_initial initial).execute
    (show (system scriptedCallbacks.watched ⟨[.returnsFalse], []⟩
      oneWriteConfig).execute (oneWriteStart .returnsFalse) (oneWriteRun 0) =
        some _ from rfl)
  refine ⟨_, reachable, Fin.forall_fin_one.mpr True.intro, ?_⟩
  intro exact
  have written := (exact actionWriteBegin List.mem_cons_self 0).mp
    ⟨_, _, rfl, rfl⟩
  cases congrArg Prod.snd (List.mem_singleton.mp written)

end ThreadTrans

end LatencyBenchmark
