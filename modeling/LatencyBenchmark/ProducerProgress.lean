import LatencyBenchmark.RecordArrays
import LatencyBenchmark.ThreadTransPhases
import Mathlib.Algebra.BigOperators.Fin
import Mathlib.Algebra.Order.Group.Multiset
import Mathlib.Data.Multiset.Range

/-!
# The messages of a producer

Without overflow the ids a producer computes are consecutive, and those of
different producers do not overlap.  A producer's program point says how many
of its messages it has put into the channel and for how many it has stored
the two records.
-/

namespace LatencyBenchmark

namespace ThreadTrans

/-- The configurations whose message count fits a positive `int` and for
which a consumer exists and the queue can be built. -/
structure Admissible (config : LatencyBenchmarkConfig) : Prop where
  rounds : 1 ≤ config.totalRounds
  records : 1 ≤ config.recordPerRound
  producers : 0 ≤ config.producer
  consumers : 1 ≤ config.consumer
  capacity : 1 ≤ config.capacity
  fits : config.totalRounds * config.recordPerRound * config.producer < 2 ^ 31

/-- How many messages each producer sends. -/
def perProducer (config : LatencyBenchmarkConfig) : Nat :=
  config.totalRounds.toNat * config.recordPerRound.toNat

/-- How many messages there are. -/
def messageCount (config : LatencyBenchmarkConfig) : Nat :=
  config.producer.toNat * perProducer config

/-- The actions of the constructor. -/
def recordedActions : List Int :=
  [actionWriteBegin, actionWriteEnd, actionRead]

theorem actionWriteBegin_mem : actionWriteBegin ∈ recordedActions := by
  decide

theorem actionWriteEnd_mem : actionWriteEnd ∈ recordedActions := by
  decide

theorem actionRead_mem : actionRead ∈ recordedActions := by
  decide

variable {config : LatencyBenchmarkConfig}

theorem Admissible.messageCount_eq (admissible : Admissible config) :
    (messageCount config : Int) =
      config.totalRounds * config.recordPerRound * config.producer := by
  have rounds := admissible.rounds
  have records := admissible.records
  have producers := admissible.producers
  unfold messageCount perProducer
  push_cast
  rw [Int.toNat_of_nonneg producers, Int.toNat_of_nonneg (by omega),
    Int.toNat_of_nonneg (by omega)]
  ring

theorem Admissible.messageCount_lt (admissible : Admissible config) :
    messageCount config < 2 ^ 31 := by
  have fits := admissible.fits
  have count := admissible.messageCount_eq
  omega

theorem Admissible.messageCount_pos (admissible : Admissible config)
    (someProducer : 1 ≤ config.producer) : 0 < messageCount config := by
  have count := admissible.messageCount_eq
  have rounds := admissible.rounds
  have records := admissible.records
  have product : 0 < config.totalRounds * config.recordPerRound *
      config.producer := by
    positivity
  omega

/-- The constructor's product does not overflow. -/
theorem Admissible.recordCount_eq (admissible : Admissible config) :
    recordCount config = messageCount config := by
  have rounds := admissible.rounds
  have records := admissible.records
  have fits := admissible.fits
  rcases eq_or_lt_of_le admissible.producers with none | some
  · rw [admissible.messageCount_eq, recordCount, ← none, Int.mul_zero,
      Int.mul_zero]
    rfl
  · have nonneg : 0 ≤ config.totalRounds * config.recordPerRound := by
      positivity
    have lePerProducer : config.totalRounds * config.recordPerRound ≤
        config.totalRounds * config.recordPerRound * config.producer :=
      le_mul_of_one_le_right nonneg some
    have count := toInt32_eq_self
      (by omega : -2 ^ 31 ≤ config.totalRounds * config.recordPerRound)
      (by omega)
    rw [recordCount, count, admissible.messageCount_eq]
    exact toInt32_eq_self (by omega) fits

/-- The constructor fails only on a negative product. -/
theorem exists_newHandle (nonneg : 0 ≤ recordCount config) :
    ∃ handle, newHandle config = .ok handle := by
  have notNegative : ¬recordCount config < 0 := by omega
  simp only [newHandle, LatencyBenchmarkHandle.addAction,
    LatencyBenchmarkHandle.new, notNegative, if_false, pure, Except.pure,
    ExceptTraversal.ok_bind]
  exact ⟨_, rfl⟩

/-- The constructor allocates the three arrays, also when its product
wraps. -/
theorem allocated_newHandle {handle : LatencyBenchmarkHandle}
    (constructed : newHandle config = .ok handle) :
    handle.Allocated recordedActions (recordCount config).toNat ∧
      0 ≤ recordCount config := by
  by_cases negative : recordCount config < 0
  · simp [newHandle, LatencyBenchmarkHandle.addAction,
      LatencyBenchmarkHandle.new, negative, throw, throwThe,
      MonadExceptOf.throw, bind, Except.bind] at constructed
  · simp only [newHandle, LatencyBenchmarkHandle.addAction,
      LatencyBenchmarkHandle.new, negative, if_false, pure, Except.pure,
      ExceptTraversal.ok_bind, Except.ok.injEq] at constructed
    subst constructed
    refine ⟨⟨?_, rfl, by decide, ?_⟩, by omega⟩
    · change recordCount config = (recordCount config).toNat
      omega
    · intro action mem
      refine ⟨List.replicate (recordCount config).toNat none, ?_,
        List.length_replicate⟩
      simp only [recordedActions, List.mem_cons, List.not_mem_nil, or_false]
        at mem
      rcases mem with rfl | rfl | rfl <;> rfl

theorem Admissible.allocated_newHandle (admissible : Admissible config)
    {handle : LatencyBenchmarkHandle}
    (constructed : newHandle config = .ok handle) :
    handle.Allocated recordedActions (messageCount config) := by
  have allocated := (ThreadTrans.allocated_newHandle constructed).1
  rwa [admissible.recordCount_eq, Int.toNat_natCast] at allocated

theorem Admissible.exists_newHandle (admissible : Admissible config) :
    ∃ handle, newHandle config = .ok handle := by
  apply ThreadTrans.exists_newHandle
  rw [admissible.recordCount_eq]
  exact Int.natCast_nonneg _

/-- Position `i` of a round is among the messages of a producer. -/
theorem index_lt_perProducer {round i : Nat}
    (inRounds : round < config.totalRounds.toNat)
    (inRecords : i < config.recordPerRound.toNat) :
    round * config.recordPerRound.toNat + i < perProducer config := by
  have whole : (round + 1) * config.recordPerRound.toNat ≤
      config.totalRounds.toNat * config.recordPerRound.toNat :=
    Nat.mul_le_mul_right _ inRounds
  rw [Nat.add_mul, Nat.one_mul] at whole
  unfold perProducer
  omega

/-- The messages of a producer are among all messages. -/
theorem id_lt_messageCount {producerId j : Nat}
    (known : producerId < config.producer.toNat)
    (inside : j < perProducer config) :
    producerId * perProducer config + j < messageCount config := by
  have whole : (producerId + 1) * perProducer config ≤
      config.producer.toNat * perProducer config :=
    Nat.mul_le_mul_right _ known
  rw [Nat.add_mul, Nat.one_mul] at whole
  unfold messageCount
  omega

/-- The producer of a message. -/
theorem owner_of_lt_messageCount {id : Nat}
    (inside : id < messageCount config) :
    0 < perProducer config ∧
      id / perProducer config < config.producer.toNat := by
  constructor
  · apply Nat.pos_of_ne_zero
    intro none
    unfold messageCount at inside
    rw [none] at inside
    omega
  · exact Nat.div_lt_of_lt_mul (by rwa [Nat.mul_comm])

/-- Digits below the base are determined by the number they make. -/
theorem digits_unique {base high low otherHigh otherLow : Nat}
    (lowLt : low < base) (otherLt : otherLow < base)
    (same : high * base + low = otherHigh * base + otherLow) :
    high = otherHigh ∧ low = otherLow := by
  have lows : low = otherLow := by
    have mods := congrArg (· % base) same
    simpa [Nat.mul_add_mod_self_right, Nat.mod_eq_of_lt lowLt,
      Nat.mod_eq_of_lt otherLt] using mods
  subst lows
  have positive : 0 < base := Nat.zero_lt_of_lt lowLt
  exact ⟨Nat.eq_of_mul_eq_mul_right positive (Nat.add_right_cancel same),
    rfl⟩

/-- The ids of a producer are consecutive. -/
theorem Admissible.messageId_eq (admissible : Admissible config)
    {producerId round i : Nat} (known : producerId < config.producer.toNat)
    (inRounds : round < config.totalRounds.toNat)
    (inRecords : i < config.recordPerRound.toNat) :
    messageId config producerId round i =
      (producerId * perProducer config +
        (round * config.recordPerRound.toNat + i) : Nat) := by
  have rounds := admissible.rounds
  have records := admissible.records
  have few := admissible.messageCount_lt
  have inside := id_lt_messageCount known
    (index_lt_perProducer inRounds inRecords)
  have roundsNat : config.totalRounds = config.totalRounds.toNat := by omega
  have recordsNat : config.recordPerRound = config.recordPerRound.toNat := by
    omega
  have perProducerLe : perProducer config ≤ messageCount config := by
    unfold messageCount
    exact Nat.le_mul_of_pos_left _ (by omega)
  have exact : ∀ value : Nat, value ≤ messageCount config →
      toInt32 value = value := by
    intro value le
    apply toInt32_eq_self <;> omega
  have count : toInt32 (config.totalRounds * config.recordPerRound) =
      perProducer config := by
    have product : config.totalRounds * config.recordPerRound =
        perProducer config := by
      rw [roundsNat, recordsNat]
      unfold perProducer
      push_cast
      simp
    rw [product, exact _ perProducerLe]
  have roundStart : (round : Int) * config.recordPerRound =
      (round * config.recordPerRound.toNat : Nat) := by
    rw [recordsNat]
    push_cast
    simp
  have offset : (producerId : Int) * (perProducer config : Int) =
      (producerId * perProducer config : Nat) := by
    push_cast
    rfl
  unfold messageId
  dsimp only
  rw [count, roundStart, offset, exact (producerId * perProducer config),
    exact (round * config.recordPerRound.toNat), ← Nat.cast_add, exact,
    ← Nat.cast_add, exact, Nat.add_assoc]
  all_goals omega

/-! ## Where a producer stands -/

/-- How many of its messages come before record `i` of a round. -/
def position (config : LatencyBenchmarkConfig) (round i : Nat) : Nat :=
  round * config.recordPerRound.toNat + i

/-- The points a producer reaches: it is inside its loops and holds the
message its counters say. -/
def ProducerPoint.Valid (config : LatencyBenchmarkConfig)
    (producerId : Nat) : ProducerPoint → Prop
  | .created | .ended => True
  | .round current i =>
      (current < config.totalRounds.toNat ∧
        i ≤ config.recordPerRound.toNat) ∨
          (current = config.totalRounds.toNat ∧ i = 0)
  | .write current i msg _ | .written current i msg _
  | .storeBegin current i msg _ _ | .storeEnd current i msg _ =>
      current < config.totalRounds.toNat ∧
        i < config.recordPerRound.toNat ∧
          msg =
            (producerId * perProducer config + position config current i : Nat)
  | .sleep current => current < config.totalRounds.toNat
  | .died _ => False

/-- How many messages the producer has put into the channel. -/
def ProducerPoint.issued (config : LatencyBenchmarkConfig) :
    ProducerPoint → Nat
  | .created => 0
  | .round current i | .write current i _ _ => position config current i
  | .written current i _ _ | .storeBegin current i _ _ _
  | .storeEnd current i _ _ => position config current i + 1
  | .sleep current => position config (current + 1) 0
  | .ended => perProducer config
  | .died _ => 0

/-- For how many messages the producer has stored the begin record. -/
def ProducerPoint.beginStored (config : LatencyBenchmarkConfig) :
    ProducerPoint → Nat
  | .created => 0
  | .round current i | .write current i _ _ | .written current i _ _
  | .storeBegin current i _ _ _ => position config current i
  | .storeEnd current i _ _ => position config current i + 1
  | .sleep current => position config (current + 1) 0
  | .ended => perProducer config
  | .died _ => 0

/-- For how many messages the producer has stored the end record. -/
def ProducerPoint.endStored (config : LatencyBenchmarkConfig) :
    ProducerPoint → Nat
  | .created => 0
  | .round current i | .write current i _ _ | .written current i _ _
  | .storeBegin current i _ _ _ | .storeEnd current i _ _ =>
      position config current i
  | .sleep current => position config (current + 1) 0
  | .ended => perProducer config
  | .died _ => 0

@[simp]
theorem position_zero (config : LatencyBenchmarkConfig) :
    position config 0 0 = 0 := by
  simp [position]

theorem position_next (config : LatencyBenchmarkConfig) (round : Nat) :
    position config (round + 1) 0 =
      position config round config.recordPerRound.toNat := by
  unfold position
  ring

theorem position_le {round i : Nat}
    (inRounds : round < config.totalRounds.toNat)
    (inRecords : i ≤ config.recordPerRound.toNat) :
    position config round i ≤ perProducer config := by
  have whole : (round + 1) * config.recordPerRound.toNat ≤
      config.totalRounds.toNat * config.recordPerRound.toNat :=
    Nat.mul_le_mul_right _ inRounds
  rw [Nat.add_mul, Nat.one_mul] at whole
  unfold position perProducer
  omega

/-- A producer never sends more than its share. -/
theorem ProducerPoint.Valid.issued_le {producerId : Nat}
    {point : ProducerPoint} (valid : point.Valid config producerId) :
    point.issued config ≤ perProducer config := by
  cases point with
  | created => exact Nat.zero_le _
  | round current i =>
      rcases valid with ⟨inRounds, inRecords⟩ | ⟨rfl, rfl⟩
      · exact position_le inRounds inRecords
      · exact le_refl _
  | write current i msg nanoTimeWriteBeg =>
      exact position_le valid.1 (le_of_lt valid.2.1)
  | written current i msg nanoTimeWriteBeg
  | storeBegin current i msg nanoTimeWriteBeg nanoTimeWriteEnd
  | storeEnd current i msg nanoTimeWriteEnd =>
      exact index_lt_perProducer valid.1 valid.2.1
  | sleep current =>
      change position config (current + 1) 0 ≤ _
      rw [position_next]
      exact position_le valid (le_refl _)
  | ended => exact le_refl _
  | died exception => exact valid.elim

/-- A producer starts at the head of its first round. -/
theorem ProducerPoint.valid_first {producerId : Nat} :
    (ProducerPoint.round 0 0).Valid config producerId := by
  change (_ ∧ _) ∨ (_ ∧ _)
  omega

/-- A producer that terminated has ended, since none dies from an
exception. -/
theorem ProducerPoint.Valid.eq_ended {producerId : Nat}
    {point : ProducerPoint} (valid : point.Valid config producerId)
    (terminated : point.Terminated) : point = .ended := by
  cases point with
  | ended => rfl
  | died exception => exact valid.elim
  | _ => exact terminated.elim

/-! ## Messages that were issued -/

/-- The first messages of a producer. -/
def issuedMessages (config : LatencyBenchmarkConfig)
    (producerId issued : Nat) : Multiset Int :=
  (Multiset.range issued).map fun j : Nat =>
    ((producerId * perProducer config + j : Nat) : Int)

theorem issuedMessages_succ (producerId issued : Nat) :
    issuedMessages config producerId (issued + 1) =
      {((producerId * perProducer config + issued : Nat) : Int)} +
        issuedMessages config producerId issued := by
  unfold issuedMessages
  rw [Multiset.range_succ, Multiset.map_cons, Multiset.singleton_add]

theorem mem_issuedMessages {producerId issued : Nat} {msg : Int} :
    msg ∈ issuedMessages config producerId issued ↔
      ∃ j < issued, ((producerId * perProducer config + j : Nat) : Int) =
        msg := by
  unfold issuedMessages
  rw [Multiset.mem_map]
  simp only [Multiset.mem_range]

theorem card_issuedMessages (producerId issued : Nat) :
    (issuedMessages config producerId issued).card = issued := by
  unfold issuedMessages
  rw [Multiset.card_map, Multiset.card_range]

theorem nodup_issuedMessages (producerId issued : Nat) :
    (issuedMessages config producerId issued).Nodup := by
  apply Multiset.Nodup.map _ (Multiset.nodup_range issued)
  intro first second same
  simp only [Nat.cast_inj] at same
  omega

/-- Every id belongs to exactly one message of one producer. -/
theorem sum_count_issuedMessages {id : Nat}
    (inside : id < messageCount config) :
    ∑ producerId : Fin config.producer.toNat,
      (issuedMessages config producerId (perProducer config)).count
        (id : Int) = 1 := by
  obtain ⟨positive, owner⟩ := owner_of_lt_messageCount inside
  rw [Finset.sum_eq_single ⟨id / perProducer config, owner⟩]
  · apply Multiset.count_eq_one_of_mem (nodup_issuedMessages _ _)
    rw [mem_issuedMessages]
    refine ⟨id % perProducer config, Nat.mod_lt _ positive, ?_⟩
    rw [Nat.div_add_mod']
  · intro other _ different
    apply Multiset.count_eq_zero_of_notMem
    rw [mem_issuedMessages]
    rintro ⟨j, before, same⟩
    apply different
    apply Fin.ext
    dsimp only
    rw [← Nat.cast_inj.mp same, Nat.mul_comm, Nat.mul_add_div positive,
      Nat.div_eq_of_lt before, Nat.add_zero]
  · intro missing
    exact absurd (Finset.mem_univ _) missing

/-- All messages of all producers are the ids below the message count. -/
theorem sum_issuedMessages (config : LatencyBenchmarkConfig) :
    ∑ producerId : Fin config.producer.toNat,
      issuedMessages config producerId (perProducer config) =
        (Multiset.range (messageCount config)).map (Nat.cast : Nat → Int) := by
  have nodup := (Multiset.nodup_range (messageCount config)).map
    (f := (Nat.cast : Nat → Int)) Nat.cast_injective
  ext msg
  by_cases mem : msg ∈ (Multiset.range (messageCount config)).map
    (Nat.cast : Nat → Int)
  · rw [Multiset.count_eq_one_of_mem nodup mem, Multiset.count_sum']
    obtain ⟨id, inside, rfl⟩ := Multiset.mem_map.mp mem
    exact sum_count_issuedMessages (Multiset.mem_range.mp inside)
  · rw [Multiset.count_eq_zero_of_notMem mem,
      Multiset.count_eq_zero_of_notMem]
    intro issued
    obtain ⟨producerId, _, own⟩ := Multiset.mem_sum.mp issued
    obtain ⟨j, inside, rfl⟩ := mem_issuedMessages.mp own
    exact mem (Multiset.mem_map_of_mem _ (Multiset.mem_range.mpr
      (id_lt_messageCount producerId.isLt inside)))

/-! ## Moves -/

variable {Channel : Type} {producers consumers : Nat}
variable {callbacks : Callbacks Channel}

/-- What a producer's move does to its progress, when it dies from no
exception: nothing, one write, one begin record or one end record. -/
inductive ProducerEffect (callbacks : Callbacks Channel)
    (config : LatencyBenchmarkConfig)
    (state : State Channel producers consumers) (producerId : Fin producers)
    (point : ProducerPoint) : State Channel producers consumers → Prop
  | silent
      (issued : point.issued config =
        (state.producer producerId).issued config)
      (beginStored : point.beginStored config =
        (state.producer producerId).beginStored config)
      (endStored : point.endStored config =
        (state.producer producerId).endStored config) :
      ProducerEffect callbacks config state producerId point
        (state.moveProducer producerId point)
  | write {channel : Channel}
      (running : ¬(state.producer producerId).Terminated)
      (written : callbacks.write state.channel
        (producerId * perProducer config +
          (state.producer producerId).issued config : Nat) = some channel)
      (issued : point.issued config =
        (state.producer producerId).issued config + 1)
      (beginStored : point.beginStored config =
        (state.producer producerId).beginStored config)
      (endStored : point.endStored config =
        (state.producer producerId).endStored config) :
      ProducerEffect callbacks config state producerId point
        { state.moveProducer producerId point with channel := channel }
  | store {handle : LatencyBenchmarkHandle}
      (allocated : handle.Allocated recordedActions (messageCount config))
      (kept : ∀ other id, state.handle.Recorded other id →
        handle.Recorded other id)
      (issued : point.issued config =
        (state.producer producerId).issued config)
      (beginStored : ∀ j < point.beginStored config,
        j < (state.producer producerId).beginStored config ∨
          handle.Recorded actionWriteBegin
            (producerId * perProducer config + j))
      (endStored : ∀ j < point.endStored config,
        j < (state.producer producerId).endStored config ∨
          handle.Recorded actionWriteEnd
            (producerId * perProducer config + j)) :
      ProducerEffect callbacks config state producerId point
        { state.moveProducer producerId point with handle := handle }

/-- At the end of a round the producer has sent the round's records. -/
theorem ProducerPoint.Valid.roundEnds {producerId current i : Nat}
    (valid : (ProducerPoint.round current i).Valid config producerId)
    (inRounds : current < config.totalRounds)
    (roundEnds : ¬i < config.recordPerRound) :
    current < config.totalRounds.toNat ∧
      i = config.recordPerRound.toNat := by
  have valid : (_ ∧ _) ∨ (_ ∧ _) := valid
  omega

/-- After the last round the producer is at the end of its loops. -/
theorem ProducerPoint.Valid.lastRound {producerId current i : Nat}
    (valid : (ProducerPoint.round current i).Valid config producerId)
    (lastRound : ¬current < config.totalRounds) :
    current = config.totalRounds.toNat ∧ i = 0 := by
  have valid : (_ ∧ _) ∨ (_ ∧ _) := valid
  omega

/-- The point after a round is valid, whether or not it was the last one. -/
theorem ProducerPoint.Valid.nextRound {producerId current : Nat}
    (inRounds : current < config.totalRounds.toNat) :
    (ProducerPoint.round (current + 1) 0).Valid config producerId := by
  change (_ ∧ _) ∨ (_ ∧ _)
  omega

/-- The record of a producer's own message finds its slot. -/
theorem exists_storeRecord_eq_ok {handle : LatencyBenchmarkHandle}
    (allocated : handle.Allocated recordedActions (messageCount config))
    (producerId : Fin config.producer.toNat) {action : Int}
    (mem : action ∈ recordedActions) {current i : Nat} {msg nsec : Int}
    (inRounds : current < config.totalRounds.toNat)
    (inRecords : i < config.recordPerRound.toNat)
    (own : msg = (producerId * perProducer config +
      position config current i : Nat)) :
    ∃ stored, handle.storeRecord action msg
      { action := action, id := msg, nsec := nsec } = .ok stored ∧
    stored.Allocated recordedActions (messageCount config) ∧
    stored.Recorded action
      (producerId * perProducer config + position config current i) ∧
    ∀ other id, handle.Recorded other id → stored.Recorded other id := by
  subst own
  exact allocated.storeRecord mem (id_lt_messageCount producerId.isLt
    (index_lt_perProducer inRounds inRecords)) _ rfl rfl

/-- Storing the record of a producer's own message does not fail. -/
theorem storeRecord_ne_error {handle : LatencyBenchmarkHandle}
    (allocated : handle.Allocated recordedActions (messageCount config))
    (producerId : Fin config.producer.toNat) {action : Int}
    (mem : action ∈ recordedActions) {current i : Nat} {msg nsec : Int}
    {exception : JavaException}
    (inRounds : current < config.totalRounds.toNat)
    (inRecords : i < config.recordPerRound.toNat)
    (own : msg = (producerId * perProducer config +
      position config current i : Nat)) :
    handle.storeRecord action msg
      { action := action, id := msg, nsec := nsec } ≠ .error exception := by
  obtain ⟨stored, done, _⟩ := exists_storeRecord_eq_ok allocated producerId
    mem inRounds inRecords own
  rw [done]
  exact nofun

/-- A producer at a valid point moves to a valid point. -/
theorem ProducerMove.effect (admissible : Admissible config)
    {state next : State Channel config.producer.toNat consumers}
    {producerId : Fin config.producer.toNat}
    (allocated :
      state.handle.Allocated recordedActions (messageCount config))
    (valid : (state.producer producerId).Valid config producerId)
    (move : ProducerMove callbacks config state producerId next) :
    ∃ point, point.Valid config producerId ∧
      ProducerEffect callbacks config state producerId point next := by
  cases move with
  | @fetch current i point inRounds inRecords inside =>
      have rounds : current < config.totalRounds.toNat := by omega
      have records : i < config.recordPerRound.toNat := by omega
      refine ⟨.write current i (messageId config producerId current i)
        state.clock, ⟨rounds, records, ?_⟩, .silent ?_ ?_ ?_⟩
      · exact admissible.messageId_eq producerId.isLt rounds records
      all_goals rw [point]; rfl
  | @fetchOutside current i point inRounds inRecords outside =>
      exfalso
      apply outside
      have rounds : current < config.totalRounds.toNat := by omega
      have records : i < config.recordPerRound.toNat := by omega
      have inside := id_lt_messageCount producerId.isLt
        (index_lt_perProducer rounds records)
      rw [admissible.messageId_eq producerId.isLt rounds records,
        allocated.recordCount_eq]
      omega
  | @pause current i point inRounds roundEnds =>
      rw [point] at valid
      obtain ⟨inRounds, last⟩ := valid.roundEnds inRounds roundEnds
      subst last
      refine ⟨.sleep current, inRounds, .silent ?_ ?_ ?_⟩ <;>
        rw [point] <;> exact position_next config current
  | @nextRound current i point inRounds roundEnds =>
      rw [point] at valid
      obtain ⟨inRounds, last⟩ := valid.roundEnds inRounds roundEnds
      subst last
      refine ⟨.round (current + 1) 0, .nextRound inRounds,
        .silent ?_ ?_ ?_⟩ <;>
        rw [point] <;> exact position_next config current
  | @finish current i point lastRound =>
      rw [point] at valid
      obtain ⟨rfl, rfl⟩ := valid.lastRound lastRound
      refine ⟨.ended, trivial, .silent ?_ ?_ ?_⟩ <;> rw [point] <;> rfl
  | @write current i msg nanoTimeWriteBeg channel point written =>
      rw [point] at valid
      obtain ⟨inRounds, inRecords, rfl⟩ := valid
      refine ⟨.written current i _ nanoTimeWriteBeg,
        ⟨inRounds, inRecords, rfl⟩, .write ?_ ?_ ?_ ?_ ?_⟩
      · simp [point, ProducerPoint.Terminated]
      · rw [point]
        exact written
      all_goals rw [point]; rfl
  | @readEnd current i msg nanoTimeWriteBeg point =>
      rw [point] at valid
      refine ⟨.storeBegin current i msg nanoTimeWriteBeg state.clock, valid,
        .silent ?_ ?_ ?_⟩ <;> rw [point] <;> rfl
  | @storeBegin current i msg nanoTimeWriteBeg nanoTimeWriteEnd handle point
      stored =>
      rw [point] at valid
      obtain ⟨inRounds, inRecords, rfl⟩ := valid
      obtain ⟨filled, filledEq, filledAllocated, recorded, kept⟩ :=
        exists_storeRecord_eq_ok allocated producerId actionWriteBegin_mem
          inRounds inRecords rfl
      cases Except.ok.inj (stored.symm.trans filledEq)
      refine ⟨.storeEnd current i _ nanoTimeWriteEnd,
        ⟨inRounds, inRecords, rfl⟩,
        .store filledAllocated kept ?_ ?_ ?_⟩
      · rw [point]
        rfl
      · rw [point]
        intro j before
        rcases Nat.lt_succ_iff_lt_or_eq.mp before with earlier | rfl
        · exact Or.inl earlier
        · exact Or.inr recorded
      · rw [point]
        exact fun j before => Or.inl before
  | storeBeginFails point failed =>
      rw [point] at valid
      obtain ⟨inRounds, inRecords, own⟩ := valid
      exact absurd failed (storeRecord_ne_error allocated producerId
        actionWriteBegin_mem inRounds inRecords own)
  | @storeEnd current i msg nanoTimeWriteEnd handle point stored =>
      rw [point] at valid
      obtain ⟨inRounds, inRecords, rfl⟩ := valid
      obtain ⟨filled, filledEq, filledAllocated, recorded, kept⟩ :=
        exists_storeRecord_eq_ok allocated producerId actionWriteEnd_mem
          inRounds inRecords rfl
      cases Except.ok.inj (stored.symm.trans filledEq)
      refine ⟨.round current (i + 1), Or.inl ⟨inRounds, inRecords⟩,
        .store filledAllocated kept ?_ ?_ ?_⟩
      · rw [point]
        rfl
      · rw [point]
        exact fun j before => Or.inl before
      · rw [point]
        intro j before
        rcases Nat.lt_succ_iff_lt_or_eq.mp before with earlier | rfl
        · exact Or.inl earlier
        · exact Or.inr recorded
  | storeEndFails point failed =>
      rw [point] at valid
      obtain ⟨inRounds, inRecords, own⟩ := valid
      exact absurd failed (storeRecord_ne_error allocated producerId
        actionWriteEnd_mem inRounds inRecords own)
  | @wake current point =>
      rw [point] at valid
      refine ⟨.round (current + 1) 0, .nextRound valid, .silent ?_ ?_ ?_⟩ <;>
        rw [point] <;> rfl

end ThreadTrans

end LatencyBenchmark
