import LatencyBenchmark.ThreadTransChannelPhases
import Mathlib.Algebra.BigOperators.Fin
import Mathlib.Algebra.Order.Group.Multiset
import Mathlib.Data.Finset.Range

/-!
# Blocks on the channel

The producers walk through disjoint ranges of every loop's indices, so the
blocks sent so far are those before the positions the producers have reached.
What the consumers hold together is what was sent.
-/

namespace LatencyBenchmark

namespace ThreadTransChannel

variable {cntProducer cntConsumer : Nat} {limit : MakeLimit}
variable {config : ThreadTransConfig}
variable {state next : State cntProducer cntConsumer}

/-- The loop and the index in it up to which a producer has sent. -/
def ProducerPoint.sentTo (config : ThreadTransConfig) :
    ProducerPoint → Nat × Nat
  | .notStarted => (0, 0)
  | .loop i => (i, 0)
  | .inner i j | .stampBegin i j _ | .send i j _ => (i, j)
  | .stampEnd i j _ => (i, j + 1)
  | .sleep i => (i + 1, 0)
  | .signal | .complete => (config.loop, 0)

/-- A block of a producer's range that comes before a position. -/
def Before (config : ThreadTransConfig) (cntProducer producerId : Nat)
    (position : Nat × Nat) (block : Nat) : Prop :=
  IndexRange.Owns config.cntPerLoop cntProducer producerId
      (block % config.cntPerLoop) ∧
    (block / config.cntPerLoop < position.1 ∨
      block / config.cntPerLoop = position.1 ∧
        block % config.cntPerLoop < position.2)

/-- The loop variables of a producer are in their ranges, and the block it
has in hand is the one they name. -/
def ProducerPoint.Valid (config : ThreadTransConfig)
    (cntProducer producerId : Nat) : ProducerPoint → Prop
  | .loop i => i ≤ config.loop
  | .inner i j => i < config.loop ∧ startIdx config cntProducer producerId ≤ j
  | .stampBegin i j idx | .send i j idx | .stampEnd i j idx =>
      i < config.loop ∧
        IndexRange.Owns config.cntPerLoop cntProducer producerId j ∧
        idx = i * config.cntPerLoop + j ∧ idx < cnt config
  | .sleep i => i < config.loop
  | .notStarted | .signal | .complete => True

/-- What was sent and received, over all steps. -/
structure Traffic (config : ThreadTransConfig)
    (state : State cntProducer cntConsumer) : Prop where
  producer_valid : ∀ producerId : Fin cntProducer,
    (state.producer producerId).Valid config cntProducer producerId
  mem_sent : ∀ block, block ∈ state.sent ↔
    ∃ producerId : Fin cntProducer, Before config cntProducer producerId
      ((state.producer producerId).sentTo config) block
  sent_lt : ∀ block ∈ state.sent, block < cnt config
  nodup : state.sent.Nodup
  delivered :
    (∑ consumerId, ((state.consumer consumerId).received : Multiset Nat)) =
      state.sent

section Positions

variable {producerId other i j block : Nat}

theorem div_blockOf (inside : j < config.cntPerLoop) :
    (i * config.cntPerLoop + j) / config.cntPerLoop = i := by
  rw [Nat.add_comm, Nat.add_mul_div_right _ _ (Nat.zero_lt_of_lt inside),
    Nat.div_eq_of_lt inside, Nat.zero_add]

theorem mod_blockOf (inside : j < config.cntPerLoop) :
    (i * config.cntPerLoop + j) % config.cntPerLoop = j := by
  rw [Nat.add_comm, Nat.add_mul_mod_self_right, Nat.mod_eq_of_lt inside]

theorem not_before_zero (i : Nat) :
    ¬Before config cntProducer producerId (0, 0) i := by
  rintro ⟨_, earlier | ⟨_, earlier⟩⟩
  · exact Nat.not_lt_zero _ earlier
  · exact Nat.not_lt_zero _ earlier

/-- Nothing of a range comes before its first index. -/
theorem before_startIdx :
    Before config cntProducer producerId
        (i, startIdx config cntProducer producerId) block ↔
      Before config cntProducer producerId (i, 0) block := by
  unfold Before
  apply and_congr_right
  intro owns
  have above : startIdx config cntProducer producerId ≤
      block % config.cntPerLoop := owns.1
  dsimp only
  omega

/-- All of a range comes before its end. -/
theorem before_endIdx (rangeEnds : ¬j < endIdx config cntProducer producerId) :
    Before config cntProducer producerId (i, j) block ↔
      Before config cntProducer producerId (i + 1, 0) block := by
  unfold Before
  apply and_congr_right
  intro owns
  have below : block % config.cntPerLoop <
      endIdx config cntProducer producerId := owns.2
  dsimp only
  omega

/-- Going on by one index adds the block of that index. -/
theorem before_succ (isProducer : producerId < cntProducer)
    (owns : IndexRange.Owns config.cntPerLoop cntProducer producerId j) :
    Before config cntProducer producerId (i, j + 1) block ↔
      block = i * config.cntPerLoop + j ∨
        Before config cntProducer producerId (i, j) block := by
  have inside := owns.index_lt isProducer
  unfold Before
  constructor
  · rintro ⟨blockOwns, earlier | ⟨sameLoop, upTo⟩⟩
    · exact Or.inr ⟨blockOwns, Or.inl earlier⟩
    · dsimp only at sameLoop upTo
      rcases Nat.lt_succ_iff_lt_or_eq.mp upTo with earlier | last
      · exact Or.inr ⟨blockOwns, Or.inr ⟨sameLoop, earlier⟩⟩
      · left
        rw [← sameLoop, ← last]
        exact (Nat.div_add_mod' block config.cntPerLoop).symm
  · rintro (rfl | ⟨blockOwns, earlier | ⟨sameLoop, upTo⟩⟩)
    · rw [mod_blockOf inside, div_blockOf inside]
      exact ⟨owns, Or.inr ⟨rfl, Nat.lt_succ_self j⟩⟩
    · exact ⟨blockOwns, Or.inl earlier⟩
    · exact ⟨blockOwns, Or.inr ⟨sameLoop, Nat.lt_succ_of_lt upTo⟩⟩

theorem not_before_self (inside : j < config.cntPerLoop) :
    ¬Before config cntProducer producerId (i, j)
      (i * config.cntPerLoop + j) := by
  unfold Before
  rw [mod_blockOf inside, div_blockOf inside]
  simp

/-- A block is sent by one producer only. -/
theorem Before.unique {position otherPosition : Nat × Nat}
    (before : Before config cntProducer producerId position block)
    (beforeToo : Before config cntProducer other otherPosition block)
    (isProducer : producerId < cntProducer)
    (isProducerToo : other < cntProducer) : producerId = other :=
  before.1.unique beforeToo.1 isProducer isProducerToo

end Positions

theorem traffic_start (clock : Int) :
    Traffic config (start cntProducer cntConsumer clock) where
  producer_valid := fun _ => trivial
  mem_sent := by
    intro block
    simp [start, ProducerPoint.sentTo, not_before_zero]
  sent_lt := by simp [start]
  nodup := List.nodup_nil
  delivered := by simp [start]

/-- Traffic reads the producers, the consumers and the blocks sent only. -/
theorem Traffic.congr (traffic : Traffic config state)
    (producer : next.producer = state.producer)
    (consumer : next.consumer = state.consumer)
    (sent : next.sent = state.sent) : Traffic config next := by
  obtain ⟨valid, memSent, sentLt, nodup, delivered⟩ := traffic
  rw [← producer] at valid memSent
  rw [← sent] at memSent sentLt nodup delivered
  rw [← consumer] at delivered
  exact ⟨valid, memSent, sentLt, nodup, delivered⟩

theorem Traffic.moveProducer (traffic : Traffic config state)
    {producerId : Fin cntProducer} {point : ProducerPoint}
    (valid : point.Valid config cntProducer producerId)
    (same : ∀ block,
      Before config cntProducer producerId (point.sentTo config) block ↔
        Before config cntProducer producerId
          ((state.producer producerId).sentTo config) block) :
    Traffic config (state.moveProducer producerId point) :=
  { traffic with
    producer_valid := ThreadFamily.forall_update
      (fun (other : Fin cntProducer) member =>
        ProducerPoint.Valid config cntProducer other member)
      traffic.producer_valid valid
    mem_sent := by
      intro block
      rw [show (state.moveProducer producerId point).sent = state.sent
        from rfl, traffic.mem_sent block]
      apply exists_congr
      intro other
      have unchanged := ThreadFamily.forall_update
        (fun (other : Fin cntProducer) member =>
          Before config cntProducer other
              (ProducerPoint.sentTo config member) block ↔
            Before config cntProducer other
              ((state.producer other).sentTo config) block)
        (fun _ => Iff.rfl) (same block) other
      exact unchanged.symm }

theorem Traffic.updateConsumer (traffic : Traffic config state)
    {consumerId : Fin cntConsumer} {consumer : Consumer}
    (moved : next.consumer =
      Function.update state.consumer consumerId consumer)
    (received : consumer.received = (state.consumer consumerId).received)
    (producer : next.producer = state.producer)
    (sent : next.sent = state.sent) : Traffic config next := by
  have held : Traffic config
      { state with
        consumer := Function.update state.consumer consumerId consumer } :=
    { traffic with
      delivered := by
        apply (ThreadFamily.sum_update_eq
          (fun _ (member : Consumer) => (member.received : Multiset Nat))
          _).trans traffic.delivered
        rw [received] }
  exact held.congr producer moved sent

/-- The block index never wraps around: the block of the same place one loop
earlier was sent, hence inside `blocks`. -/
theorem Traffic.blockIndex_eq (traffic : Traffic config state)
    (fits : cnt config ≤ limit.blocks)
    {producerId : Fin cntProducer} {i j : Nat}
    (point : state.producer producerId = .inner i j)
    (inRange : j < endIdx config cntProducer producerId) :
    blockIndex config i j = i * config.cntPerLoop + j := by
  have valid := traffic.producer_valid producerId
  rw [point] at valid
  have owns : IndexRange.Owns config.cntPerLoop cntProducer producerId j :=
    ⟨valid.2, inRange⟩
  have inside := owns.index_lt producerId.isLt
  have small := config.cntPerLoop_lt
  have most := limit.blocks_lt
  apply Nat.mod_eq_of_lt
  cases i with
  | zero => omega
  | succ earlier =>
      have sent : earlier * config.cntPerLoop + j ∈ state.sent := by
        rw [traffic.mem_sent]
        refine ⟨producerId, ?_⟩
        rw [point]
        unfold Before
        rw [mod_blockOf inside, div_blockOf inside]
        exact ⟨owns, Or.inl (Nat.lt_succ_self earlier)⟩
      have below := traffic.sent_lt _ sent
      rw [Nat.succ_mul]
      omega

/-- The block a producer is about to send has not been sent. -/
theorem Traffic.not_mem_sent (traffic : Traffic config state)
    {producerId : Fin cntProducer} {i j : Nat}
    (owns : IndexRange.Owns config.cntPerLoop cntProducer producerId j)
    (position : (state.producer producerId).sentTo config = (i, j)) :
    i * config.cntPerLoop + j ∉ state.sent := by
  have inside := owns.index_lt producerId.isLt
  intro mem
  obtain ⟨other, before⟩ := (traffic.mem_sent _).mp mem
  have ownsToo := before.1
  rw [mod_blockOf inside] at ownsToo
  obtain rfl : producerId = other :=
    Fin.ext (owns.unique ownsToo producerId.isLt other.isLt)
  rw [position] at before
  exact not_before_self inside before

/-- What was sent is in the hands of the consumers. -/
theorem Traffic.mem_sent_iff_received (traffic : Traffic config state)
    {block : Nat} : block ∈ state.sent ↔
      ∃ consumerId, block ∈ (state.consumer consumerId).received := by
  rw [← Multiset.mem_coe, ← traffic.delivered, Multiset.mem_sum]
  simp

/-- A block is received at most once, by one consumer. -/
theorem Traffic.sum_count_le_one (traffic : Traffic config state)
    (block : Nat) :
    ∑ consumerId, (state.consumer consumerId).received.count block ≤ 1 := by
  have delivered := congrArg (Multiset.count block) traffic.delivered
  rw [Multiset.count_sum'] at delivered
  simp only [Multiset.coe_count] at delivered
  rw [delivered]
  exact List.nodup_iff_count_le_one.mp traffic.nodup block

theorem Traffic.sum_length (traffic : Traffic config state) :
    ∑ consumerId, (state.consumer consumerId).received.length =
      state.sent.length := by
  have delivered := congrArg Multiset.card traffic.delivered
  rw [Multiset.card_sum] at delivered
  exact delivered

theorem Traffic.length_le (traffic : Traffic config state) :
    state.sent.length ≤ cnt config := by
  have inside : state.sent.toFinset ⊆ Finset.range (cnt config) := by
    intro block mem
    rw [List.mem_toFinset] at mem
    exact Finset.mem_range.mpr (traffic.sent_lt block mem)
  have bound := Finset.card_le_card inside
  rwa [List.toFinset_card_of_nodup traffic.nodup, Finset.card_range] at bound

theorem Traffic.producerMove (traffic : Traffic config state)
    (phases : Phases limit config state) {producerId : Fin cntProducer}
    (move : ProducerMove config state producerId next) :
    Traffic config next := by
  have valid := traffic.producer_valid producerId
  cases move with
  | nextLoop point inLoop =>
      apply traffic.moveProducer
      · exact ⟨inLoop, le_rfl⟩
      · intro block
        rw [point]
        exact before_startIdx
  | @finish i point loopEnds =>
      rw [point] at valid
      have atEnd : config.loop = i := by
        have upTo : i ≤ config.loop := valid
        omega
      apply traffic.moveProducer
      · trivial
      · intro block
        rw [point]
        simp only [ProducerPoint.sentTo, atEnd]
  | @issue i j point inRange inside =>
      have started : state.main ≠ .make := by
        intro atMake
        have active := phases.producer_started producerId
        simp [point, atMake, MainPoint.ProducerStarted] at active
      have index :=
        traffic.blockIndex_eq (phases.fits started) point inRange
      rw [point] at valid
      have moved : Traffic config (state.moveProducer producerId
          (.stampBegin i j (blockIndex config i j))) := by
        apply traffic.moveProducer
        · exact ⟨valid.1, ⟨valid.2, inRange⟩, index, inside⟩
        · intro block
          rw [point]
          exact Iff.rfl
      exact moved.congr rfl rfl rfl
  | issuePanics point inRange outside => exact traffic.congr rfl rfl rfl
  | endRange point rangeEnds =>
      rw [point] at valid
      apply traffic.moveProducer
      · exact valid.1
      · intro block
        rw [point]
        exact (before_endIdx rangeEnds).symm
  | @stampBegin i j idx point =>
      rw [point] at valid
      have moved : Traffic config
          (state.moveProducer producerId (.send i j idx)) := by
        apply traffic.moveProducer
        · exact valid
        · intro block
          rw [point]
          exact Iff.rfl
      exact moved.congr rfl rfl rfl
  | @stampEnd i j idx point =>
      rw [point] at valid
      have moved : Traffic config
          (state.moveProducer producerId (.inner i (j + 1))) := by
        apply traffic.moveProducer
        · exact ⟨valid.1, Nat.le_succ_of_le valid.2.1.1⟩
        · intro block
          rw [point]
          exact Iff.rfl
      exact moved.congr rfl rfl rfl
  | wake point =>
      rw [point] at valid
      apply traffic.moveProducer
      · exact valid
      · intro block
        rw [point]
        exact Iff.rfl

theorem Traffic.consumerMove (traffic : Traffic config state)
    {consumerId : Fin cntConsumer}
    (move : ConsumerMove state consumerId next) : Traffic config next := by
  cases move with
  | addReady point | stamp point | count point | store point inside =>
      exact traffic.updateConsumer rfl rfl rfl rfl
  | storePanics point outside => exact traffic.congr rfl rfl rfl

theorem Traffic.mainMove (traffic : Traffic config state)
    (phases : Phases limit config state)
    (move : MainMove limit config state next) :
    Traffic config next := by
  cases move with
  | startConsumer point inside =>
      exact traffic.updateConsumer rfl rfl rfl rfl
  | @startProducer i point inside =>
      have sleeping := phases.producer_sleeping point inside
      have moved : Traffic config
          (state.moveProducer ⟨i, inside⟩ (.loop 0)) := by
        apply traffic.moveProducer
        · exact Nat.zero_le _
        · intro block
          rw [sleeping]
          exact Iff.rfl
      exact moved.congr rfl rfl rfl
  | make point fits | makePanics point tooLong | startedConsumers point done
  | startedProducers point done | sentNils point done =>
      exact traffic.congr rfl rfl rfl

/-- Passing a block moves it from the producer's range to the consumer's
hand. -/
theorem Traffic.block (traffic : Traffic config state)
    {producerId : Fin cntProducer} {consumerId : Fin cntConsumer}
    {i j idx : Nat} (sends : state.producer producerId = .send i j idx) :
    Traffic config
      { (state.moveProducer producerId (.stampEnd i j idx)).setConsumer
          consumerId
          { state.consumer consumerId with
            point := .stamp idx
            received := idx :: (state.consumer consumerId).received } with
        sent := idx :: state.sent } := by
  have valid := traffic.producer_valid producerId
  rw [sends] at valid
  obtain ⟨inLoop, owns, index, inside⟩ := valid
  constructor
  · exact ThreadFamily.forall_update
      (fun (other : Fin cntProducer) member =>
        ProducerPoint.Valid config cntProducer other member)
      traffic.producer_valid ⟨inLoop, owns, index, inside⟩
  · intro block
    have reached : ∀ other : Fin cntProducer,
        Before config cntProducer other
            ((Function.update state.producer producerId
              (.stampEnd i j idx) other).sentTo config) block ↔
          (other = producerId ∧ block = idx) ∨
            Before config cntProducer other
              ((state.producer other).sentTo config) block := by
      intro other
      by_cases same : other = producerId
      · subst same
        rw [Function.update_self, sends, index]
        simp only [true_and]
        exact before_succ other.isLt owns
      · rw [Function.update_of_ne same]
        simp [same]
    have earlier := traffic.mem_sent block
    change block ∈ idx :: state.sent ↔ ∃ other : Fin cntProducer,
      Before config cntProducer other
        ((Function.update state.producer producerId
          (.stampEnd i j idx) other).sentTo config) block
    simp only [reached, exists_or, List.mem_cons, earlier]
    simp
  · intro block mem
    rcases List.mem_cons.mp mem with rfl | mem
    · exact inside
    · exact traffic.sent_lt block mem
  · apply List.nodup_cons.mpr
    refine ⟨?_, traffic.nodup⟩
    rw [index]
    exact traffic.not_mem_sent owns (by rw [sends]; rfl)
  · have delivered :
        (∑ other, ((Function.update state.consumer consumerId
          { state.consumer consumerId with
            point := .stamp idx
            received := idx :: (state.consumer consumerId).received }
          other).received : Multiset Nat)) =
        {idx} + ∑ other, ((state.consumer other).received : Multiset Nat) :=
      ThreadFamily.sum_update_add
        (fun _ (member : Consumer) => (member.received : Multiset Nat)) rfl
    rw [traffic.delivered] at delivered
    exact delivered

theorem Traffic.rendezvous (traffic : Traffic config state)
    {actor : Actor cntProducer cntConsumer}
    (move : Rendezvous state actor next) : Traffic config next := by
  cases move with
  | @producerSignal producerId _ sends receives =>
      have moved : Traffic config
          (state.moveProducer producerId .complete) := by
        apply traffic.moveProducer
        · trivial
        · intro block
          rw [sends]
          exact Iff.rfl
      exact moved.congr rfl rfl rfl
  | readySignal sends receives | completeSignal sends receives
  | nil sends inside receives =>
      exact traffic.updateConsumer rfl rfl rfl rfl
  | block sends receives => exact traffic.block sends

/-- Every step keeps the traffic. -/
theorem Traffic.step (traffic : Traffic config state)
    (phases : Phases limit config state)
    {action : Action cntProducer cntConsumer}
    (taken : ThreadTransChannel.step limit config state action = some next) :
    Traffic config next := by
  have now : Traffic config { state with clock := action.time } :=
    traffic.congr rfl rfl rfl
  have phasesNow : Phases limit config { state with clock := action.time } :=
    phases.congr rfl rfl rfl rfl
  obtain ⟨_, move⟩ := step_cases taken
  cases move with
  | main move => exact now.mainMove phasesNow move
  | producer move => exact now.producerMove phasesNow move
  | consumer move => exact now.consumerMove move
  | rendezvous move => exact now.rendezvous move

end ThreadTransChannel

end LatencyBenchmark
