import LatencyBenchmark.ThreadTransChannelTraffic

/-!
# Timestamps of the Go channel benchmark

A block gets `Ts[0]` before it is sent and `Ts[1]` and `Ts[2]` after, so on
one clock the later stamps are never before the first.
-/

namespace LatencyBenchmark

namespace ThreadTransChannel

variable {cntProducer cntConsumer : Nat} {limit : MakeLimit}
variable {config : ThreadTransConfig}
variable {state next : State cntProducer cntConsumer}

/-- Slot `k` of a block is set. -/
def State.Stamped (state : State cntProducer cntConsumer) (block : Nat)
    (k : Fin 8) : Prop :=
  ((state.blocks block).ts k).isSome

/-- Every block a consumer received has `Ts[2]`, but for one it has yet to
stamp. -/
structure ConsumerStamped (blocks : Nat → LatencyBlock)
    (consumer : Consumer) : Prop where
  read : ∀ block ∈ consumer.received,
    consumer.point = .stamp block ∨ ((blocks block).ts 2).isSome
  in_hand : ∀ block, consumer.point = .stamp block → block ∈ consumer.received

/-- What the timestamps keep over all steps. -/
structure Stamps (state : State cntProducer cntConsumer) : Prop where
  begin_le : ∀ block time,
    (state.blocks block).ts 0 = some time → time ≤ state.clock
  begin_of_sent : ∀ block ∈ state.sent, state.Stamped block 0
  begin_of_send : ∀ producerId, ∀ i j idx,
    state.producer producerId = .send i j idx → state.Stamped idx 0
  later : ∀ block k time, k = 1 ∨ k = 2 →
    (state.blocks block).ts k = some time → block ∈ state.sent ∧
      ∃ first, (state.blocks block).ts 0 = some first ∧ first ≤ time
  end_of_sent : ∀ block ∈ state.sent, state.Stamped block 1 ∨
    ∃ producerId i j, state.producer producerId = .stampEnd i j block
  consumer_stamped : ∀ consumerId,
    ConsumerStamped state.blocks (state.consumer consumerId)

theorem stamps_start (clock : Int) :
    Stamps (start cntProducer cntConsumer clock) where
  begin_le := by simp [start]
  begin_of_sent := by simp [start]
  begin_of_send := by simp [start]
  later := by simp [start]
  end_of_sent := by simp [start]
  consumer_stamped := fun _ => ⟨by simp [start], by simp [start]⟩

theorem ts_stampBlock (idx block : Nat) (k slot : Fin 8) :
    ((state.stampBlock idx k).blocks block).ts slot =
      if block = idx ∧ slot = k then some state.clock
      else (state.blocks block).ts slot := by
  unfold State.stampBlock LatencyBlock.stamp
  by_cases sameBlock : block = idx
  · subst sameBlock
    by_cases sameSlot : slot = k
    · subst sameSlot
      simp
    · simp [sameSlot]
  · simp [sameBlock]

theorem stamped_stampBlock_self (idx : Nat) (k : Fin 8) :
    (state.stampBlock idx k).Stamped idx k := by
  unfold State.Stamped
  rw [ts_stampBlock, if_pos ⟨rfl, rfl⟩]
  rfl

/-- A stamp erases no other. -/
theorem State.Stamped.stampBlock {block : Nat} {slot : Fin 8}
    (stamped : state.Stamped block slot) (idx : Nat) (k : Fin 8) :
    (state.stampBlock idx k).Stamped block slot := by
  unfold State.Stamped at stamped ⊢
  rw [ts_stampBlock]
  split
  · rfl
  · exact stamped

theorem ConsumerStamped.stampBlock {consumer : Consumer}
    (stamped : ConsumerStamped state.blocks consumer) (idx : Nat)
    (k : Fin 8) : ConsumerStamped (state.stampBlock idx k).blocks consumer where
  read := by
    intro block mem
    rcases stamped.read block mem with point | earlier
    · exact Or.inl point
    · exact Or.inr (State.Stamped.stampBlock earlier idx k)
  in_hand := stamped.in_hand

theorem Stamps.atTime (stamps : Stamps state) {time : Int}
    (later : state.clock ≤ time) : Stamps { state with clock := time } :=
  { stamps with
    begin_le := fun block first stamped =>
      (stamps.begin_le block first stamped).trans later }

/-- The stamps read the clock, the blocks and who holds which. -/
theorem Stamps.congr (stamps : Stamps state)
    (clock : next.clock = state.clock)
    (blocks : ∀ block, (next.blocks block).ts = (state.blocks block).ts)
    (sent : next.sent = state.sent)
    (producer : next.producer = state.producer)
    (consumer : next.consumer = state.consumer) : Stamps next := by
  have same : ∀ block k, next.Stamped block k ↔ state.Stamped block k := by
    intro block k
    unfold State.Stamped
    rw [blocks]
  constructor
  · intro block time stamped
    rw [blocks] at stamped
    rw [clock]
    exact stamps.begin_le block time stamped
  · intro block mem
    rw [same]
    exact stamps.begin_of_sent block (sent ▸ mem)
  · intro producerId i j idx point
    rw [same]
    exact stamps.begin_of_send producerId i j idx (producer ▸ point)
  · intro block k time slot stamped
    rw [blocks] at stamped
    rw [blocks, sent]
    exact stamps.later block k time slot stamped
  · intro block mem
    rw [same, producer]
    exact stamps.end_of_sent block (sent ▸ mem)
  · intro consumerId
    obtain ⟨read, inHand⟩ := stamps.consumer_stamped consumerId
    rw [consumer]
    constructor
    · simpa only [blocks] using read
    · exact inHand

theorem Stamps.moveProducer (stamps : Stamps state)
    {producerId : Fin cntProducer} {point : ProducerPoint}
    (notEnding : ∀ i j idx,
      state.producer producerId = .stampEnd i j idx → state.Stamped idx 1)
    (sending : ∀ i j idx, point = .send i j idx → state.Stamped idx 0) :
    Stamps (state.moveProducer producerId point) :=
  { stamps with
    begin_of_send := ThreadFamily.forall_update
      (fun _ member => ∀ i j idx,
        member = ProducerPoint.send i j idx → state.Stamped idx 0)
      stamps.begin_of_send sending
    end_of_sent := by
      intro block mem
      rcases stamps.end_of_sent block mem with stamped | ending
      · exact Or.inl stamped
      · obtain ⟨other, i, j, point⟩ := ending
        by_cases same : other = producerId
        · subst same
          exact Or.inl (notEnding i j block point)
        · refine Or.inr ⟨other, i, j, ?_⟩
          simp only [State.moveProducer]
          rwa [Function.update_of_ne same] }

/-- A consumer that has stamped the block in its hand may go anywhere but to
another stamp. -/
theorem Stamps.updateConsumer (stamps : Stamps state)
    {consumerId : Fin cntConsumer} {consumer : Consumer}
    (moved : next.consumer =
      Function.update state.consumer consumerId consumer)
    (received : consumer.received = (state.consumer consumerId).received)
    (old : ∀ block, (state.consumer consumerId).point = .stamp block →
      state.Stamped block 2)
    (new : ∀ block, consumer.point ≠ .stamp block)
    (clock : next.clock = state.clock) (blocks : next.blocks = state.blocks)
    (sent : next.sent = state.sent)
    (producer : next.producer = state.producer) : Stamps next := by
  have stamped : ConsumerStamped state.blocks consumer := by
    constructor
    · intro block mem
      rw [received] at mem
      have earlier := (stamps.consumer_stamped consumerId).read block mem
      exact Or.inr (earlier.elim (old block) id)
    · intro block point
      exact absurd point (new block)
  have held : Stamps
      { state with
        consumer := Function.update state.consumer consumerId consumer } :=
    { stamps with
      consumer_stamped := ThreadFamily.forall_update
        (fun _ member => ConsumerStamped state.blocks member)
        stamps.consumer_stamped stamped }
  exact held.congr clock (fun _ => by rw [blocks]) sent producer moved

/-- A block that was not sent has no later stamp than `Ts[0]`. -/
theorem Stamps.stampFirst (stamps : Stamps state) {idx : Nat}
    (fresh : idx ∉ state.sent) : Stamps (state.stampBlock idx 0) where
  begin_le := by
    intro block time stamped
    rw [ts_stampBlock] at stamped
    split at stamped
    · exact (Option.some.inj stamped).ge
    · exact stamps.begin_le block time stamped
  begin_of_sent := fun block mem =>
    (stamps.begin_of_sent block mem).stampBlock idx 0
  begin_of_send := fun producerId i j block point =>
    (stamps.begin_of_send producerId i j block point).stampBlock idx 0
  later := by
    intro block k time slot stamped
    have notFirst : k ≠ 0 := by
      rcases slot with rfl | rfl
      · decide
      · decide
    rw [ts_stampBlock, if_neg fun both => notFirst both.2] at stamped
    have earlier := stamps.later block k time slot stamped
    have other : block ≠ idx := fun same => fresh (same ▸ earlier.1)
    rw [ts_stampBlock, if_neg fun both => other both.1]
    exact earlier
  end_of_sent := fun block mem =>
    (stamps.end_of_sent block mem).imp_left (·.stampBlock idx 0)
  consumer_stamped := fun consumerId =>
    (stamps.consumer_stamped consumerId).stampBlock idx 0

/-- A block that was sent has a `Ts[0]` no later than now. -/
theorem Stamps.stampLater (stamps : Stamps state) {idx : Nat} {k : Fin 8}
    (notFirst : k ≠ 0) (mem : idx ∈ state.sent) :
    Stamps (state.stampBlock idx k) where
  begin_le := by
    intro block time stamped
    rw [ts_stampBlock, if_neg fun both => notFirst both.2.symm] at stamped
    exact stamps.begin_le block time stamped
  begin_of_sent := fun block mem =>
    (stamps.begin_of_sent block mem).stampBlock idx k
  begin_of_send := fun producerId i j block point =>
    (stamps.begin_of_send producerId i j block point).stampBlock idx k
  later := by
    intro block slot time later stamped
    rw [ts_stampBlock] at stamped
    rw [ts_stampBlock, if_neg fun both => notFirst both.2.symm]
    split at stamped
    · next same =>
        rw [same.1]
        obtain ⟨first, begun⟩ :=
          Option.isSome_iff_exists.mp (stamps.begin_of_sent idx mem)
        have inOrder := stamps.begin_le idx first begun
        rw [Option.some.inj stamped] at inOrder
        exact ⟨mem, first, begun, inOrder⟩
    · exact stamps.later block slot time later stamped
  end_of_sent := fun block mem =>
    (stamps.end_of_sent block mem).imp_left (·.stampBlock idx k)
  consumer_stamped := fun consumerId =>
    (stamps.consumer_stamped consumerId).stampBlock idx k

theorem Stamps.producerMove (stamps : Stamps state)
    (traffic : Traffic config state) {producerId : Fin cntProducer}
    (move : ProducerMove config state producerId next) : Stamps next := by
  have valid := traffic.producer_valid producerId
  cases move with
  | nextLoop point inLoop | finish point loopEnds | endRange point rangeEnds
  | wake point =>
      exact stamps.moveProducer (by simp [point]) (by simp)
  | @issue i j point inRange inside =>
      have moved : Stamps (state.moveProducer producerId
          (.stampBegin i j (blockIndex config i j))) :=
        stamps.moveProducer (by simp [point]) (by simp)
      refine moved.congr rfl ?_ rfl rfl rfl
      intro block
      by_cases same : block = blockIndex config i j
      · subst same
        simp [State.moveProducer]
      · simp [State.moveProducer, same]
  | issuePanics point inRange outside =>
      exact stamps.congr rfl (fun _ => rfl) rfl rfl rfl
  | @stampBegin i j idx point =>
      rw [point] at valid
      obtain ⟨_, owns, index, _⟩ := valid
      have fresh : idx ∉ state.sent := by
        rw [index]
        exact traffic.not_mem_sent owns (by rw [point]; rfl)
      apply (stamps.stampFirst fresh).moveProducer
      · simp [State.stampBlock, point]
      · intro _ _ block sending
        cases sending
        exact stamped_stampBlock_self idx 0
  | @stampEnd i j idx point =>
      have mem : idx ∈ state.sent := by
        rw [point] at valid
        obtain ⟨_, owns, index, _⟩ := valid
        rw [traffic.mem_sent]
        refine ⟨producerId, ?_⟩
        rw [point]
        exact (before_succ producerId.isLt owns).mpr (Or.inl index)
      apply (stamps.stampLater (by decide) mem).moveProducer
      · intro _ _ block ending
        have same : state.producer producerId = .stampEnd _ _ block := ending
        rw [point] at same
        cases same
        exact stamped_stampBlock_self idx 1
      · simp

theorem Stamps.consumerMove (stamps : Stamps state)
    (traffic : Traffic config state) {consumerId : Fin cntConsumer}
    (move : ConsumerMove state consumerId next) : Stamps next := by
  cases move with
  | addReady point | count point | store point inside =>
      exact stamps.updateConsumer rfl rfl (by simp [point]) (by simp)
        rfl rfl rfl rfl
  | @stamp block point =>
      have held := (stamps.consumer_stamped consumerId).in_hand block point
      have mem := traffic.mem_sent_iff_received.mpr ⟨consumerId, held⟩
      have stamped : Stamps (state.stampBlock block 2) :=
        stamps.stampLater (by decide) mem
      refine stamped.updateConsumer rfl rfl ?_ (by simp) rfl rfl rfl rfl
      intro other pointToo
      have same : (state.consumer consumerId).point = .stamp other := pointToo
      rw [point] at same
      cases same
      exact stamped_stampBlock_self block 2
  | storePanics point outside =>
      exact stamps.congr rfl (fun _ => rfl) rfl rfl rfl

theorem Stamps.mainMove (stamps : Stamps state)
    (phases : Phases limit config state)
    (move : MainMove limit config state next) : Stamps next := by
  cases move with
  | @startConsumer i point inside =>
      have sleeping := phases.consumer_sleeping point inside
      exact stamps.updateConsumer rfl rfl (by simp [sleeping]) (by simp)
        rfl rfl rfl rfl
  | @startProducer i point inside =>
      have sleeping := phases.producer_sleeping point inside
      have moved : Stamps (state.moveProducer ⟨i, inside⟩ (.loop 0)) :=
        stamps.moveProducer (by simp [sleeping]) (by simp)
      exact moved.congr rfl (fun _ => rfl) rfl rfl rfl
  | make point fits | makePanics point tooLong | startedConsumers point done
  | startedProducers point done | sentNils point done =>
      exact stamps.congr rfl (fun _ => rfl) rfl rfl rfl

/-- The block passed on has `Ts[0]`, and each of its holders is about to stamp
it. -/
theorem Stamps.block (stamps : Stamps state) {producerId : Fin cntProducer}
    {consumerId : Fin cntConsumer} {i j idx : Nat}
    (sends : state.producer producerId = .send i j idx)
    (receives : (state.consumer consumerId).point = .receive) :
    Stamps
      { (state.moveProducer producerId (.stampEnd i j idx)).setConsumer
          consumerId
          { state.consumer consumerId with
            point := .stamp idx
            received := idx :: (state.consumer consumerId).received } with
        sent := idx :: state.sent } := by
  have begun := stamps.begin_of_send producerId i j idx sends
  constructor
  · exact stamps.begin_le
  · intro block mem
    rcases List.mem_cons.mp mem with rfl | mem
    · exact begun
    · exact stamps.begin_of_sent block mem
  · exact ThreadFamily.forall_update
      (fun _ member => ∀ i j idx,
        member = ProducerPoint.send i j idx → state.Stamped idx 0)
      stamps.begin_of_send (by simp)
  · intro block k time slot stamped
    obtain ⟨mem, inOrder⟩ := stamps.later block k time slot stamped
    exact ⟨List.mem_cons_of_mem idx mem, inOrder⟩
  · intro block mem
    rcases List.mem_cons.mp mem with rfl | mem
    · exact Or.inr ⟨producerId, i, j, Function.update_self ..⟩
    · rcases stamps.end_of_sent block mem with stamped | ending
      · exact Or.inl stamped
      · obtain ⟨other, otherI, otherJ, point⟩ := ending
        have different : other ≠ producerId := by
          rintro rfl
          rw [sends] at point
          cases point
        refine Or.inr ⟨other, otherI, otherJ, ?_⟩
        exact (Function.update_of_ne different ..).trans point
  · apply ThreadFamily.forall_update
      (fun _ member => ConsumerStamped state.blocks member)
      stamps.consumer_stamped
    have earlier := (stamps.consumer_stamped consumerId).read
    constructor
    · intro block mem
      rcases List.mem_cons.mp mem with rfl | mem
      · exact Or.inl rfl
      · have stamped := earlier block mem
        simp only [receives, reduceCtorEq, false_or] at stamped
        exact Or.inr stamped
    · intro block point
      cases point
      exact List.mem_cons_self

theorem Stamps.rendezvous (stamps : Stamps state)
    {actor : Actor cntProducer cntConsumer}
    (move : Rendezvous state actor next) : Stamps next := by
  cases move with
  | @producerSignal producerId _ sends receives =>
      have moved : Stamps (state.moveProducer producerId .complete) :=
        stamps.moveProducer (by simp [sends]) (by simp)
      exact moved.congr rfl (fun _ => rfl) rfl rfl rfl
  | readySignal sends receives | completeSignal sends receives =>
      exact stamps.updateConsumer rfl rfl (by simp [sends]) (by simp)
        rfl rfl rfl rfl
  | nil sends inside receives =>
      exact stamps.updateConsumer rfl rfl (by simp [receives]) (by simp)
        rfl rfl rfl rfl
  | block sends receives => exact stamps.block sends receives

/-- Every step keeps the stamps. -/
theorem Stamps.step (stamps : Stamps state) (phases : Phases limit config state)
    (traffic : Traffic config state) {action : Action cntProducer cntConsumer}
    (taken : ThreadTransChannel.step limit config state action = some next) :
    Stamps next := by
  have phasesNow : Phases limit config { state with clock := action.time } :=
    phases.congr rfl rfl rfl rfl
  have trafficNow : Traffic config { state with clock := action.time } :=
    traffic.congr rfl rfl rfl
  obtain ⟨later, move⟩ := step_cases taken
  have now := stamps.atTime later
  cases move with
  | main move => exact now.mainMove phasesNow move
  | producer move => exact now.producerMove trafficNow move
  | consumer move => exact now.consumerMove trafficNow move
  | rendezvous move => exact now.rendezvous move

end ThreadTransChannel

end LatencyBenchmark
