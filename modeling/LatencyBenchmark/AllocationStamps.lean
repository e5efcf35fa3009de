import LatencyBenchmark.AllocationOwnership

/-!
# Stamps of the C allocation benchmark

The four stamps of a block are set by two threads, in the order of their
slots: two by its producer, two by the consumer.  Only the thread that has an
index in hand writes the block of that index, so between its steps the block
stays as it is.
-/

namespace LatencyBenchmark

namespace MallocFree

variable {Address Ring : Type*} [DecidableEq Address]
variable {cntProducer : Nat}
variable {buffer : RingBuffer Ring (Option Address)}

/-- The first `count` slots of a block hold readings of the clock in their
order, the others the zero time. -/
def LatencyBlock.Stamped (block : LatencyBlock) (idx count : Nat)
    (clock : Int) : Prop :=
  ∃ readings : List Int, readings.length = count ∧
    block = ⟨idx, fun k => readings[k]?⟩ ∧
      readings.Pairwise (fun earlier later => earlier ≤ later) ∧
        ∀ reading ∈ readings, reading ≤ clock

theorem LatencyBlock.Stamped.later {block : LatencyBlock} {idx count : Nat}
    {clock time : Int} (stamped : block.Stamped idx count clock)
    (order : clock ≤ time) : block.Stamped idx count time := by
  obtain ⟨readings, length, equal, sorted, bound⟩ := stamped
  exact ⟨readings, length, equal, sorted,
    fun reading mem => le_trans (bound reading mem) order⟩

/-- Setting the next slot. -/
theorem LatencyBlock.Stamped.stamp {block : LatencyBlock} {idx count : Nat}
    {clock : Int} (stamped : block.Stamped idx count clock) :
    LatencyBlock.Stamped
      { block with ts := Function.update block.ts count (some clock) }
      idx (count + 1) clock := by
  obtain ⟨readings, rfl, rfl, sorted, bound⟩ := stamped
  refine ⟨readings ++ [clock], by simp, ?_, ?_, ?_⟩
  · rw [LatencyBlock.mk.injEq]
    refine ⟨rfl, ?_⟩
    funext k
    rcases Nat.lt_trichotomy k readings.length with below | rfl | above
    · rw [Function.update_of_ne (Nat.ne_of_lt below),
        List.getElem?_append_left below]
    · rw [Function.update_self, List.getElem?_concat_length]
    · rw [Function.update_of_ne (Nat.ne_of_gt above)]
      change readings[k]? = _
      rw [List.getElem?_eq_none (Nat.le_of_lt above),
        List.getElem?_eq_none (by simp only [List.length_append,
          List.length_singleton]; omega)]
  · rw [List.pairwise_append]
    refine ⟨sorted, List.pairwise_singleton _ _, ?_⟩
    intro earlier mem later last
    rw [List.mem_singleton.mp last]
    exact bound earlier mem
  · intro reading mem
    rw [List.mem_append, List.mem_singleton] at mem
    rcases mem with earlier | rfl
    · exact bound reading earlier
    · exact le_refl _

/-- What a producer has done to the block of the index in its hand. -/
inductive Stage where
  | cleared
  | stamped (count : Nat)
  deriving DecidableEq, Repr

def LatencyBlock.At (block : LatencyBlock) (idx : Nat) (clock : Int) :
    Stage → Prop
  | .cleared => block = .zero
  | .stamped count => block.Stamped idx count clock

/-- The index in a producer's hand and the stage of its block. -/
def ProducerPoint.stage : ProducerPoint Address → Option (Nat × Stage)
  | .setIdx idx => some (idx, .cleared)
  | .stampBegin idx => some (idx, .stamped 0)
  | .malloc idx | .stampEnd idx _ => some (idx, .stamped 1)
  | .initialise idx _ | .write idx _ => some (idx, .stamped 2)
  | .wait | .head | .clear _ | .done => none

/-- How many slots are set in the block of the `k`-th message sent. -/
def Consumer.stamps (consumer : Consumer Address) (k : Nat) : Nat :=
  if k < consumer.cnt then
    4
  else if k = consumer.cnt then
    match consumer.point with
    | .free _ _ | .stampFreed _ => 3
    | _ => 2
  else
    2

/-- Every block an index of which is past `setIdx` is as far as its owner. -/
structure Records (state : State Address Ring cntProducer 1) : Prop where
  inHand : ∀ index idx stage,
    (state.producer index).point.stage = some (idx, stage) →
      (state.blocks idx).At idx state.clock stage
  failed : ∀ idx ∈ state.failed,
    (state.blocks idx).Stamped idx 2 state.clock
  sent : ∀ (k : Nat) entry, state.sent[k]? = some entry →
    (state.blocks entry.2).Stamped entry.2
      ((state.consumer 0).stamps k) state.clock

/-- The indices that are not in a certain producer's hand: in another's,
failed or sent. -/
def State.Elsewhere (state : State Address Ring cntProducer 1)
    (index : Fin cntProducer) (idx : Nat) : Prop :=
  (∃ other, other ≠ index ∧
    (state.producer other).point.index = some idx) ∨
  idx ∈ state.failed ∨ idx ∈ state.sent.map Prod.snd

omit [DecidableEq Address] in
theorem ProducerPoint.index_of_stage {point : ProducerPoint Address}
    {idx : Nat} {stage : Stage} (found : point.stage = some (idx, stage)) :
    point.index = some idx := by
  cases point <;> simp_all [ProducerPoint.stage, ProducerPoint.index]

namespace Traffic

variable {total : Nat} {state : State Address Ring cntProducer 1}

theorem count_le_one (traffic : Traffic total state) (idx : Nat) :
    (∑ index, (state.producer index).indexCount idx) +
      state.failed.count idx + (state.sent.map Prod.snd).count idx ≤ 1 := by
  rw [traffic.indices idx]
  exact List.nodup_iff_count_le_one.mp List.nodup_range idx

omit [DecidableEq Address] in
theorem indexCount_pos {producer : Producer Address} {idx : Nat}
    (inHand : producer.point.index = some idx) :
    0 < producer.indexCount idx := by
  rw [Producer.indexCount, if_pos inHand]
  exact Nat.succ_pos _

/-- The index in a producer's hand is nowhere else. -/
theorem ne_of_elsewhere (traffic : Traffic total state)
    {index : Fin cntProducer} {idx other : Nat}
    (inHand : (state.producer index).point.index = some idx)
    (elsewhere : state.Elsewhere index other) : other ≠ idx := by
  rintro rfl
  have once := traffic.count_le_one other
  have here := indexCount_pos inHand
  have bound := ThreadFamily.le_sum
    (fun producer => (state.producer producer).indexCount other) index
  rcases elsewhere with ⟨second, different, there⟩ | failed | sent
  · have two := ThreadFamily.add_le_sum
      (fun producer => (state.producer producer).indexCount other) different
    have again := indexCount_pos there
    omega
  · have again := List.count_pos_iff.mpr failed
    omega
  · have again := List.count_pos_iff.mpr sent
    omega

/-- An index that was sent is in no producer's hand. -/
theorem ne_of_sent (traffic : Traffic total state) {index : Fin cntProducer}
    {idx other : Nat} (sent : idx ∈ state.sent.map Prod.snd)
    (inHand : (state.producer index).point.index = some other) :
    other ≠ idx :=
  (traffic.ne_of_elsewhere inHand (Or.inr (Or.inr sent))).symm

/-- An index that was sent has not failed. -/
theorem not_failed_of_sent (traffic : Traffic total state) {idx : Nat}
    (sent : idx ∈ state.sent.map Prod.snd) : idx ∉ state.failed := by
  intro failed
  have once := traffic.count_le_one idx
  have here := List.count_pos_iff.mpr sent
  have there := List.count_pos_iff.mpr failed
  omega

/-- No index is sent twice. -/
theorem sent_nodup (traffic : Traffic total state) :
    (state.sent.map Prod.snd).Nodup := by
  rw [List.nodup_iff_count_le_one]
  intro idx
  have once := traffic.count_le_one idx
  omega

/-- Different messages have different indices. -/
theorem eq_of_sent (traffic : Traffic total state) {first second : Nat}
    {entry other : Address × Nat} (foundFirst : state.sent[first]? = some entry)
    (foundSecond : state.sent[second]? = some other)
    (same : entry.2 = other.2) : first = second := by
  have inside := (List.getElem?_eq_some_iff.mp foundFirst).1
  refine (List.getElem?_inj (by simpa using inside)
    traffic.sent_nodup).mp ?_
  rw [List.getElem?_map, List.getElem?_map, foundFirst, foundSecond]
  simp [same]

end Traffic

namespace Records

variable {total : Nat} {state next : State Address Ring cntProducer 1}

/-- The clock of a step. -/
theorem at_time (records : Records state) {time : Int}
    (order : state.clock ≤ time) : Records { state with clock := time } where
  inHand index idx stage found := by
    have before := records.inHand index idx stage found
    cases stage with
    | cleared => exact before
    | stamped count => exact LatencyBlock.Stamped.later before order
  failed idx mem := (records.failed idx mem).later order
  sent k entry found := (records.sent k entry found).later order

/-- A move of a producer that writes no block but that of its index. -/
theorem of_producer (records : Records state) {index : Fin cntProducer}
    {value : Producer Address}
    (producer : next.producer = Function.update state.producer index value)
    (consumer : next.consumer = state.consumer)
    (clock : next.clock = state.clock)
    (kept : ∀ idx, state.Elsewhere index idx →
      next.blocks idx = state.blocks idx)
    (hand : ∀ idx stage, value.point.stage = some (idx, stage) →
      (next.blocks idx).At idx state.clock stage)
    (failed : ∀ idx ∈ next.failed, idx ∈ state.failed ∨
      (next.blocks idx).Stamped idx 2 state.clock)
    (sent : ∀ (k : Nat) entry, next.sent[k]? = some entry →
      state.sent[k]? = some entry ∨
        (next.blocks entry.2).Stamped entry.2
          ((state.consumer 0).stamps k) state.clock) :
    Records next where
  inHand other idx stage found := by
    rw [producer] at found
    rw [clock]
    by_cases same : other = index
    · subst same
      rw [Function.update_self] at found
      exact hand idx stage found
    · rw [Function.update_of_ne same] at found
      rw [kept idx (Or.inl
        ⟨other, same, ProducerPoint.index_of_stage found⟩)]
      exact records.inHand other idx stage found
  failed idx mem := by
    rw [clock]
    rcases failed idx mem with old | new
    · rw [kept idx (Or.inr (Or.inl old))]
      exact records.failed idx old
    · exact new
  sent k entry found := by
    rw [clock, consumer]
    rcases sent k entry found with old | new
    · have mem : entry.2 ∈ state.sent.map Prod.snd :=
        List.mem_map_of_mem (List.mem_of_getElem? old)
      rw [kept entry.2 (Or.inr (Or.inr mem))]
      exact records.sent k entry old
    · exact new

/-- A move that writes no block at all, and neither fails nor sends. -/
theorem of_producer_same (records : Records state) {index : Fin cntProducer}
    {value : Producer Address}
    (producer : next.producer = Function.update state.producer index value)
    (consumer : next.consumer = state.consumer)
    (clock : next.clock = state.clock) (blocks : next.blocks = state.blocks)
    (failed : next.failed = state.failed) (sent : next.sent = state.sent)
    (stage : ∀ idx stage, value.point.stage = some (idx, stage) →
      (state.producer index).point.stage = some (idx, stage)) :
    Records next := by
  apply records.of_producer producer consumer clock
  · exact fun idx _ => congrFun blocks idx
  · intro idx stage' found
    rw [blocks]
    exact records.inHand index idx stage' (stage idx stage' found)
  · exact fun idx mem => Or.inl (failed ▸ mem)
  · exact fun k entry found => Or.inl (sent ▸ found)

/-- A move that writes the block of the producer's index. -/
theorem of_update (records : Records state) (traffic : Traffic total state)
    {index : Fin cntProducer} {value : Producer Address} {idx : Nat}
    {block : LatencyBlock}
    (inHand : (state.producer index).point.index = some idx)
    (producer : next.producer = Function.update state.producer index value)
    (consumer : next.consumer = state.consumer)
    (clock : next.clock = state.clock)
    (blocks : next.blocks = Function.update state.blocks idx block)
    (hand : ∀ other stage, value.point.stage = some (other, stage) →
      other = idx ∧ block.At idx state.clock stage)
    (failed : ∀ other ∈ next.failed, other ∈ state.failed ∨
      (other = idx ∧ block.Stamped idx 2 state.clock))
    (sent : next.sent = state.sent) : Records next := by
  apply records.of_producer producer consumer clock
  · intro other elsewhere
    rw [blocks, Function.update_of_ne
      (traffic.ne_of_elsewhere inHand elsewhere)]
  · intro other stage found
    obtain ⟨rfl, reached⟩ := hand other stage found
    rw [blocks, Function.update_self]
    exact reached
  · intro other mem
    rcases failed other mem with old | ⟨rfl, reached⟩
    · exact Or.inl old
    · rw [blocks, Function.update_self]
      exact Or.inr reached
  · exact fun k entry found => Or.inl (sent ▸ found)

/-- The message a producer sends next has two slots set. -/
theorem stamps_length (traffic : Traffic total state) :
    (state.consumer 0).stamps state.sent.length = 2 := by
  have reading := traffic.reading 0
  unfold Consumer.stamps
  by_cases last : state.sent.length = (state.consumer 0).cnt
  · rw [if_neg (by omega), if_pos last]
    cases point : (state.consumer 0).point with
    | free block blockIdx =>
        rw [Consumer.Reading, point] at reading
        obtain ⟨_, idx, found⟩ := reading
        have inside := (List.getElem?_eq_some_iff.mp found).1
        omega
    | stampFreed blockIdx =>
        rw [Consumer.Reading, point] at reading
        omega
    | register | read | loadIdx | stampFree | store | done => rfl
  · have bound := traffic.freed_le 0
    rw [Consumer.freed] at bound
    rw [if_neg (by omega), if_neg last]

theorem producerMove (records : Records state) (traffic : Traffic total state)
    {index : Fin cntProducer} (move : ProducerMove buffer state index next) :
    Records next := by
  cases move with
  | ready point | finish point =>
      exact records.of_producer_same rfl rfl rfl rfl rfl rfl
        (by simp [ProducerPoint.stage])
  | next point rests =>
      exact records.of_producer_same rfl rfl rfl rfl rfl rfl
        (by simp [ProducerPoint.stage])
  | mallocNull point | malloc point | initialise point =>
      exact records.of_producer_same rfl rfl rfl rfl rfl rfl
        (by simp [ProducerPoint.stage, point])
  | initialiseFault => exact { records with }
  | @clear idx point =>
      refine records.of_update traffic (by rw [point, ProducerPoint.index])
        rfl rfl rfl rfl ?_ (fun _ mem => Or.inl mem) rfl
      intro other stage found
      cases found
      exact ⟨rfl, rfl⟩
  | @setIdx idx point =>
      have zero := records.inHand index idx .cleared
        (by rw [point, ProducerPoint.stage])
      refine records.of_update traffic (by rw [point, ProducerPoint.index])
        rfl rfl rfl rfl ?_ (fun _ mem => Or.inl mem) rfl
      intro other stage found
      cases found
      refine ⟨rfl, [], rfl, ?_, List.Pairwise.nil, by simp⟩
      rw [show state.blocks idx = .zero from zero]
      rfl
  | @stampBegin idx point =>
      have stamped := records.inHand index idx (.stamped 0)
        (by rw [point, ProducerPoint.stage])
      refine records.of_update traffic (by rw [point, ProducerPoint.index])
        rfl rfl rfl rfl ?_ (fun _ mem => Or.inl mem) rfl
      intro other stage found
      cases found
      exact ⟨rfl, LatencyBlock.Stamped.stamp stamped⟩
  | @stampEnd idx block point =>
      have stamped := records.inHand index idx (.stamped 1)
        (by rw [point, ProducerPoint.stage])
      refine records.of_update traffic (by rw [point, ProducerPoint.index])
        rfl rfl rfl rfl ?_ (fun _ mem => Or.inl mem) rfl
      intro other stage found
      cases found
      exact ⟨rfl, LatencyBlock.Stamped.stamp stamped⟩
  | @stampFailed idx point =>
      have stamped := records.inHand index idx (.stamped 1)
        (by rw [point, ProducerPoint.stage])
      refine records.of_update traffic (by rw [point, ProducerPoint.index])
        rfl rfl rfl rfl (fun _ _ found => by cases found) ?_ rfl
      intro other mem
      rcases List.mem_cons.mp mem with rfl | old
      · exact Or.inr ⟨rfl, LatencyBlock.Stamped.stamp stamped⟩
      · exact Or.inl old
  | @write idx block point =>
      have stamped := records.inHand index idx (.stamped 2)
        (by rw [point, ProducerPoint.stage])
      refine records.of_producer rfl rfl rfl (fun _ _ => rfl)
        (fun _ _ found => by cases found) (fun _ mem => Or.inl mem) ?_
      intro k entry found
      change (state.sent ++ [(block, idx)])[k]? = some entry at found
      rw [List.getElem?_append] at found
      split at found
      · exact Or.inl found
      · rw [List.getElem?_singleton] at found
        split at found
        · cases found
          have last : k = state.sent.length := by omega
          rw [last, stamps_length traffic]
          exact Or.inr stamped
        · cases found

/-- A move of the consumer that sets no slot. -/
theorem of_consumer_same (records : Records state) {value : Consumer Address}
    (consumer : next.consumer = Function.update state.consumer 0 value)
    (producer : next.producer = state.producer)
    (clock : next.clock = state.clock) (blocks : next.blocks = state.blocks)
    (failed : next.failed = state.failed) (sent : next.sent = state.sent)
    (stamps : ∀ k, value.stamps k = (state.consumer 0).stamps k) :
    Records next where
  inHand := by
    rw [producer, blocks, clock]
    exact records.inHand
  failed := by
    rw [failed, blocks, clock]
    exact records.failed
  sent := by
    rw [sent, blocks, clock, consumer, Function.update_self]
    intro k entry found
    rw [stamps k]
    exact records.sent k entry found

/-- The consumer sets the next slot of the block of its message. -/
theorem of_consumer_stamp (records : Records state)
    (traffic : Traffic total state) {value : Consumer Address}
    {entry : Address × Nat}
    (found : state.sent[(state.consumer 0).cnt]? = some entry)
    (consumer : next.consumer = Function.update state.consumer 0 value)
    (producer : next.producer = state.producer)
    (clock : next.clock = state.clock)
    (blocks : next.blocks = (state.stamp entry.2
      ((state.consumer 0).stamps (state.consumer 0).cnt)).blocks)
    (failed : next.failed = state.failed) (sent : next.sent = state.sent)
    (current : value.stamps (state.consumer 0).cnt =
      (state.consumer 0).stamps (state.consumer 0).cnt + 1)
    (others : ∀ k, k ≠ (state.consumer 0).cnt →
      value.stamps k = (state.consumer 0).stamps k) :
    Records next := by
  have isSent : entry.2 ∈ state.sent.map Prod.snd :=
    List.mem_map_of_mem (List.mem_of_getElem? found)
  have kept : ∀ idx, idx ≠ entry.2 → next.blocks idx = state.blocks idx := by
    intro idx different
    rw [blocks]
    exact Function.update_of_ne different _ _
  refine ⟨?_, ?_, ?_⟩
  · intro index idx stage inHand
    rw [producer] at inHand
    rw [clock, kept idx (traffic.ne_of_sent isSent
      (ProducerPoint.index_of_stage inHand))]
    exact records.inHand index idx stage inHand
  · intro idx mem
    rw [failed] at mem
    have different : idx ≠ entry.2 := by
      rintro rfl
      exact traffic.not_failed_of_sent isSent mem
    rw [clock, kept idx different]
    exact records.failed idx mem
  · intro k other otherFound
    rw [sent] at otherFound
    rw [clock, consumer, Function.update_self]
    by_cases same : k = (state.consumer 0).cnt
    · subst same
      rw [found] at otherFound
      cases otherFound
      rw [blocks, State.stamp_blocks, Function.update_self, current]
      exact (records.sent _ entry found).stamp
    · have different : other.2 ≠ entry.2 := fun equal =>
        same (traffic.eq_of_sent otherFound found equal)
      rw [kept other.2 different, others k same]
      exact records.sent k other otherFound

theorem consumerMove (records : Records state) (traffic : Traffic total state)
    (ownership : Ownership state) (move : ConsumerMove buffer state 0 next) :
    Records next := by
  have handles := ownership.handles
  cases move with
  | register point | loadIdx point | store point =>
      refine records.of_consumer_same rfl rfl rfl rfl rfl rfl fun k => ?_
      simp [Consumer.stamps, point]
  | @read entry _ point =>
      refine records.of_consumer_same rfl rfl rfl rfl rfl rfl fun k => ?_
      cases entry <;>
        simp [Consumer.stamps, point, ConsumerPoint.afterRead]
  | free point live =>
      refine records.of_consumer_same rfl rfl rfl rfl rfl rfl fun k => ?_
      simp [Consumer.stamps, point]
  | loadFault | freeFault => exact { records with }
  | @stampFree block blockIdx point =>
      rw [Consumer.Handles, point] at handles
      refine records.of_consumer_stamp traffic handles rfl rfl rfl ?_ rfl rfl
        ?_ ?_
      · simp [Consumer.stamps, point, State.moveConsumer]
      · simp [Consumer.stamps, point]
      · intro k different
        simp [Consumer.stamps, different]
  | @stampFreed blockIdx point =>
      rw [Consumer.Handles, point] at handles
      obtain ⟨block, found⟩ := handles
      refine records.of_consumer_stamp traffic found rfl rfl rfl ?_ rfl rfl
        ?_ ?_
      · simp [Consumer.stamps, point]
      · simp [Consumer.stamps, point]
      · intro k different
        simp only [Consumer.stamps]
        split_ifs <;> omega

theorem mainMove (records : Records state) (move : MainMove buffer state next) :
    Records next := by
  cases move <;> exact { records with }

end Records

end MallocFree

end LatencyBenchmark
