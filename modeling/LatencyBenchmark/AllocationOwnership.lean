import LatencyBenchmark.AllocationTraffic

/-!
# Ownership of the blocks in the C allocation benchmark

With one consumer every allocated block has one owner: the producer that
allocated it, or the ring once it was sent, until the consumer frees it.
Addresses are used again, so this is a statement about every moment and not
about an address once and for all.  No access ever leaves the allocated
blocks.
-/

namespace LatencyBenchmark

namespace MallocFree

variable {Address Ring : Type*} [DecidableEq Address]
variable {cntProducer : Nat}
variable {buffer : RingBuffer Ring (Option Address)}

/-- Whether a producer has a certain block in hand. -/
def Producer.holds (producer : Producer Address) (block : Address) : Nat :=
  if producer.point.block = some block then 1 else 0

/-- What was sent and is not freed. -/
def State.unfreed (state : State Address Ring cntProducer 1) :
    List (Address × Nat) :=
  state.sent.drop (state.consumer 0).freed

/-- The message in the consumer's hand is the next one sent. -/
def Consumer.Handles (consumer : Consumer Address)
    (sent : List (Address × Nat)) : Prop :=
  match consumer.point with
  | .stampFree block blockIdx | .free block blockIdx =>
      sent[consumer.cnt]? = some (block, blockIdx)
  | .stampFreed blockIdx =>
      ∃ block, sent[consumer.cnt]? = some (block, blockIdx)
  | .register | .read | .loadIdx _ | .store | .done => True

/-- Every allocated block has one owner, and what was sent is initialised. -/
structure Ownership (state : State Address Ring cntProducer 1) : Prop where
  owners : ∀ block, state.heap.live block =
    (∑ index, (state.producer index).holds block) +
      (state.unfreed.map Prod.fst).count block
  written : ∀ index idx block,
    (state.producer index).point = .write idx block →
      state.heap.cell block = some (some idx)
  initialised : ∀ entry ∈ state.unfreed,
    state.heap.cell entry.1 = some (some entry.2)
  handles : (state.consumer 0).Handles state.sent
  not_faulted : state.faulted = false

namespace Ownership

variable {state next : State Address Ring cntProducer 1}

theorem holds_eq_one {index : Fin cntProducer} {block : Address}
    (holding : (state.producer index).point.block = some block) :
    (state.producer index).holds block = 1 :=
  if_pos holding

/-- A block in a producer's hand is allocated. -/
theorem isSome_of_holds (ownership : Ownership state)
    {index : Fin cntProducer} {block : Address}
    (holding : (state.producer index).point.block = some block) :
    (state.heap.cell block).isSome := by
  apply Heap.isSome_of_live
  have one := holds_eq_one holding
  have bound := ThreadFamily.le_sum
    (fun other => (state.producer other).holds block) index
  have owners := ownership.owners block
  omega

/-- Two producers never have one block in hand. -/
theorem ne_of_holds (ownership : Ownership state)
    {first second : Fin cntProducer} {block other : Address}
    (different : first ≠ second)
    (holdsFirst : (state.producer first).point.block = some block)
    (holdsSecond : (state.producer second).point.block = some other) :
    block ≠ other := by
  rintro rfl
  have two := ThreadFamily.add_le_sum
    (fun index => (state.producer index).holds block) different
  have oneFirst := holds_eq_one holdsFirst
  have oneSecond := holds_eq_one holdsSecond
  have owners := ownership.owners block
  have bound := state.heap.live_le_one block
  omega

/-- A block in a producer's hand is not one that was sent and not freed. -/
theorem ne_of_mem_unfreed (ownership : Ownership state)
    {index : Fin cntProducer} {block : Address}
    (holding : (state.producer index).point.block = some block)
    {entry : Address × Nat} (mem : entry ∈ state.unfreed) :
    entry.1 ≠ block := by
  rintro rfl
  have one := holds_eq_one holding
  have bound := ThreadFamily.le_sum
    (fun other => (state.producer other).holds entry.1) index
  have counted : 0 < (state.unfreed.map Prod.fst).count entry.1 :=
    List.count_pos_iff.mpr (List.mem_map_of_mem mem)
  have owners := ownership.owners entry.1
  have atMost := state.heap.live_le_one entry.1
  omega

/-- A move of a producer changes the owners by what it has in hand. -/
theorem sum_holds_update (state : State Address Ring cntProducer 1)
    (index : Fin cntProducer) (value : Producer Address) (block : Address) :
    (∑ other, (Function.update state.producer index value other).holds
        block) + (state.producer index).holds block =
      (∑ other, (state.producer other).holds block) + value.holds block :=
  ThreadFamily.sum_update state.producer index value
    fun _ producer => producer.holds block

/-- A block that was written stays so while a producer does something else
and the heap keeps the contents of other blocks. -/
theorem written_update (ownership : Ownership state) {index : Fin cntProducer}
    {value : Producer Address} {cell : Address → Option (Option Nat)}
    (notWrite : ∀ idx block, value.point = .write idx block →
      cell block = some (some idx))
    (kept : ∀ other idx block, other ≠ index →
      (state.producer other).point = .write idx block →
        cell block = state.heap.cell block)
    {other : Fin cntProducer} {idx : Nat} {block : Address}
    (point : (Function.update state.producer index value other).point =
      .write idx block) : cell block = some (some idx) := by
  by_cases same : other = index
  · subst same
    rw [Function.update_self] at point
    exact notWrite idx block point
  · rw [Function.update_of_ne same] at point
    rw [kept other idx block same point]
    exact ownership.written other idx block point

/-- A move of a producer that neither accesses the heap nor sends. -/
theorem of_producer (ownership : Ownership state) {index : Fin cntProducer}
    {value : Producer Address}
    (producer : next.producer = Function.update state.producer index value)
    (consumer : next.consumer = state.consumer)
    (sent : next.sent = state.sent) (heap : next.heap = state.heap)
    (faulted : next.faulted = state.faulted)
    (block : value.point.block = (state.producer index).point.block)
    (notWrite : ∀ idx other, value.point ≠ .write idx other) :
    Ownership next where
  owners := by
    intro other
    have sums := sum_holds_update state index value other
    have same : value.holds other = (state.producer index).holds other := by
      simp only [Producer.holds, block]
    have before := ownership.owners other
    rw [State.unfreed] at before
    rw [State.unfreed, producer, heap, consumer, sent]
    omega
  written := by
    intro other idx written point
    rw [producer] at point
    rw [heap]
    exact ownership.written_update
      (fun idx block atWrite => absurd atWrite (notWrite idx block))
      (fun _ _ _ _ _ => rfl) point
  initialised := by
    rw [State.unfreed, heap, consumer, sent]
    exact ownership.initialised
  handles := by
    rw [consumer, sent]
    exact ownership.handles
  not_faulted := faulted.trans ownership.not_faulted

/-- `malloc` gives a block to a producer. -/
theorem malloc (ownership : Ownership state) {index : Fin cntProducer}
    {idx : Nat} {block : Address}
    (point : (state.producer index).point = .malloc idx)
    (unused : state.heap.cell block = none) :
    Ownership
      { state.moveProducer index (.stampEnd idx (some block)) with
        heap := state.heap.malloc block unused } := by
  have kept : ∀ {other : Address} {value : Nat},
      state.heap.cell other = some (some value) →
        (state.heap.malloc block unused).cell other =
          state.heap.cell other := by
    intro other value content
    apply Heap.cell_malloc_of_ne unused
    rintro rfl
    rw [unused] at content
    cases content
  refine ⟨?_, ?_, ?_, ownership.handles, ownership.not_faulted⟩
  · intro other
    have sums := sum_holds_update state index
      ⟨.stampEnd idx (some block), (state.producer index).rest⟩ other
    have before := ownership.owners other
    rw [State.unfreed] at before
    have nothing : (state.producer index).holds other = 0 := by
      simp [Producer.holds, point, ProducerPoint.block]
    have taken : Producer.holds
        ⟨.stampEnd idx (some block), (state.producer index).rest⟩ other =
          if block = other then 1 else 0 := by
      simp [Producer.holds, ProducerPoint.block]
    rw [nothing, taken] at sums
    change Heap.live (state.heap.malloc block unused) other =
      (∑ index', (Function.update state.producer index
        ⟨.stampEnd idx (some block), (state.producer index).rest⟩
          index').holds other) +
        ((state.sent.drop (state.consumer 0).freed).map Prod.fst).count other
    rw [Heap.live_malloc]
    omega
  · intro other idx' block' atWrite
    refine ownership.written_update ?_ ?_ atWrite
    · intro idx' block' point
      cases point
    · intro other idx' block' _ point
      exact kept (ownership.written other idx' block' point)
  · intro entry mem
    have content := ownership.initialised entry mem
    exact (kept content).trans content

/-- A producer initialises the block in its hand. -/
theorem initialise (ownership : Ownership state) {index : Fin cntProducer}
    {idx : Nat} {block : Address}
    (point : (state.producer index).point = .initialise idx block)
    (live : (state.heap.cell block).isSome) :
    Ownership
      { state.moveProducer index (.write idx block) with
        heap := state.heap.store block idx live } := by
  have holding : (state.producer index).point.block = some block := by
    rw [point, ProducerPoint.block]
  refine ⟨?_, ?_, ?_, ownership.handles, ownership.not_faulted⟩
  · intro other
    have sums := sum_holds_update state index
      ⟨.write idx block, (state.producer index).rest⟩ other
    have before := ownership.owners other
    rw [State.unfreed] at before
    have same : Producer.holds
        ⟨.write idx block, (state.producer index).rest⟩ other =
          (state.producer index).holds other := by
      simp [Producer.holds, point, ProducerPoint.block]
    change Heap.live (state.heap.store block idx live) other =
      (∑ index', (Function.update state.producer index
        ⟨.write idx block, (state.producer index).rest⟩ index').holds other) +
        ((state.sent.drop (state.consumer 0).freed).map Prod.fst).count other
    rw [Heap.live_store]
    omega
  · intro other idx' block' atWrite
    refine ownership.written_update ?_ ?_ atWrite
    · intro idx' block' point
      cases point
      exact Heap.cell_store_self live
    · intro other idx' block' different point
      exact Heap.cell_store_of_ne live (ownership.ne_of_holds different
        (by rw [point, ProducerPoint.block]) holding)
  · intro entry mem
    exact (Heap.cell_store_of_ne live
      (ownership.ne_of_mem_unfreed holding mem)).trans
        (ownership.initialised entry mem)

omit [DecidableEq Address] in
/-- What is not freed grows with what is sent. -/
theorem drop_append_singleton {sent : List (Address × Nat)}
    {entry : Address × Nat} {freed : Nat} (bound : freed ≤ sent.length) :
    (sent ++ [entry]).drop freed = sent.drop freed ++ [entry] := by
  rw [List.drop_append_of_le_length bound]

/-- A producer sends the block in its hand. -/
theorem write (ownership : Ownership state) {index : Fin cntProducer}
    {idx : Nat} {block : Address}
    (point : (state.producer index).point = .write idx block)
    (freed : (state.consumer 0).freed ≤ state.sent.length) :
    Ownership
      { state.moveProducer index .head with
        ring := buffer.write state.ring (some block)
        written := state.written ++ [some block]
        sent := state.sent ++ [(block, idx)] } := by
  refine ⟨?_, ?_, ?_, ?_, ownership.not_faulted⟩
  · intro other
    have sums := sum_holds_update state index
      ⟨.head, (state.producer index).rest⟩ other
    have before := ownership.owners other
    rw [State.unfreed] at before
    have given : (state.producer index).holds other =
        if block = other then 1 else 0 := by
      simp [Producer.holds, point, ProducerPoint.block]
    have nothing : Producer.holds ⟨.head, (state.producer index).rest⟩
        other = 0 := by
      simp [Producer.holds, ProducerPoint.block]
    rw [nothing, given] at sums
    change Heap.live state.heap other =
      (∑ index', (Function.update state.producer index
        ⟨.head, (state.producer index).rest⟩ index').holds other) +
        (((state.sent ++ [(block, idx)]).drop
          (state.consumer 0).freed).map Prod.fst).count other
    rw [drop_append_singleton freed, List.map_append, List.count_append]
    simp only [List.map_cons, List.map_nil, List.count_singleton,
      beq_iff_eq]
    omega
  · intro other idx' block' atWrite
    refine ownership.written_update ?_ ?_ atWrite
    · intro idx' block' point
      cases point
    · exact fun _ _ _ _ _ => rfl
  · intro entry mem
    change entry ∈ (state.sent ++ [(block, idx)]).drop
      (state.consumer 0).freed at mem
    rw [drop_append_singleton freed, List.mem_append,
      List.mem_singleton] at mem
    rcases mem with earlier | rfl
    · exact ownership.initialised entry earlier
    · exact ownership.written index idx block point
  · have handles := ownership.handles
    change (state.consumer 0).Handles (state.sent ++ [(block, idx)])
    have kept : ∀ {k : Nat} {entry : Address × Nat},
        state.sent[k]? = some entry →
          (state.sent ++ [(block, idx)])[k]? = some entry := by
      intro k entry found
      rw [← found]
      exact List.getElem?_append_left (List.getElem?_eq_some_iff.mp found).1
    unfold Consumer.Handles at handles ⊢
    split at handles
    · exact kept handles
    · exact kept handles
    · obtain ⟨sentBlock, found⟩ := handles
      exact ⟨sentBlock, kept found⟩
    all_goals trivial

/-- The move of a producer. -/
theorem producerMove {total : Nat} (ownership : Ownership state)
    (traffic : Traffic total state) {index : Fin cntProducer}
    (move : ProducerMove buffer state index next) : Ownership next := by
  cases move with
  | malloc point unused => exact ownership.malloc point unused
  | initialise point live => exact ownership.initialise point live
  | @initialiseFault _ block point dead =>
      have holding : (state.producer index).point.block = some block := by
        rw [point, ProducerPoint.block]
      have live := ownership.isSome_of_holds holding
      rw [dead] at live
      cases live
  | write point => exact ownership.write point (traffic.freed_le 0)
  | ready point | finish point | clear point | setIdx point
  | stampBegin point | mallocNull point | stampEnd point
  | stampFailed point =>
      refine ownership.of_producer rfl rfl rfl rfl rfl ?_ ?_
      · simp [point, ProducerPoint.block]
      · simp
  | next point rests =>
      refine ownership.of_producer rfl rfl rfl rfl rfl ?_ ?_
      · simp [point, ProducerPoint.block]
      · simp

/-- The message in the consumer's hand is the first that is not freed. -/
theorem mem_unfreed {entry : Address × Nat}
    (freed : (state.consumer 0).freed = (state.consumer 0).cnt)
    (found : state.sent[(state.consumer 0).cnt]? = some entry) :
    state.unfreed =
      entry :: state.sent.drop ((state.consumer 0).cnt + 1) := by
  obtain ⟨inside, equal⟩ := List.getElem?_eq_some_iff.mp found
  rw [State.unfreed, freed, List.drop_eq_getElem_cons inside, equal]

/-- A move of the consumer that leaves the heap alone. -/
theorem of_consumer (ownership : Ownership state) {value : Consumer Address}
    (consumer : next.consumer = Function.update state.consumer 0 value)
    (producer : next.producer = state.producer)
    (sent : next.sent = state.sent) (heap : next.heap = state.heap)
    (faulted : next.faulted = state.faulted)
    (freed : value.freed = (state.consumer 0).freed)
    (handles : value.Handles state.sent) : Ownership next := by
  have sameUnfreed : next.unfreed = state.unfreed := by
    rw [State.unfreed, consumer, Function.update_self, freed, sent,
      State.unfreed]
  refine ⟨?_, ?_, ?_, ?_, faulted.trans ownership.not_faulted⟩
  · rw [producer, heap, sameUnfreed]
    exact ownership.owners
  · rw [producer, heap]
    exact ownership.written
  · rw [sameUnfreed, heap]
    exact ownership.initialised
  · rw [consumer, Function.update_self, sent]
    exact handles

/-- The consumer frees the block in its hand. -/
theorem free (ownership : Ownership state) {block : Address} {blockIdx : Nat}
    (point : (state.consumer 0).point = .free block blockIdx)
    (live : (state.heap.cell block).isSome) :
    Ownership
      { state.moveConsumer 0 (.stampFreed blockIdx) with
        heap := state.heap.free block live } := by
  have handles := ownership.handles
  rw [Consumer.Handles, point] at handles
  have freed : (state.consumer 0).freed = (state.consumer 0).cnt := by
    simp [Consumer.freed, point]
  have front := mem_unfreed freed handles
  have isFront : (block, blockIdx) ∈ state.unfreed := by
    rw [front]
    exact List.mem_cons_self
  have rest : State.unfreed
      { state.moveConsumer 0 (.stampFreed blockIdx) with
        heap := state.heap.free block live } =
      state.sent.drop ((state.consumer 0).cnt + 1) := by
    simp [State.unfreed, State.moveConsumer, Consumer.freed]
  refine ⟨?_, ?_, ?_, ⟨block, ?_⟩, ownership.not_faulted⟩
  · intro other
    have before := ownership.owners other
    rw [front, List.map_cons, List.count_cons] at before
    have released : (state.heap.free block live).live other +
        (if block = other then 1 else 0) = state.heap.live other :=
      Heap.live_free live
    rw [rest]
    change Heap.live (state.heap.free block live) other =
      (∑ index, (state.producer index).holds other) + _
    simp only [beq_iff_eq] at before
    omega
  · intro index idx other atWrite
    have different : other ≠ block := fun same =>
      ownership.ne_of_mem_unfreed (by
        rw [show (state.producer index).point = .write idx other from atWrite,
          ProducerPoint.block]) isFront same.symm
    exact (Heap.cell_free_of_ne live different).trans
      (ownership.written index idx other atWrite)
  · rw [rest]
    intro entry mem
    have different : entry.1 ≠ block := by
      rintro rfl
      have before := ownership.owners entry.1
      rw [front, List.map_cons, List.count_cons_self] at before
      have again : 0 < ((state.sent.drop
          ((state.consumer 0).cnt + 1)).map Prod.fst).count entry.1 :=
        List.count_pos_iff.mpr (List.mem_map_of_mem mem)
      have bound := state.heap.live_le_one entry.1
      omega
    refine (Heap.cell_free_of_ne live different).trans
      (ownership.initialised entry ?_)
    rw [front]
    exact List.mem_cons_of_mem _ mem
  · simpa [State.moveConsumer] using handles

/-- The move of the consumer. -/
theorem consumerMove {total : Nat} (ownership : Ownership state)
    (traffic : Traffic total state) (move : ConsumerMove buffer state 0 next) :
    Ownership next := by
  have reading := traffic.reading 0
  have handles := ownership.handles
  cases move with
  | register point =>
      refine ownership.of_consumer rfl rfl rfl rfl rfl ?_ trivial
      simp [Consumer.freed, point]
  | @read entry _ point =>
      refine ownership.of_consumer rfl rfl rfl rfl rfl ?_ ?_
      · cases entry <;> simp [Consumer.freed, point, ConsumerPoint.afterRead]
      · cases entry <;> trivial
  | @loadIdx block blockIdx point content =>
      rw [Consumer.Reading, point] at reading
      obtain ⟨_, idx, found⟩ := reading
      have front := mem_unfreed (by simp [Consumer.freed, point]) found
      have initialised := ownership.initialised (block, idx)
        (by rw [front]; exact List.mem_cons_self)
      rw [content] at initialised
      cases initialised
      refine ownership.of_consumer rfl rfl rfl rfl rfl ?_ found
      simp [Consumer.freed, point]
  | @loadFault block point noContent =>
      rw [Consumer.Reading, point] at reading
      obtain ⟨_, idx, found⟩ := reading
      have front := mem_unfreed (by simp [Consumer.freed, point]) found
      exact absurd (ownership.initialised (block, idx)
        (by rw [front]; exact List.mem_cons_self)) (noContent idx)
  | stampFree point =>
      rw [Consumer.Handles, point] at handles
      refine ownership.of_consumer rfl rfl rfl rfl rfl ?_ handles
      simp [Consumer.freed, point]
  | free point live => exact ownership.free point live
  | @freeFault block blockIdx point dead =>
      rw [Consumer.Handles, point] at handles
      have front := mem_unfreed (by simp [Consumer.freed, point]) handles
      have content := ownership.initialised (block, blockIdx)
        (by rw [front]; exact List.mem_cons_self)
      rw [dead] at content
      cases content
  | stampFreed point =>
      refine ownership.of_consumer rfl rfl rfl rfl rfl ?_ trivial
      simp [Consumer.freed, point]
  | store point =>
      refine ownership.of_consumer rfl rfl rfl rfl rfl ?_ trivial
      simp [Consumer.freed, point]

/-- The move of main. -/
theorem mainMove (ownership : Ownership state)
    (move : MainMove buffer state next) : Ownership next := by
  cases move <;> exact { ownership with }

end Ownership

end MallocFree

end LatencyBenchmark
