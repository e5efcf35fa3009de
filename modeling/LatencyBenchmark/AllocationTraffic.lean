import LatencyBenchmark.AllocationMoves

/-!
# Traffic of the C allocation benchmark

Bookkeeping that does not depend on what the blocks hold.  Every index of the
benchmark is still to be begun, in the hands of one producer, failed or sent;
every block allocated is in the hands of a producer or was sent; and while no
reader is overtaken, every consumer has read a beginning of what was sent.

The heap releases no more than it allocated, so a run that reaches its report
with two or more consumers has sent nothing: each of them would have freed
every block.
-/

namespace LatencyBenchmark

namespace MallocFree

variable {Address Ring : Type*} [DecidableEq Address]
variable {cntProducer cntConsumer : Nat}
variable {buffer : RingBuffer Ring (Option Address)}

/-- The index a producer has in hand. -/
def ProducerPoint.index : ProducerPoint Address → Option Nat
  | .clear idx | .setIdx idx | .stampBegin idx | .malloc idx
  | .stampEnd idx _ | .initialise idx _ | .write idx _ => some idx
  | .wait | .head | .done => none

/-- The block a producer has in hand. -/
def ProducerPoint.block : ProducerPoint Address → Option Address
  | .stampEnd _ (some block) | .initialise _ block | .write _ block =>
      some block
  | .wait | .head | .clear _ | .setIdx _ | .stampBegin _ | .malloc _
  | .stampEnd _ none | .done => none

/-- The block a consumer has in hand. -/
def ConsumerPoint.block : ConsumerPoint Address → Option Address
  | .loadIdx block | .stampFree block _ | .free block _ => some block
  | .register | .read | .stampFreed _ | .store | .done => none

/-- How often a producer has an index in hand or has it to begin. -/
def Producer.indexCount (producer : Producer Address) (idx : Nat) : Nat :=
  producer.rest.count idx + if producer.point.index = some idx then 1 else 0

/-- Whether a producer has a block in hand. -/
def Producer.blockCount (producer : Producer Address) : Nat :=
  if producer.point.block.isSome then 1 else 0

/-- How many blocks a consumer has freed. -/
def Consumer.freed (consumer : Consumer Address) : Nat :=
  consumer.cnt + match consumer.point with
    | .stampFreed _ => 1
    | _ => 0

/-- What main has written to the ring. -/
def MainPoint.nulls : MainPoint → List (Option Address)
  | .joinProducers | .writeNull => []
  | .joinConsumers | .report => [none]

/-- How far a consumer has got in what was sent: it has finished the first
`cnt` blocks, and the block in its hand is the next one. -/
def Consumer.Reading (consumer : Consumer Address)
    (sent : List (Address × Nat)) (main : MainPoint) : Prop :=
  match consumer.point with
  | .register => consumer.reads = 0 ∧ consumer.cnt = 0
  | .read => consumer.reads = consumer.cnt ∧ consumer.cnt ≤ sent.length
  | .loadIdx block | .stampFree block _ | .free block _ =>
      consumer.reads = consumer.cnt + 1 ∧
        ∃ idx, sent[consumer.cnt]? = some (block, idx)
  | .stampFreed _ =>
      consumer.reads = consumer.cnt + 1 ∧ consumer.cnt < sent.length
  | .store | .done =>
      consumer.cnt = sent.length ∧
        (main = .joinConsumers ∨ main = .report)

/-- Indices, blocks and entries add up. -/
structure Traffic (total : Nat)
    (state : State Address Ring cntProducer cntConsumer) : Prop where
  producers_done : state.main ≠ .joinProducers →
    ∀ index, (state.producer index).point = .done
  consumers_done : state.main = .report →
    ∀ index, (state.consumer index).point = .done
  finished : ∀ index, (state.producer index).point = .done →
    (state.producer index).rest = []
  written_eq : state.written =
    state.sent.map (fun entry => some entry.1) ++ state.main.nulls
  indices : ∀ idx, (∑ index, (state.producer index).indexCount idx) +
    state.failed.count idx + (state.sent.map Prod.snd).count idx =
      (List.range total).count idx
  allocated : state.heap.allocated.length =
    (∑ index, (state.producer index).blockCount) + state.sent.length
  released : state.heap.released.length =
    ∑ index, (state.consumer index).freed
  pos_eq : ∀ index, (state.consumer index).pos =
    toInt32 (state.consumer index).reads
  reading : ∀ index,
    (state.consumer index).Reading state.sent state.main

namespace Traffic

variable {total : Nat} {state next : State Address Ring cntProducer cntConsumer}
variable {Holds : Ring → List (Option Address) → Prop}

/-- What was sent are different indices below the total. -/
theorem sent_length_le (traffic : Traffic total state) :
    state.sent.length ≤ total := by
  have subperm : List.Subperm (state.sent.map Prod.snd) (List.range total) := by
    rw [List.subperm_ext_iff]
    intro idx _
    have count := traffic.indices idx
    omega
  simpa using subperm.length_le

/-- What was sent and at most one null are written to the ring. -/
theorem written_length_le (traffic : Traffic total state) :
    state.written.length ≤ state.sent.length + 1 := by
  rw [traffic.written_eq, List.length_append, List.length_map]
  cases state.main <;> simp [MainPoint.nulls]

theorem written_length_lt (traffic : Traffic total state)
    (few : total + 1 < 2 ^ 31) : state.written.length < 2 ^ 31 := by
  have written := traffic.written_length_le
  have sent := traffic.sent_length_le
  omega

/-- A consumer has freed no more than was sent. -/
theorem freed_le (traffic : Traffic total state) (index : Fin cntConsumer) :
    (state.consumer index).freed ≤ state.sent.length := by
  have reading := traffic.reading index
  cases point : (state.consumer index).point with
  | register | read | stampFreed | store | done =>
      simp only [Consumer.Reading, point] at reading
      simp only [Consumer.freed, point]
      omega
  | loadIdx | stampFree | free =>
      simp only [Consumer.Reading, point] at reading
      obtain ⟨_, idx, found⟩ := reading
      simp only [Consumer.freed, point]
      exact le_of_lt (List.getElem?_eq_some_iff.mp found).1

omit [DecidableEq Address] in
/-- A sent entry stays where it is, and a consumer with it. -/
theorem reading_of_append {consumer : Consumer Address}
    {sent extra : List (Address × Nat)} {main : MainPoint}
    (reading : consumer.Reading sent main)
    (running : main = .joinProducers) :
    consumer.Reading (sent ++ extra) main := by
  obtain ⟨point, consumerIdx, pos, cnt, reads⟩ := consumer
  cases point with
  | register => exact reading
  | read =>
      obtain ⟨readsEq, bound⟩ := reading
      exact ⟨readsEq, Nat.le_trans bound (by simp)⟩
  | loadIdx block | stampFree block _ | free block _ =>
      obtain ⟨readsEq, idx, found⟩ := reading
      refine ⟨readsEq, idx, ?_⟩
      rw [← found]
      exact List.getElem?_append_left (List.getElem?_eq_some_iff.mp found).1
  | stampFreed blockIdx =>
      obtain ⟨readsEq, bound⟩ := reading
      exact ⟨readsEq, Nat.lt_of_lt_of_le bound (by simp)⟩
  | store | done =>
      obtain ⟨_, ended⟩ := reading
      rw [running] at ended
      rcases ended with ended | ended <;> cases ended

omit [DecidableEq Address] in
/-- What main does next ends no consumer. -/
theorem reading_of_main {consumer : Consumer Address}
    {sent : List (Address × Nat)} {main later : MainPoint}
    (reading : consumer.Reading sent main)
    (ended : main = .joinConsumers ∨ main = .report →
      later = .joinConsumers ∨ later = .report) :
    consumer.Reading sent later := by
  obtain ⟨point, consumerIdx, pos, cnt, reads⟩ := consumer
  cases point with
  | register | read | loadIdx | stampFree | free | stampFreed => exact reading
  | store | done => exact ⟨reading.1, ended reading.2⟩

/-- A producer that moves exchanges what it has in hand for what it sends,
fails or allocates. -/
theorem of_producer (traffic : Traffic total state) {index : Fin cntProducer}
    {value : Producer Address} {extra : List (Address × Nat)}
    {failures : List Nat} {mallocs : Nat}
    (running : (state.producer index).point ≠ .done)
    (producer : next.producer = Function.update state.producer index value)
    (main : next.main = state.main) (consumer : next.consumer = state.consumer)
    (sent : next.sent = state.sent ++ extra)
    (written : next.written =
      state.written ++ extra.map fun entry => some entry.1)
    (failed : next.failed = failures ++ state.failed)
    (allocated : next.heap.allocated.length =
      mallocs + state.heap.allocated.length)
    (released : next.heap.released = state.heap.released)
    (indices : ∀ idx, value.indexCount idx + failures.count idx +
      (extra.map Prod.snd).count idx =
        (state.producer index).indexCount idx)
    (blocks : value.blockCount + extra.length =
      mallocs + (state.producer index).blockCount)
    (finished : value.point = .done → value.rest = []) :
    Traffic total next := by
  have atStart : state.main = .joinProducers := by
    by_contra later
    exact running (traffic.producers_done later index)
  refine ⟨?_, ?_, ?_, ?_, ?_, ?_, ?_, ?_, ?_⟩
  · rw [main]
    exact fun later => absurd atStart later
  · rw [main, atStart]
    exact fun reported => MainPoint.noConfusion reported
  · rw [producer]
    exact ThreadFamily.forall_update
      (fun _ (producer : Producer Address) =>
        producer.point = .done → producer.rest = [])
      traffic.finished finished
  · rw [written, sent, main, traffic.written_eq, atStart]
    simp [MainPoint.nulls]
  · intro idx
    have before := traffic.indices idx
    have exchanged := ThreadFamily.sum_update state.producer index value
      fun _ producer => producer.indexCount idx
    have balance := indices idx
    rw [producer, sent, failed, List.map_append, List.count_append,
      List.count_append]
    omega
  · have before := traffic.allocated
    have exchanged := ThreadFamily.sum_update state.producer index value
      fun _ producer => producer.blockCount
    rw [producer, sent, allocated, List.length_append]
    omega
  · rw [released, consumer]
    exact traffic.released
  · rw [consumer]
    exact traffic.pos_eq
  · intro other
    rw [consumer, sent, main]
    exact reading_of_append (traffic.reading other) atStart

/-- Most moves of a producer keep what it has in hand. -/
theorem of_producer_same (traffic : Traffic total state)
    {index : Fin cntProducer} {value : Producer Address}
    (running : (state.producer index).point ≠ .done)
    (producer : next.producer = Function.update state.producer index value)
    (main : next.main = state.main) (consumer : next.consumer = state.consumer)
    (sent : next.sent = state.sent) (written : next.written = state.written)
    (failed : next.failed = state.failed)
    (allocated : next.heap.allocated = state.heap.allocated)
    (released : next.heap.released = state.heap.released)
    (indices : ∀ idx, value.indexCount idx =
      (state.producer index).indexCount idx)
    (blocks : value.blockCount = (state.producer index).blockCount)
    (finished : value.point = .done → value.rest = []) :
    Traffic total next :=
  traffic.of_producer running producer main consumer
    (sent.trans (List.append_nil _).symm)
    (written.trans (List.append_nil _).symm)
    (failed.trans (List.nil_append _).symm)
    ((congrArg List.length allocated).trans (Nat.zero_add _).symm) released
    (fun idx => indices idx) (blocks.trans (Nat.zero_add _).symm) finished

theorem producerMove {index : Fin cntProducer}
    (traffic : Traffic total state)
    (move : ProducerMove buffer state index next) : Traffic total next := by
  cases move with
  | @malloc idx block point unused =>
      refine traffic.of_producer (by simp [point]) rfl rfl rfl
        (List.append_nil _).symm (List.append_nil _).symm
        (List.nil_append _).symm (Nat.add_comm _ 1) rfl ?_ ?_
        (fun done => by cases done)
      · simp [Producer.indexCount, ProducerPoint.index, point]
      · simp [Producer.blockCount, ProducerPoint.block, point]
  | @stampFailed idx point =>
      refine traffic.of_producer (by simp [point]) rfl rfl rfl
        (List.append_nil _).symm (List.append_nil _).symm
        (List.singleton_append (x := idx)).symm (Nat.zero_add _).symm rfl ?_ ?_
        (fun done => by cases done)
      · intro other
        by_cases same : idx = other <;>
          simp [Producer.indexCount, ProducerPoint.index, point, same]
      · simp [Producer.blockCount, ProducerPoint.block, point]
  | @write idx block point =>
      refine traffic.of_producer (by simp [point]) rfl rfl rfl rfl rfl
        (List.nil_append _).symm (Nat.zero_add _).symm rfl ?_ ?_
        (fun done => by cases done)
      · intro other
        by_cases same : idx = other <;>
          simp [Producer.indexCount, ProducerPoint.index, point, same]
      · simp [Producer.blockCount, ProducerPoint.block, point]
  | initialiseFault => exact { traffic with }
  | @next idx rest point rests =>
      refine traffic.of_producer_same (by simp [point]) rfl rfl rfl rfl rfl rfl
        rfl rfl ?_ ?_ (fun done => by cases done)
      · intro other
        by_cases same : idx = other <;>
          simp [Producer.indexCount, ProducerPoint.index, point, rests, same]
      · simp [Producer.blockCount, ProducerPoint.block, point]
  | finish point rest =>
      refine traffic.of_producer_same (by simp [point]) rfl rfl rfl rfl rfl rfl
        rfl rfl ?_ ?_ (fun _ => rest)
      · simp [Producer.indexCount, ProducerPoint.index, point]
      · simp [Producer.blockCount, ProducerPoint.block, point]
  | ready point | clear point | setIdx point | stampBegin point
  | mallocNull point | stampEnd point | initialise point =>
      refine traffic.of_producer_same (by simp [point]) rfl rfl rfl rfl rfl rfl
        rfl rfl ?_ ?_ (fun done => by cases done)
      · simp [Producer.indexCount, ProducerPoint.index, point]
      · simp [Producer.blockCount, ProducerPoint.block, point]

/-- A consumer that moves counts what it frees. -/
theorem of_consumer (traffic : Traffic total state) {index : Fin cntConsumer}
    {value : Consumer Address} {frees : Nat}
    (running : (state.consumer index).point ≠ .done)
    (consumer : next.consumer = Function.update state.consumer index value)
    (main : next.main = state.main) (producer : next.producer = state.producer)
    (sent : next.sent = state.sent) (written : next.written = state.written)
    (failed : next.failed = state.failed)
    (allocated : next.heap.allocated = state.heap.allocated)
    (released : next.heap.released.length =
      frees + state.heap.released.length)
    (freed : value.freed = frees + (state.consumer index).freed)
    (pos : value.pos = toInt32 value.reads)
    (reading : value.Reading state.sent state.main) :
    Traffic total next := by
  refine ⟨?_, ?_, ?_, ?_, ?_, ?_, ?_, ?_, ?_⟩
  · rw [main, producer]
    exact traffic.producers_done
  · rw [main]
    exact fun reported =>
      absurd (traffic.consumers_done reported index) running
  · rw [producer]
    exact traffic.finished
  · rw [written, sent, main]
    exact traffic.written_eq
  · rw [producer, failed, sent]
    exact traffic.indices
  · rw [allocated, producer, sent]
    exact traffic.allocated
  · have before := traffic.released
    have exchanged := ThreadFamily.sum_update state.consumer index value
      fun _ consumer => consumer.freed
    rw [released, consumer]
    omega
  · rw [consumer]
    exact ThreadFamily.forall_update
      (fun _ (consumer : Consumer Address) =>
        consumer.pos = toInt32 consumer.reads)
      traffic.pos_eq pos
  · rw [consumer, sent, main]
    exact ThreadFamily.forall_update
      (fun _ (consumer : Consumer Address) =>
        consumer.Reading state.sent state.main)
      traffic.reading reading

/-- A consumer that has not reached the null has fewer reads than an `int`
can count. -/
theorem pos_eq_reads (traffic : Traffic total state) (few : total + 1 < 2 ^ 31)
    {index : Fin cntConsumer} (point : (state.consumer index).point = .read) :
    (state.consumer index).pos = (state.consumer index).cnt ∧
      (state.consumer index).reads = (state.consumer index).cnt := by
  have reading := traffic.reading index
  rw [Consumer.Reading, point] at reading
  have bound := traffic.sent_length_le
  refine ⟨?_, reading.1⟩
  rw [traffic.pos_eq index, reading.1]
  apply toInt32_eq_self <;> omega

theorem cnt_le_written_length (traffic : Traffic total state)
    {index : Fin cntConsumer} (point : (state.consumer index).point = .read) :
    (state.consumer index).cnt ≤ state.written.length := by
  have reading := traffic.reading index
  rw [Consumer.Reading, point] at reading
  rw [traffic.written_eq, List.length_append, List.length_map]
  exact le_trans reading.2 (Nat.le_add_right _ _)

/-- The entry a consumer reads: a block that was sent next, or the null after
all of them. -/
theorem read_cases (traffic : Traffic total state) {cnt : Nat}
    {entry : Option Address} (found : state.written[cnt]? = some entry) :
    (∃ block idx, entry = some block ∧
        state.sent[cnt]? = some (block, idx)) ∨
      (entry = none ∧ cnt = state.sent.length ∧
        (state.main = .joinConsumers ∨ state.main = .report)) := by
  rw [traffic.written_eq, List.getElem?_append] at found
  split at found
  · next inside =>
      rw [List.getElem?_map, Option.map_eq_some_iff] at found
      obtain ⟨⟨block, idx⟩, sent, rfl⟩ := found
      exact Or.inl ⟨block, idx, rfl, sent⟩
  · next outside =>
      rw [List.length_map] at outside found
      right
      rcases main : state.main with _ | _ | _ | _ <;>
        rw [main] at found <;> simp only [MainPoint.nulls] at found
      case joinProducers | writeNull => simp at found
      case joinConsumers | report =>
        rw [List.getElem?_singleton] at found
        split at found
        · cases found
          exact ⟨rfl, by omega, by simp⟩
        · cases found

/-- A reader that is not overtaken is within the capacity. -/
theorem near_of_keepsUp {action : Action Address cntProducer cntConsumer}
    {index : Fin cntConsumer} (keepsUp : KeepsUp state action)
    (actor : action.actor = .consumer index)
    (point : (state.consumer index).point = .read) :
    (state.written.length : Int) ≤
      (state.consumer index).pos + ringCapacity := by
  by_contra overtaken
  apply keepsUp.2
  rw [Lapped, actor]
  exact ⟨point, by simpa using overtaken⟩

theorem consumerMove {index : Fin cntConsumer}
    (traffic : Traffic total state)
    (keeps : buffer.Keeps ringCapacity (2 ^ 31) Holds)
    (holds : Holds state.ring state.written) (few : total + 1 < 2 ^ 31)
    (move : ConsumerMove buffer state index next)
    (keepsUp : (state.consumer index).point = .read →
      (state.written.length : Int) ≤
        (state.consumer index).pos + ringCapacity) :
    Traffic total next := by
  have reading := traffic.reading index
  have pos := traffic.pos_eq index
  cases move with
  | register point =>
      rw [Consumer.Reading, point] at reading
      refine traffic.of_consumer (by simp [point]) rfl rfl rfl rfl rfl rfl rfl
        (Nat.zero_add _).symm ?_ pos ?_
      · simp [Consumer.freed, point]
      · obtain ⟨noReads, noBlocks⟩ := reading
        exact ⟨noReads.trans noBlocks.symm, noBlocks ▸ Nat.zero_le _⟩
  | @read entry ring point found =>
      obtain ⟨posEq, readsEq⟩ := traffic.pos_eq_reads few point
      have near := keepsUp point
      have reached := traffic.cnt_le_written_length point
      rw [posEq] at found near
      have entryAt := keeps.getElem?_of_read holds reached (by omega) found
      refine traffic.of_consumer (by simp [point]) rfl rfl rfl rfl rfl rfl rfl
        (Nat.zero_add _).symm ?_ ?_ ?_
      · cases entry <;> simp [Consumer.freed, point, ConsumerPoint.afterRead]
      · rw [pos]
        simp
      · rcases traffic.read_cases entryAt with
          ⟨block, idx, rfl, sent⟩ | ⟨rfl, last, ended⟩
        · exact ⟨by simp [readsEq], idx, sent⟩
        · exact ⟨last, ended⟩
  | loadIdx point | stampFree point =>
      rw [Consumer.Reading, point] at reading
      refine traffic.of_consumer (by simp [point]) rfl rfl rfl rfl rfl rfl rfl
        (Nat.zero_add _).symm ?_ pos reading
      simp [Consumer.freed, point]
  | loadFault | freeFault => exact { traffic with }
  | free point live =>
      rw [Consumer.Reading, point] at reading
      obtain ⟨readsEq, idx, sent⟩ := reading
      refine traffic.of_consumer (by simp [point]) rfl rfl rfl rfl rfl rfl rfl
        (Nat.add_comm _ 1) ?_ pos
        ⟨readsEq, (List.getElem?_eq_some_iff.mp sent).1⟩
      simp [Consumer.freed, point, Nat.add_comm]
  | stampFreed point =>
      rw [Consumer.Reading, point] at reading
      refine traffic.of_consumer (by simp [point]) rfl rfl rfl rfl rfl rfl rfl
        (Nat.zero_add _).symm ?_ pos ⟨reading.1, reading.2⟩
      simp [Consumer.freed, point]
  | store point =>
      rw [Consumer.Reading, point] at reading
      refine traffic.of_consumer (by simp [point]) rfl rfl rfl rfl rfl rfl rfl
        (Nat.zero_add _).symm ?_ pos reading
      simp [Consumer.freed, point]

theorem mainMove (traffic : Traffic total state)
    (move : MainMove buffer state next) : Traffic total next := by
  cases move with
  | joinProducers point every =>
      refine { traffic with
        producers_done := fun _ => every
        consumers_done := fun reported => MainPoint.noConfusion reported
        written_eq := ?_
        reading := fun index => reading_of_main (traffic.reading index) ?_ }
      · simpa [point, MainPoint.nulls] using traffic.written_eq
      · simp [point]
  | writeNull point =>
      refine { traffic with
        producers_done := fun _ => traffic.producers_done (by simp [point])
        consumers_done := fun reported => MainPoint.noConfusion reported
        written_eq := ?_
        reading := fun index => reading_of_main (traffic.reading index) ?_ }
      · simp [traffic.written_eq, point, MainPoint.nulls]
      · simp
  | joinConsumers point every =>
      refine { traffic with
        producers_done := fun _ => traffic.producers_done (by simp [point])
        consumers_done := fun _ => every
        written_eq := ?_
        reading := fun index => reading_of_main (traffic.reading index) ?_ }
      · simpa [point, MainPoint.nulls] using traffic.written_eq
      · simp

/-! The ring holds what was written to it. -/

theorem holds_of_producerMove {index : Fin cntProducer}
    (move : ProducerMove buffer state index next)
    (keeps : buffer.Keeps ringCapacity (2 ^ 31) Holds)
    (holds : Holds state.ring state.written)
    (few : next.written.length < 2 ^ 31) : Holds next.ring next.written := by
  cases move with
  | write => exact keeps.holds_write holds (by simpa using few) _
  | ready | finish | next | clear | setIdx | stampBegin | mallocNull | malloc
  | stampEnd | stampFailed | initialise | initialiseFault => exact holds

theorem holds_of_consumerMove {index : Fin cntConsumer}
    (move : ConsumerMove buffer state index next)
    (keeps : buffer.Keeps ringCapacity (2 ^ 31) Holds)
    (holds : Holds state.ring state.written) :
    Holds next.ring next.written := by
  cases move with
  | read point found => exact keeps.holds_read holds found
  | register | loadIdx | loadFault | stampFree | free | freeFault
  | stampFreed | store => exact holds

theorem holds_of_mainMove
    (move : MainMove buffer state next)
    (keeps : buffer.Keeps ringCapacity (2 ^ 31) Holds)
    (holds : Holds state.ring state.written)
    (few : next.written.length < 2 ^ 31) : Holds next.ring next.written := by
  cases move with
  | writeNull => exact keeps.holds_write holds (by simpa using few) _
  | joinProducers | joinConsumers => exact holds

end Traffic

/-! ## The work of the producers -/

section Work

variable {fieldType : FieldType} {config : BenchmarkConfig fieldType}
variable {Holds : Ring → List (Option Address) → Prop}

/-- What `Benchmark_wr` is called with: some producers, an `int` number of
them, and as many blocks as the type of the configuration can count. -/
structure Admissible (config : BenchmarkConfig fieldType)
    (cntProducer : Nat) : Prop where
  someProducer : 1 ≤ cntProducer
  isInt : cntProducer < 2 ^ 31
  fits : ((config.loop * config.cntPerLoop : Nat) : Int) ≤ fieldType.max

/-- The number of blocks. -/
def total (config : BenchmarkConfig fieldType) : Nat :=
  config.loop * config.cntPerLoop

theorem Admissible.isPartition (admissible : Admissible config cntProducer) :
    (workSplit config cntProducer).IsPartition config.loop config.cntPerLoop
      cntProducer :=
  (workSplit_followsRange admissible.isInt admissible.fits).isPartition
    admissible.someProducer

theorem mem_work {producer idx : Nat} :
    idx ∈ work config cntProducer producer ↔
      ∃ i j, (i, j) ∈ (workSplit config cntProducer).iterations producer ∧
        (workSplit config cntProducer).blockIndex i j = idx := by
  simp [work, workSplit]

theorem mem_visited {producer i j : Nat} (inside : producer < cntProducer)
    (iteration :
      (i, j) ∈ (workSplit config cntProducer).iterations producer) :
    (⟨producer, i, j⟩ : IndexRange.Place) ∈
      (workSplit config cntProducer).visited cntProducer :=
  ⟨inside, iteration⟩

/-- The indices of a producer are below the total. -/
theorem Admissible.lt_total_of_mem_work
    (admissible : Admissible config cntProducer) {producer idx : Nat}
    (inside : producer < cntProducer)
    (mem : idx ∈ work config cntProducer producer) : idx < total config := by
  obtain ⟨i, j, iteration, rfl⟩ := mem_work.mp mem
  have bounds := admissible.isPartition.bijective.mapsTo
    (mem_visited inside iteration)
  rw [admissible.isPartition.cnt_eq] at bounds
  exact bounds.2

/-- Every index below the total is some producer's. -/
theorem Admissible.exists_mem_work
    (admissible : Admissible config cntProducer) {idx : Nat}
    (below : idx < total config) :
    ∃ producer < cntProducer, idx ∈ work config cntProducer producer := by
  have inRange : idx ∈ Set.Ico 0 (workSplit config cntProducer).cnt := by
    rw [admissible.isPartition.cnt_eq]
    exact ⟨Nat.zero_le _, below⟩
  obtain ⟨place, ⟨inside, iteration⟩, written⟩ :=
    admissible.isPartition.bijective.surjOn inRange
  exact ⟨place.worker, inside,
    mem_work.mpr ⟨place.round, place.index, iteration, written⟩⟩

/-- No index is two producers'. -/
theorem Admissible.producer_unique
    (admissible : Admissible config cntProducer) {first second idx : Nat}
    (insideFirst : first < cntProducer) (insideSecond : second < cntProducer)
    (memFirst : idx ∈ work config cntProducer first)
    (memSecond : idx ∈ work config cntProducer second) : first = second := by
  obtain ⟨i, j, iteration, written⟩ := mem_work.mp memFirst
  obtain ⟨otherI, otherJ, otherIteration, otherWritten⟩ :=
    mem_work.mp memSecond
  have same := admissible.isPartition.bijective.injOn
    (mem_visited insideFirst iteration)
    (mem_visited insideSecond otherIteration)
    (written.trans otherWritten.symm)
  exact congrArg IndexRange.Place.worker same

/-- A producer visits an index once. -/
theorem Admissible.work_nodup (admissible : Admissible config cntProducer)
    {producer : Nat} (inside : producer < cntProducer) :
    (work config cntProducer producer).Nodup := by
  refine List.Nodup.map_on ?_
    (admissible.isPartition.iterations_nodup producer inside)
  rintro ⟨i, j⟩ iteration ⟨otherI, otherJ⟩ otherIteration written
  have same := admissible.isPartition.bijective.injOn
    (mem_visited inside iteration) (mem_visited inside otherIteration)
    written
  rw [IndexRange.Place.mk.injEq] at same
  rw [same.2.1, same.2.2]

/-- Together the producers have every index below the total once. -/
theorem Admissible.sum_count_work
    (admissible : Admissible config cntProducer) (idx : Nat) :
    ∑ producer : Fin cntProducer,
        (work config cntProducer producer).count idx =
      (List.range (total config)).count idx := by
  by_cases below : idx < total config
  · obtain ⟨owner, inside, mem⟩ := admissible.exists_mem_work below
    rw [List.count_eq_one_of_mem List.nodup_range (List.mem_range.mpr below),
      Finset.sum_eq_single (⟨owner, inside⟩ : Fin cntProducer)]
    · exact List.count_eq_one_of_mem (admissible.work_nodup inside) mem
    · intro other _ different
      rw [List.count_eq_zero]
      intro otherMem
      exact different (Fin.ext
        (admissible.producer_unique other.isLt inside otherMem mem))
    · exact fun missing => absurd (Finset.mem_univ _) missing
  · rw [List.count_eq_zero.mpr (by simpa using below)]
    refine Finset.sum_eq_zero fun producer _ => List.count_eq_zero.mpr ?_
    exact fun mem =>
      below (admissible.lt_total_of_mem_work producer.isLt mem)

theorem Admissible.traffic_start (admissible : Admissible config cntProducer)
    (cntConsumer : Nat) (blocks : Nat → LatencyBlock) (clock : Int) :
    Traffic (total config) (start buffer config cntProducer cntConsumer blocks
      clock : State Address Ring cntProducer cntConsumer) where
  producers_done := fun later => absurd rfl later
  consumers_done := fun reported => MainPoint.noConfusion reported
  finished := by
    intro index point
    cases point
  written_eq := rfl
  indices := by
    intro idx
    simpa [start, Producer.indexCount, ProducerPoint.index] using
      admissible.sum_count_work idx
  allocated := by simp [start, Producer.blockCount, ProducerPoint.block,
    Heap.empty]
  released := by simp [start, Consumer.freed, Heap.empty]
  pos_eq := by simp [start, toInt32]
  reading := fun _ => ⟨rfl, rfl⟩

/-- The bookkeeping holds as long as no reader is overtaken, and the ring
holds what was written to it. -/
theorem Admissible.carries_of_reachableUnder
    (admissible : Admissible config cntProducer)
    (keeps : buffer.Keeps ringCapacity (2 ^ 31) Holds)
    (few : total config + 1 < 2 ^ 31)
    {state : State Address Ring cntProducer cntConsumer}
    (reachable : (system buffer config cntProducer
      cntConsumer).ReachableUnder KeepsUp state) :
    Traffic (total config) state ∧ Holds state.ring state.written := by
  apply reachable.invariant
  · rintro _ ⟨blocks, clock, rfl⟩
    exact ⟨admissible.traffic_start cntConsumer blocks clock,
      keeps.holds_init⟩
  · rintro before action after _ keepsUp taken ⟨traffic, holds⟩
    have now : Traffic (total config)
        { before with clock := action.time } := { traffic with }
    obtain ⟨_, move | ⟨index, move⟩ | ⟨index, actor, move⟩⟩ :=
      step_cases taken
    · have later := now.mainMove move
      exact ⟨later, Traffic.holds_of_mainMove move keeps holds
        (later.written_length_lt few)⟩
    · have later := now.producerMove move
      exact ⟨later, Traffic.holds_of_producerMove move keeps holds
        (later.written_length_lt few)⟩
    · have near := Traffic.near_of_keepsUp keepsUp actor
      exact ⟨now.consumerMove keeps holds few move fun point => near point,
        Traffic.holds_of_consumerMove move keeps holds⟩

theorem Admissible.traffic_of_reachableUnder
    (admissible : Admissible config cntProducer)
    (keeps : buffer.Keeps ringCapacity (2 ^ 31) Holds)
    (few : total config + 1 < 2 ^ 31)
    {state : State Address Ring cntProducer cntConsumer}
    (reachable : (system buffer config cntProducer
      cntConsumer).ReachableUnder KeepsUp state) :
    Traffic (total config) state :=
  (admissible.carries_of_reachableUnder keeps few reachable).1

/-- What a run has done when it reaches its report. -/
theorem Traffic.of_report {total : Nat}
    {state : State Address Ring cntProducer cntConsumer}
    (traffic : Traffic total state) (report : state.main = .report) :
    state.heap.allocated.length = state.sent.length ∧
      state.heap.released.length = cntConsumer * state.sent.length ∧
        (∀ index, (state.consumer index).cnt = state.sent.length) := by
  have producers := traffic.producers_done (by simp [report])
  have consumers := traffic.consumers_done report
  have counts : ∀ index, (state.consumer index).cnt = state.sent.length := by
    intro index
    have reading := traffic.reading index
    rw [Consumer.Reading, consumers index] at reading
    exact reading.1
  refine ⟨?_, ?_, counts⟩
  · rw [traffic.allocated, Finset.sum_eq_zero fun index _ => by
      simp [Producer.blockCount, producers index, ProducerPoint.block],
      Nat.zero_add]
  · have freed : ∀ index, (state.consumer index).freed =
        state.sent.length := by
      intro index
      simp [Consumer.freed, consumers index, counts index]
    simp [traffic.released, freed]

end Work

end MallocFree

end LatencyBenchmark
