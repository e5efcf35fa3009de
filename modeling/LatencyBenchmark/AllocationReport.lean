import LatencyBenchmark.AllocationStamps

/-!
# The report of the C allocation benchmark

`main` calls `Benchmark_wr` with one consumer.  As long as that consumer is
not overtaken, the benchmark is memory safe whatever allocations fail and
however the threads interleave, and its report covers every block.
-/

namespace LatencyBenchmark

namespace MallocFree

variable {Address Ring : Type*} [DecidableEq Address]
variable {cntProducer cntConsumer : Nat}
variable {buffer : RingBuffer Ring (Option Address)}
variable {Holds : Ring → List (Option Address) → Prop}

/-- The single consumer counts itself ready and stores its count at its own
index. -/
def Consumer.Registered (consumer : Consumer Address) (consumerReady : Nat)
    (consumerReadNum : Nat → Nat) : Prop :=
  match consumer.point with
  | .register => consumerReady = 0
  | .done => consumerReady = 1 ∧ consumerReadNum 0 = consumer.cnt
  | .read | .loadIdx _ | .stampFree _ _ | .free _ _ | .stampFreed _
  | .store => consumerReady = 1 ∧ consumer.consumerIdx = 0

/-- What holds with one consumer that is not overtaken. -/
structure Safe (Holds : Ring → List (Option Address) → Prop) (total : Nat)
    (state : State Address Ring cntProducer 1) : Prop where
  traffic : Traffic total state
  holds : Holds state.ring state.written
  ownership : Ownership state
  records : Records state
  registered : (state.consumer 0).Registered state.consumerReady
    state.consumerReadNum

namespace Safe

variable {total : Nat} {state next : State Address Ring cntProducer 1}

theorem registered_of_consumerMove (move : ConsumerMove buffer state 0 next)
    (registered : (state.consumer 0).Registered state.consumerReady
      state.consumerReadNum) (running : next.faulted = false) :
    (next.consumer 0).Registered next.consumerReady
      next.consumerReadNum := by
  cases move with
  | register point =>
      rw [Consumer.Registered, point] at registered
      dsimp only
      rw [Function.update_self]
      exact ⟨by rw [registered], registered⟩
  | @read entry _ point =>
      rw [Consumer.Registered, point] at registered
      dsimp only
      rw [Function.update_self]
      cases entry <;> exact registered
  | loadIdx point | stampFree point | free point | stampFreed point =>
      rw [Consumer.Registered, point] at registered
      simpa [State.moveConsumer, Consumer.Registered, State.stamp] using
        registered
  | loadFault | freeFault => cases running
  | store point =>
      rw [Consumer.Registered, point] at registered
      simp [State.moveConsumer, Consumer.Registered, registered]

theorem registered_of_producerMove {index : Fin cntProducer}
    (move : ProducerMove buffer state index next) :
    next.consumer = state.consumer ∧
      next.consumerReady = state.consumerReady ∧
        next.consumerReadNum = state.consumerReadNum := by
  cases move <;> exact ⟨rfl, rfl, rfl⟩

theorem registered_of_mainMove (move : MainMove buffer state next) :
    next.consumer = state.consumer ∧
      next.consumerReady = state.consumerReady ∧
        next.consumerReadNum = state.consumerReadNum := by
  cases move <;> exact ⟨rfl, rfl, rfl⟩

theorem step {action : Action Address cntProducer 1}
    (keeps : buffer.Keeps ringCapacity (2 ^ 31) Holds)
    (safe : Safe Holds total state) (few : total + 1 < 2 ^ 31)
    (keepsUp : KeepsUp state action)
    (taken : MallocFree.step buffer state action = some next) :
    Safe Holds total next := by
  have traffic : Traffic total { state with clock := action.time } :=
    { safe.traffic with }
  have ownership : Ownership { state with clock := action.time } :=
    { safe.ownership with }
  have records := safe.records.at_time keepsUp.1
  obtain ⟨_, move | ⟨index, move⟩ | ⟨index, actor, move⟩⟩ := step_cases taken
  · obtain ⟨consumer, ready, readNum⟩ := registered_of_mainMove move
    have later := traffic.mainMove move
    refine ⟨later, Traffic.holds_of_mainMove move keeps safe.holds
      (later.written_length_lt few), ownership.mainMove move,
      records.mainMove move, ?_⟩
    rw [consumer, ready, readNum]
    exact safe.registered
  · obtain ⟨consumer, ready, readNum⟩ := registered_of_producerMove move
    have later := traffic.producerMove move
    refine ⟨later, Traffic.holds_of_producerMove move keeps safe.holds
      (later.written_length_lt few), ownership.producerMove traffic move,
      records.producerMove traffic move, ?_⟩
    rw [consumer, ready, readNum]
    exact safe.registered
  · obtain rfl : index = 0 := Subsingleton.elim index 0
    have owned := ownership.consumerMove traffic move
    have near := Traffic.near_of_keepsUp keepsUp actor
    exact ⟨traffic.consumerMove keeps safe.holds few move
        (fun point => near point),
      Traffic.holds_of_consumerMove move keeps safe.holds, owned,
      records.consumerMove traffic ownership move,
      registered_of_consumerMove move safe.registered owned.not_faulted⟩

theorem atStart {fieldType : FieldType} {config : BenchmarkConfig fieldType}
    (admissible : Admissible config cntProducer)
    (keeps : buffer.Keeps ringCapacity (2 ^ 31) Holds)
    (blocks : Nat → LatencyBlock) (clock : Int) :
    Safe Holds (MallocFree.total config)
      (start buffer config cntProducer 1 blocks clock :
        State Address Ring cntProducer 1) where
  traffic := admissible.traffic_start 1 blocks clock
  holds := keeps.holds_init
  ownership := by
    refine ⟨?_, ?_, ?_, trivial, rfl⟩
    · simp [start, Heap.live, Heap.empty, Producer.holds, ProducerPoint.block,
        State.unfreed]
    · intro index idx block point
      cases point
    · simp [start, State.unfreed]
  records := by
    refine ⟨?_, ?_, ?_⟩
    · intro index idx stage found
      cases found
    · simp [start]
    · simp [start]
  registered := rfl

end Safe

/-- **Safety invariant.** -/
theorem Admissible.safe_of_reachableUnder {fieldType : FieldType}
    {config : BenchmarkConfig fieldType}
    (admissible : Admissible config cntProducer)
    (keeps : buffer.Keeps ringCapacity (2 ^ 31) Holds)
    (few : total config + 1 < 2 ^ 31) {state : State Address Ring cntProducer 1}
    (reachable : (system buffer config cntProducer 1).ReachableUnder KeepsUp
      state) : Safe Holds (total config) state := by
  apply reachable.invariant
  · rintro _ ⟨blocks, clock, rfl⟩
    exact .atStart admissible keeps blocks clock
  · intro before action after _ keepsUp taken safe
    exact safe.step keeps few keepsUp taken

/-! ## Progress -/

namespace Safe

variable {total : Nat} {state : State Address Ring cntProducer 1}

/-- A producer that has not finished can step, unless it waits for a consumer
that can. -/
theorem canStep_of_producer (safe : Safe Holds total state)
    {index : Fin cntProducer}
    (running : (state.producer index).point ≠ .done) :
    ∃ actor, (MallocFree.step buffer state ⟨actor, state.clock⟩).isSome := by
  have noFault := safe.ownership.not_faulted
  cases point : (state.producer index).point with
  | wait =>
      by_cases ready : state.consumerReady = 1
      · exact ⟨.producer index, by
          simp [MallocFree.step, noFault, producerStep, point, ready]⟩
      · have registered := safe.registered
        refine ⟨.consumer 0, ?_⟩
        cases consumer : (state.consumer 0).point with
        | register =>
            simp [MallocFree.step, noFault, consumerStep, consumer]
        | read | loadIdx | stampFree | free | stampFreed | store | done =>
            rw [Consumer.Registered, consumer] at registered
            exact absurd registered.1 ready
  | head =>
      refine ⟨.producer index, ?_⟩
      cases rest : (state.producer index).rest <;>
        simp [MallocFree.step, noFault, producerStep, point, rest]
  | clear | setIdx | stampBegin | write =>
      exact ⟨.producer index, by
        simp [MallocFree.step, noFault, producerStep, point]⟩
  | malloc idx =>
      exact ⟨.malloc index none, by
        simp [MallocFree.step, noFault, mallocStep, point]⟩
  | stampEnd idx block =>
      refine ⟨.producer index, ?_⟩
      cases block <;> simp [MallocFree.step, noFault, producerStep, point]
  | initialise idx block =>
      have holding : (state.producer index).point.block = some block := by
        rw [point, ProducerPoint.block]
      have live := safe.ownership.isSome_of_holds holding
      exact ⟨.producer index, by
        simp [MallocFree.step, noFault, producerStep, point, live]⟩
  | done => exact absurd point running

/-- Once main has written the null the consumer can step until it has
finished. -/
theorem canStep_of_consumer (safe : Safe Holds total state)
    (keeps : buffer.Keeps ringCapacity (2 ^ 31) Holds)
    (few : total + 1 < 2 ^ 31) (ended : state.main = .joinConsumers)
    (running : (state.consumer 0).point ≠ .done) :
    ∃ actor, (MallocFree.step buffer state ⟨actor, state.clock⟩).isSome := by
  have noFault := safe.ownership.not_faulted
  refine ⟨.consumer 0, ?_⟩
  cases point : (state.consumer 0).point with
  | read =>
      obtain ⟨pos, _⟩ := safe.traffic.pos_eq_reads few point
      have bound := safe.traffic.freed_le 0
      have written := congrArg List.length safe.traffic.written_eq
      rw [ended, List.length_append, List.length_map] at written
      simp only [MainPoint.nulls, List.length_singleton] at written
      rw [Consumer.freed, point] at bound
      have below : (state.consumer 0).cnt < state.written.length := by
        dsimp only at bound
        omega
      have found := keeps.answers safe.holds below
      simp [MallocFree.step, noFault, consumerStep, point, pos, found]
  | loadIdx block =>
      cases content : state.heap.cell block with
      | none => simp [MallocFree.step, noFault, consumerStep, point, content]
      | some value =>
          cases value <;>
            simp [MallocFree.step, noFault, consumerStep, point, content]
  | free block blockIdx =>
      by_cases live : (state.heap.cell block).isSome <;>
        simp [MallocFree.step, noFault, consumerStep, point, live]
  | register | stampFree | stampFreed | store =>
      simp [MallocFree.step, noFault, consumerStep, point]
  | done => exact absurd point running

/-- Before the report some thread can step at once. -/
theorem canStep (safe : Safe Holds total state)
    (keeps : buffer.Keeps ringCapacity (2 ^ 31) Holds)
    (few : total + 1 < 2 ^ 31) (unfinished : state.main ≠ .report) :
    ∃ actor, (MallocFree.step buffer state ⟨actor, state.clock⟩).isSome := by
  have noFault := safe.ownership.not_faulted
  cases point : state.main with
  | joinProducers =>
      by_cases every : ∀ index, (state.producer index).point = .done
      · exact ⟨.main, by
          simp [MallocFree.step, noFault, mainStep, point, every]⟩
      · obtain ⟨index, running⟩ := not_forall.mp every
        exact safe.canStep_of_producer running
  | writeNull =>
      exact ⟨.main, by simp [MallocFree.step, noFault, mainStep, point]⟩
  | joinConsumers =>
      by_cases finished : (state.consumer 0).point = .done
      · have every : ∀ index, (state.consumer index).point = .done := by
          intro index
          rwa [Subsingleton.elim index 0]
        exact ⟨.main, by
          simp [MallocFree.step, noFault, mainStep, point, every]⟩
      · exact safe.canStep_of_consumer keeps few point finished
  | report => exact absurd point unfinished

end Safe

/-! ## Work left -/

/-- Steps a producer has left, and those of the consumer on what it sends. -/
def Producer.work (producer : Producer Address) : Nat :=
  13 * producer.rest.length + match producer.point with
    | .wait => 2
    | .head => 1
    | .clear _ => 13
    | .setIdx _ => 12
    | .stampBegin _ => 11
    | .malloc _ => 10
    | .stampEnd _ _ => 9
    | .initialise _ _ => 8
    | .write _ _ => 7
    | .done => 0

/-- Steps the consumer has left besides five for every message. -/
def ConsumerPoint.work : ConsumerPoint Address → Nat
  | .register => 11
  | .read => 10
  | .loadIdx _ => 9
  | .stampFree _ _ => 8
  | .free _ _ => 7
  | .stampFreed _ => 6
  | .store => 1
  | .done => 0

def MainPoint.work : MainPoint → Nat
  | .joinProducers => 3
  | .writeNull => 2
  | .joinConsumers => 1
  | .report => 0

/-- Steps all threads have left. -/
def State.work (state : State Address Ring cntProducer 1) : Nat :=
  (∑ index, (state.producer index).work) +
    (∑ index, (5 * (state.sent.length - (state.consumer index).cnt) +
      (state.consumer index).point.work)) +
    state.main.work + if state.faulted then 0 else 1

namespace State

variable {total : Nat} {state next : State Address Ring cntProducer 1}

theorem work_eq (state : State Address Ring cntProducer 1) :
    state.work = (∑ index, (state.producer index).work) +
      (5 * (state.sent.length - (state.consumer 0).cnt) +
        (state.consumer 0).point.work) +
      state.main.work + if state.faulted then 0 else 1 := by
  simp [State.work]

/-- A producer that moves has less left, even with what it leaves to the
consumer. -/
theorem work_lt_of_producer {index : Fin cntProducer}
    {value : Producer Address} (extra : Nat)
    (producer : next.producer = Function.update state.producer index value)
    (consumer : next.consumer = state.consumer)
    (main : next.main = state.main) (faulted : next.faulted = state.faulted)
    (sent : next.sent.length = state.sent.length + extra)
    (less : value.work + 5 * extra < (state.producer index).work) :
    next.work < state.work := by
  have exchanged := ThreadFamily.sum_update state.producer index value
    fun _ producer => producer.work
  rw [work_eq, work_eq, producer, consumer, main, faulted, sent]
  omega

theorem work_lt_of_producerMove {index : Fin cntProducer}
    (move : ProducerMove buffer state index next)
    (noFault : state.faulted = false) :
    next.work < state.work := by
  cases move with
  | initialiseFault => simp [State.work, State.fault, noFault]
  | write point =>
      refine work_lt_of_producer 1 rfl rfl rfl rfl ?_ ?_
      · simp
      · simp [Producer.work, point]
  | next point rests =>
      refine work_lt_of_producer 0 rfl rfl rfl rfl rfl ?_
      simp only [Producer.work, point, rests, List.length_cons]
      omega
  | ready point | finish point | clear point | setIdx point
  | stampBegin point | mallocNull point | malloc point | stampEnd point
  | stampFailed point | initialise point =>
      refine work_lt_of_producer 0 rfl rfl rfl rfl rfl ?_
      simp [Producer.work, point]

theorem work_lt_of_consumer {value : Consumer Address}
    (consumer : next.consumer = Function.update state.consumer 0 value)
    (producer : next.producer = state.producer)
    (main : next.main = state.main) (faulted : next.faulted = state.faulted)
    (sent : next.sent = state.sent)
    (less : 5 * (state.sent.length - value.cnt) + value.point.work <
      5 * (state.sent.length - (state.consumer 0).cnt) +
        (state.consumer 0).point.work) :
    next.work < state.work := by
  rw [work_eq, work_eq, producer, consumer, main, faulted, sent,
    Function.update_self]
  omega

theorem work_lt_of_consumerMove (move : ConsumerMove buffer state 0 next)
    (traffic : Traffic total state) (noFault : state.faulted = false) :
    next.work < state.work := by
  cases move with
  | loadFault | freeFault => simp [State.work, State.fault, noFault]
  | @read entry _ point =>
      refine work_lt_of_consumer rfl rfl rfl rfl rfl ?_
      cases entry <;>
        simp [ConsumerPoint.work, ConsumerPoint.afterRead, point]
  | stampFreed point =>
      have reading := traffic.reading 0
      rw [Consumer.Reading, point] at reading
      refine work_lt_of_consumer rfl rfl rfl rfl rfl ?_
      simp only [ConsumerPoint.work, point]
      omega
  | register point | loadIdx point | stampFree point | free point
  | store point =>
      refine work_lt_of_consumer rfl rfl rfl rfl rfl ?_
      simp [ConsumerPoint.work, point]

theorem work_lt_of_mainMove (move : MainMove buffer state next) :
    next.work < state.work := by
  cases move with
  | joinProducers point | writeNull point | joinConsumers point =>
      simp [State.work, point, MainPoint.work]

theorem work_lt_of_step {action : Action Address cntProducer 1}
    (traffic : Traffic total state)
    (taken : step buffer state action = some next) :
    next.work < state.work := by
  have now : Traffic total { state with clock := action.time } :=
    { traffic with }
  obtain ⟨noFault, move | ⟨index, move⟩ | ⟨index, _, move⟩⟩ :=
    step_cases taken
  · have less := work_lt_of_mainMove move
    exact less
  · have less := work_lt_of_producerMove move noFault
    exact less
  · obtain rfl : index = 0 := Subsingleton.elim index 0
    have less := work_lt_of_consumerMove move now noFault
    exact less

end State

/-- The producers' indices are all indices below the total. -/
theorem Admissible.sum_length_work {fieldType : FieldType}
    {config : BenchmarkConfig fieldType}
    (admissible : Admissible config cntProducer) :
    ∑ producer : Fin cntProducer, (work config cntProducer producer).length =
      total config := by
  have lengths : ∀ producer : Fin cntProducer,
      (work config cntProducer producer).length =
        ∑ idx ∈ Finset.range (total config),
          (work config cntProducer producer).count idx := by
    intro producer
    have visited : ∀ idx ∈ (work config cntProducer producer : Multiset Nat),
        idx ∈ Finset.range (total config) := fun idx mem =>
      Finset.mem_range.mpr
        (admissible.lt_total_of_mem_work producer.isLt mem)
    simpa using (Multiset.sum_count_eq_card visited).symm
  have once : ∀ idx ∈ Finset.range (total config),
      ∑ producer : Fin cntProducer,
        (work config cntProducer producer).count idx = 1 := by
    intro idx mem
    rw [admissible.sum_count_work idx]
    exact List.count_eq_one_of_mem List.nodup_range
      (List.mem_range.mpr (Finset.mem_range.mp mem))
  rw [Finset.sum_congr rfl fun producer _ => lengths producer,
    Finset.sum_comm, Finset.sum_congr rfl once]
  simp

/-- Thirteen steps for every block, and a few for the threads. -/
theorem Admissible.work_start {fieldType : FieldType}
    {config : BenchmarkConfig fieldType}
    (admissible : Admissible config cntProducer)
    (blocks : Nat → LatencyBlock) (clock : Int) :
    (start buffer config cntProducer 1 blocks clock :
      State Address Ring cntProducer 1).work =
        13 * total config + 2 * cntProducer + 15 := by
  have sums : ∑ index : Fin cntProducer,
      (13 * (work config cntProducer index).length + 2) =
        13 * total config + 2 * cntProducer := by
    have scaled : ∑ index : Fin cntProducer,
        13 * (work config cntProducer index).length =
          13 * ∑ index : Fin cntProducer,
            (work config cntProducer index).length :=
      Finset.sum_nsmul Finset.univ 13 _
    rw [Finset.sum_add_distrib, scaled, admissible.sum_length_work]
    simp [Nat.mul_comm]
  simp only [State.work, start, Producer.work, ConsumerPoint.work,
    MainPoint.work, sums]
  simp

/-! ## The report -/

section Report

variable {fieldType : FieldType} {config : BenchmarkConfig fieldType}

/-- What the report finds: every block of memory freed, every index either
failed or sent, and the stamps of every block. -/
structure Reported (total : Nat) (state : State Address Ring cntProducer 1) :
    Prop where
  freed : ∀ block, state.heap.cell block = none
  readNum : state.consumerReadNum 0 = state.heap.allocated.length
  covers : (state.failed ++ state.sent.map Prod.snd).Perm (List.range total)
  noLoss : state.consumerReadNum 0 = total ↔ state.failed = []
  sent : ∀ idx ∈ state.sent.map Prod.snd,
    (state.blocks idx).Stamped idx 4 state.clock
  failed : ∀ idx ∈ state.failed,
    (state.blocks idx).Stamped idx 2 state.clock

theorem Safe.reported {total : Nat} {state : State Address Ring cntProducer 1}
    (safe : Safe Holds total state) (report : state.main = .report) :
    Reported total state := by
  obtain ⟨allocated, released, counts⟩ := safe.traffic.of_report report
  have consumerDone := safe.traffic.consumers_done report 0
  have producersDone := safe.traffic.producers_done (by simp [report])
  have registered := safe.registered
  rw [Consumer.Registered, consumerDone] at registered
  have covers : (state.failed ++ state.sent.map Prod.snd).Perm
      (List.range total) := by
    rw [List.perm_iff_count]
    intro idx
    have count := safe.traffic.indices idx
    rw [List.count_append, ← count, Finset.sum_eq_zero fun index _ => ?_,
      Nat.zero_add]
    rw [Producer.indexCount, producersDone index,
      safe.traffic.finished index (producersDone index)]
    rfl
  have lengths := covers.length_eq
  rw [List.length_append, List.length_map, List.length_range] at lengths
  refine ⟨fun block => ?_, ?_, covers, ?_, ?_, safe.records.failed⟩
  · apply Heap.cell_eq_none_of_length_eq
    rw [released, allocated, Nat.one_mul]
  · rw [registered.2, counts 0, allocated]
  · rw [registered.2, counts 0, ← List.length_eq_zero_iff]
    omega
  · intro idx mem
    obtain ⟨entry, sent, rfl⟩ := List.mem_map.mp mem
    obtain ⟨k, found⟩ := List.mem_iff_getElem?.mp sent
    have stamped := safe.records.sent k entry found
    have inside := (List.getElem?_eq_some_iff.mp found).1
    have four : (state.consumer 0).stamps k = 4 := by
      rw [Consumer.stamps, if_pos (by rw [counts 0]; exact inside)]
    rwa [four] at stamped

/-- **`Benchmark_wr` with one consumer.**  As long as the consumer is not
overtaken and the clock does not run backwards, no block is accessed that is
not allocated, every allocated block has one owner, the benchmark ends within
thirteen steps for every block and a few for the threads, and its report finds
no block left and the stamps of every block in their order.  An allocation
that fails costs the message and two stamps of its block, nothing else. -/
theorem benchmark_wr_singleConsumer
    (keeps : buffer.Keeps ringCapacity (2 ^ 31) Holds)
    (admissible : Admissible config cntProducer)
    (few : total config + 1 < 2 ^ 31)
    {trace : List (State Address Ring cntProducer 1 ×
      Action Address cntProducer 1)}
    {state : State Address Ring cntProducer 1}
    (run : (system buffer config cntProducer 1).Run trace state)
    (meets : TransitionSystem.Meets KeepsUp trace) :
    state.faulted = false ∧
    (∀ block, state.heap.live block =
      (∑ index, (state.producer index).holds block) +
        (state.unfreed.map Prod.fst).count block) ∧
    (state.main ≠ .report →
      ∃ actor, (step buffer state ⟨actor, state.clock⟩).isSome) ∧
    trace.length ≤ 13 * total config + 2 * cntProducer + 15 ∧
    (state.main = .report → Reported (total config) state) := by
  have safe := admissible.safe_of_reachableUnder keeps few
    ⟨trace, run, meets⟩
  refine ⟨safe.ownership.not_faulted, safe.ownership.owners,
    safe.canStep keeps few, ?_, safe.reported⟩
  obtain ⟨_, ⟨blocks, clock, rfl⟩, bound⟩ := run.length_add_measure_le
    State.work (fun _ _ _ reached _ taken => State.work_lt_of_step
      (admissible.traffic_of_reachableUnder keeps few reached) taken) meets
  rw [admissible.work_start] at bound
  omega

/-- A ring that holds all entries overtakes nobody, so some run reaches its
report. -/
theorem Admissible.exists_report (admissible : Admissible config cntProducer)
    (keeps : buffer.Keeps ringCapacity (2 ^ 31) Holds)
    (small : total config + 1 ≤ ringCapacity) :
    ∃ state : State Address Ring cntProducer 1,
      (system buffer config cntProducer 1).ReachableUnder KeepsUp state ∧
        state.main = .report := by
  have few : total config + 1 < 2 ^ 31 :=
    lt_of_le_of_lt small (by decide)
  have initial : (system buffer config cntProducer 1).initial
      (start buffer config cntProducer 1 (fun _ => .zero) 0) := ⟨_, _, rfl⟩
  obtain ⟨last, reachable, stuck⟩ :=
    (TransitionSystem.ReachableUnder.of_initial initial).exists_final
      State.work fun _ _ _ reached _ taken => State.work_lt_of_step
        (admissible.traffic_of_reachableUnder keeps few reached) taken
  have safe := admissible.safe_of_reachableUnder keeps few reachable
  refine ⟨last, reachable, ?_⟩
  by_contra unfinished
  obtain ⟨actor, taken⟩ := safe.canStep keeps few unfinished
  obtain ⟨next, taken⟩ := Option.isSome_iff_exists.mp taken
  refine stuck ⟨⟨actor, last.clock⟩, ⟨le_refl _, ?_⟩, next, taken⟩
  intro lapped
  have writtenBound := safe.traffic.written_length_le
  have sentBound := safe.traffic.sent_length_le
  cases actor with
  | main | producer | malloc => exact lapped
  | consumer index =>
      obtain ⟨point, overtaken⟩ := lapped
      have pos := (safe.traffic.pos_eq_reads few point).1
      omega

/-- One loop of three blocks. -/
def threeBlocks : BenchmarkConfig .uint64 where
  loop := 1
  cntPerLoop := 3
  loop_le := by decide
  cntPerLoop_le := by decide

theorem threeBlocks_admissible : Admissible threeBlocks 2 :=
  ⟨by decide, by decide, by decide⟩

/-- A producer's steps up to the allocation of its next block. -/
def toMalloc (index : Fin cntProducer) (cntConsumer : Nat) :
    List (Actor Address cntProducer cntConsumer) :=
  List.replicate 4 (.producer index)

/-- The allocation succeeds, and the producer sends the block. -/
def sendBlock (index : Fin cntProducer) (block : Address)
    (cntConsumer : Nat) : List (Actor Address cntProducer cntConsumer) :=
  .malloc index (some block) :: List.replicate 3 (.producer index)

/-- A consumer reads a block and frees it. -/
def freeBlock (index : Fin cntConsumer) (cntProducer : Nat) :
    List (Actor Address cntProducer cntConsumer) :=
  List.replicate 5 (.consumer index)

/-- Both producers are at their allocations at once.  The second one fails and
is at its next block when the first block is freed, whose address it gets. -/
def threeBlocksRun (first second : Fin 2) (reader : Fin 1) :
    List (Actor Nat 2 1) :=
  List.flatten
    [[.consumer reader, .producer first, .producer second],
      toMalloc second 1, toMalloc first 1,
      [.malloc second none, .producer second], sendBlock first 7 1,
      toMalloc second 1, freeBlock reader 2, sendBlock second 7 1,
      [.producer first, .producer second, .main, .main],
      freeBlock reader 2, [.consumer reader, .consumer reader, .main]]

/-- One step at every reading of the clock. -/
def ticking (actors : List (Actor Address cntProducer cntConsumer)) :
    List (Action Address cntProducer cntConsumer) :=
  actors.zipIdx.map fun entry => ⟨entry.1, entry.2⟩

/-- The first block on its way through the ring to two readers: one of them
frees it, then the other. -/
def twoReadersRun (first : Fin 2) (reader other : Fin 2) :
    List (Actor Nat 2 2) :=
  List.flatten
    [[.consumer reader, .consumer other, .producer first],
      toMalloc first 2, sendBlock first 7 2,
      List.replicate 3 (.consumer reader), List.replicate 3 (.consumer other),
      [.consumer reader, .consumer other]]

/-- What these steps make of the start of `threeBlocks`. -/
def threeBlocksAfter {cntConsumer : Nat}
    (actors : List (Actor Nat 2 cntConsumer)) :
    Option (State Nat (RingBuffer.Slots (Option Nat)) 2 cntConsumer) :=
  (system (RingBuffer.slots (Option Nat)) threeBlocks 2
    cntConsumer).executeUnder KeepsUp
      (start (RingBuffer.slots _) threeBlocks 2 cntConsumer (fun _ => .zero) 0)
      (ticking actors)

theorem reachable_of_threeBlocksAfter {cntConsumer : Nat}
    {actors : List (Actor Nat 2 cntConsumer)}
    {state : State Nat (RingBuffer.Slots (Option Nat)) 2 cntConsumer}
    (executed : threeBlocksAfter actors = some state) :
    (system (RingBuffer.slots (Option Nat)) threeBlocks 2
      cntConsumer).ReachableUnder KeepsUp state := by
  have initial : (system (RingBuffer.slots (Option Nat)) threeBlocks 2
      cntConsumer).initial (start (RingBuffer.slots _) threeBlocks 2
        cntConsumer (fun _ => .zero) 0) := ⟨_, _, rfl⟩
  exact (TransitionSystem.ReachableUnder.of_initial initial).executeUnder
    executed

/-- The theorem on the run of three blocks up to its report. -/
theorem benchmark_wr_singleConsumer_threeBlocks :
    ∃ state : State Nat (RingBuffer.Slots (Option Nat)) 2 1,
      (system (RingBuffer.slots (Option Nat)) threeBlocks 2 1).ReachableUnder
        KeepsUp state ∧
      state.main = .report ∧ state.failed = [1] ∧
        state.sent = [(7, 0), (7, 2)] ∧
          Reported (total threeBlocks) state := by
  have facts : (threeBlocksAfter (threeBlocksRun 0 1 0)).map
      (fun state => (state.main, state.failed, state.sent)) =
        some (.report, [1], [(7, 0), (7, 2)]) := rfl
  obtain ⟨last, executed, values⟩ := Option.map_eq_some_iff.mp facts
  simp only [Prod.mk.injEq] at values
  obtain ⟨report, failed, sent⟩ := values
  obtain ⟨trace, run, meets⟩ := reachable_of_threeBlocksAfter executed
  exact ⟨last, ⟨trace, run, meets⟩, report, failed, sent,
    (benchmark_wr_singleConsumer (RingBuffer.slots_keeps _ _ _)
      threeBlocks_admissible (by decide) run meets).2.2.2.2 report⟩

/-- A run in which no reader is overtaken and which reaches its report has
sent nothing or has at most one consumer: two would each free every block. -/
theorem cntConsumer_le_one_of_report
    (keeps : buffer.Keeps ringCapacity (2 ^ 31) Holds)
    (admissible : Admissible config cntProducer)
    (few : total config + 1 < 2 ^ 31)
    {state : State Address Ring cntProducer cntConsumer}
    (reachable : (system buffer config cntProducer
      cntConsumer).ReachableUnder KeepsUp state)
    (report : state.main = .report) :
    state.sent = [] ∨ cntConsumer ≤ 1 := by
  have traffic := admissible.traffic_of_reachableUnder keeps few reachable
  obtain ⟨allocated, released, _⟩ := traffic.of_report report
  have balance := state.heap.released_length_le
  rw [allocated, released] at balance
  by_cases none : state.sent.length = 0
  · exact Or.inl (List.length_eq_zero_iff.mp none)
  · right
    by_contra several
    have twice : 2 * state.sent.length ≤ cntConsumer * state.sent.length :=
      Nat.mul_le_mul_right _ (by omega)
    omega

/-- One consumer reaches its report with two blocks sent; the second of two
consumers accesses a block that the first one has freed. -/
theorem cntConsumer_le_one_of_report_threeBlocks :
    (∃ state : State Nat (RingBuffer.Slots (Option Nat)) 2 1,
      (system (RingBuffer.slots (Option Nat)) threeBlocks 2 1).ReachableUnder
        KeepsUp state ∧
      state.main = .report ∧ state.sent = [(7, 0), (7, 2)] ∧
        (state.sent = [] ∨ 1 ≤ 1)) ∧
    ∃ state : State Nat (RingBuffer.Slots (Option Nat)) 2 2,
      (system (RingBuffer.slots (Option Nat)) threeBlocks 2 2).ReachableUnder
        KeepsUp state ∧
      state.sent = [(7, 0)] ∧ state.faulted = true := by
  constructor
  · have facts : (threeBlocksAfter (threeBlocksRun 0 1 0)).map
        (fun state => (state.main, state.sent)) =
          some (.report, [(7, 0), (7, 2)]) := rfl
    obtain ⟨last, executed, values⟩ := Option.map_eq_some_iff.mp facts
    obtain ⟨report, sent⟩ := Prod.ext_iff.mp values
    have reachable := reachable_of_threeBlocksAfter executed
    exact ⟨last, reachable, report, sent,
      cntConsumer_le_one_of_report (RingBuffer.slots_keeps _ _ _)
        threeBlocks_admissible (by decide) reachable report⟩
  · have facts : (threeBlocksAfter (twoReadersRun 0 0 1)).map
        (fun state => (state.sent, state.faulted)) =
          some ([(7, 0)], true) := rfl
    obtain ⟨last, executed, values⟩ := Option.map_eq_some_iff.mp facts
    obtain ⟨sent, faulted⟩ := Prod.ext_iff.mp values
    exact ⟨last, reachable_of_threeBlocksAfter executed, sent, faulted⟩

end Report

end MallocFree

end LatencyBenchmark
