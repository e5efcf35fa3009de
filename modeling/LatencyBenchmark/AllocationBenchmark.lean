import LatencyBenchmark.Heap
import LatencyBenchmark.ProducerRanges
import LatencyBenchmark.RingBuffer
import LatencyBenchmark.ThreadFamily

/-!
# The C allocation benchmark

`Benchmark_wr` of the allocation benchmark starts its producers and consumers
at once.  A producer waits until all consumers are ready, allocates a block
for every index of its range and writes it to a ring; a consumer reads the
ring from its own position, so that with several consumers each of them reads
every block, and frees what it reads.  After the producers main writes one
null, which ends every consumer that reads it.

Every access of the heap, of the ring, of `blocks` or of the clock is one step
of one thread.  The allocation of a block may fail; `blocks` and
`consumer_read_num` are allocated.  The ring comes from a library: its
operations are a parameter.
-/

namespace LatencyBenchmark

namespace MallocFree

/-- The fields of `muggle::LatencyBlock` that the benchmark uses.  A slot of
`ts` is `none` while it holds the zero time. -/
structure LatencyBlock where
  idx : Nat
  ts : Nat → Option Int

/-- A block as `memset` leaves it. -/
def LatencyBlock.zero : LatencyBlock where
  idx := 0
  ts := fun _ => none

/-- Program points of `fn_producer`. -/
inductive ProducerPoint (Address : Type*) where
  /-- At the loop that waits for `consumer_ready`. -/
  | wait
  /-- At the head of the inner loop. -/
  | head
  /-- Before `blocks[idx]` is cleared. -/
  | clear (idx : Nat)
  /-- Before `blocks[idx].idx` is set. -/
  | setIdx (idx : Nat)
  /-- Before `blocks[idx].ts[0]` is set. -/
  | stampBegin (idx : Nat)
  | malloc (idx : Nat)
  /-- Before `blocks[idx].ts[1]` is set, with what `malloc` returned. -/
  | stampEnd (idx : Nat) (block : Option Address)
  /-- Before `block->idx` is set. -/
  | initialise (idx : Nat) (block : Address)
  /-- Before `muggle_ringbuffer_write`. -/
  | write (idx : Nat) (block : Address)
  | done
  deriving DecidableEq, Repr

/-- A producer and the indices of its iterations that it has not begun. -/
structure Producer (Address : Type*) where
  point : ProducerPoint Address
  rest : List Nat
  deriving DecidableEq, Repr

/-- Program points of `fn_consumer`. -/
inductive ConsumerPoint (Address : Type*) where
  /-- Before `consumer_ready` is incremented. -/
  | register
  /-- Before `muggle_ringbuffer_read`. -/
  | read
  /-- Before `block->idx` is read. -/
  | loadIdx (block : Address)
  /-- Before `blocks[block_idx].ts[2]` is set. -/
  | stampFree (block : Address) (blockIdx : Nat)
  | free (block : Address) (blockIdx : Nat)
  /-- Before `blocks[block_idx].ts[3]` is set and `cnt` incremented. -/
  | stampFreed (blockIdx : Nat)
  /-- Before `consumer_read_num[consumer_idx]` is set. -/
  | store
  | done
  deriving DecidableEq, Repr

/-- What a consumer does with an entry: `break` on null. -/
def ConsumerPoint.afterRead {Address : Type*} :
    Option Address → ConsumerPoint Address
  | some block => .loadIdx block
  | none => .store

/-- A consumer with its local variables.  `reads` is a history variable: how
often it has read the ring. -/
structure Consumer (Address : Type*) where
  point : ConsumerPoint Address
  consumerIdx : Nat
  pos : Int
  cnt : Nat
  reads : Nat
  deriving DecidableEq, Repr

/-- Program points of `Benchmark_wr` after it has started its threads. -/
inductive MainPoint where
  /-- At the loop that joins the producers. -/
  | joinProducers
  /-- Before the null is written. -/
  | writeNull
  /-- At the loop that joins the consumers. -/
  | joinConsumers
  /-- Printing the counts and generating the reports. -/
  | report
  deriving DecidableEq, Repr

/-- Global state.  `written`, `sent` and `failed` are history variables: what
was written to the ring, oldest first, the blocks among it with the index they
were allocated for, and the indices whose allocation failed.  `faulted` is set
by an access of a block that is not allocated, or by a read of one that was
not written. -/
structure State (Address Ring : Type*) [DecidableEq Address]
    (cntProducer cntConsumer : Nat) where
  clock : Int
  main : MainPoint
  producer : Fin cntProducer → Producer Address
  consumer : Fin cntConsumer → Consumer Address
  consumerReady : Nat
  consumerReadNum : Nat → Nat
  blocks : Nat → LatencyBlock
  heap : Heap Address Nat
  ring : Ring
  written : List (Option Address)
  sent : List (Address × Nat)
  failed : List Nat
  faulted : Bool

/-- Who takes a step, and for an allocation what `malloc` returns. -/
inductive Actor (Address : Type*) (cntProducer cntConsumer : Nat) where
  | main
  | producer (index : Fin cntProducer)
  | malloc (index : Fin cntProducer) (block : Option Address)
  | consumer (index : Fin cntConsumer)
  deriving DecidableEq, Repr

structure Action (Address : Type*) (cntProducer cntConsumer : Nat) where
  actor : Actor Address cntProducer cntConsumer
  time : Int
  deriving DecidableEq, Repr

/-- `1024 * 16`. -/
def ringCapacity : Nat :=
  1024 * 16

variable {Address Ring : Type*} [DecidableEq Address]
variable {cntProducer cntConsumer : Nat}

namespace State

def moveProducer (state : State Address Ring cntProducer cntConsumer)
    (index : Fin cntProducer) (point : ProducerPoint Address) :
    State Address Ring cntProducer cntConsumer :=
  { state with
    producer := Function.update state.producer index
      { state.producer index with point := point } }

def moveConsumer (state : State Address Ring cntProducer cntConsumer)
    (index : Fin cntConsumer) (point : ConsumerPoint Address) :
    State Address Ring cntProducer cntConsumer :=
  { state with
    consumer := Function.update state.consumer index
      { state.consumer index with point := point } }

/-- `timespec_get(&blocks[idx].ts[k], TIME_UTC)`. -/
def stamp (state : State Address Ring cntProducer cntConsumer) (idx k : Nat) :
    State Address Ring cntProducer cntConsumer :=
  { state with
    blocks := Function.update state.blocks idx
      { state.blocks idx with
        ts := Function.update (state.blocks idx).ts k (some state.clock) } }

@[simp]
theorem stamp_producer (state : State Address Ring cntProducer cntConsumer)
    (idx k : Nat) : (state.stamp idx k).producer = state.producer :=
  rfl

@[simp]
theorem stamp_consumer (state : State Address Ring cntProducer cntConsumer)
    (idx k : Nat) : (state.stamp idx k).consumer = state.consumer :=
  rfl

theorem stamp_blocks (state : State Address Ring cntProducer cntConsumer)
    (idx k : Nat) : (state.stamp idx k).blocks =
      Function.update state.blocks idx
        { state.blocks idx with
          ts := Function.update (state.blocks idx).ts k (some state.clock) } :=
  rfl

/-- The program accesses memory it must not access. -/
def fault (state : State Address Ring cntProducer cntConsumer) :
    State Address Ring cntProducer cntConsumer :=
  { state with faulted := true }

end State

/-- A step of `fn_producer` other than its allocation. -/
def producerStep (buffer : RingBuffer Ring (Option Address))
    (state : State Address Ring cntProducer cntConsumer)
    (index : Fin cntProducer) :
    Option (State Address Ring cntProducer cntConsumer) :=
  match (state.producer index).point with
  | .wait =>
      if state.consumerReady = cntConsumer then
        some (state.moveProducer index .head)
      else
        none
  | .head =>
      match (state.producer index).rest with
      | [] => some (state.moveProducer index .done)
      | idx :: rest =>
          some { state with
            producer := Function.update state.producer index
              ⟨.clear idx, rest⟩ }
  | .clear idx =>
      some { state.moveProducer index (.setIdx idx) with
        blocks := Function.update state.blocks idx .zero }
  | .setIdx idx =>
      some { state.moveProducer index (.stampBegin idx) with
        blocks := Function.update state.blocks idx
          { state.blocks idx with idx := idx } }
  | .stampBegin idx =>
      some ((state.stamp idx 0).moveProducer index (.malloc idx))
  | .malloc _ => none
  | .stampEnd idx (some block) =>
      some ((state.stamp idx 1).moveProducer index (.initialise idx block))
  | .stampEnd idx none =>
      some { (state.stamp idx 1).moveProducer index .head with
        failed := idx :: state.failed }
  | .initialise idx block =>
      if live : (state.heap.cell block).isSome then
        some { state.moveProducer index (.write idx block) with
          heap := state.heap.store block idx live }
      else
        some state.fault
  | .write idx block =>
      some { state.moveProducer index .head with
        ring := buffer.write state.ring (some block)
        written := state.written ++ [some block]
        sent := state.sent ++ [(block, idx)] }
  | .done => none

/-- `malloc` returns null or a block that is not allocated. -/
def mallocStep (state : State Address Ring cntProducer cntConsumer)
    (index : Fin cntProducer) (result : Option Address) :
    Option (State Address Ring cntProducer cntConsumer) :=
  match (state.producer index).point, result with
  | .malloc idx, none => some (state.moveProducer index (.stampEnd idx none))
  | .malloc idx, some block =>
      if unused : state.heap.cell block = none then
        some { state.moveProducer index (.stampEnd idx (some block)) with
          heap := state.heap.malloc block unused }
      else
        none
  | _, _ => none

/-- A step of `fn_consumer`. -/
def consumerStep (buffer : RingBuffer Ring (Option Address))
    (state : State Address Ring cntProducer cntConsumer)
    (index : Fin cntConsumer) :
    Option (State Address Ring cntProducer cntConsumer) :=
  let consumer := state.consumer index
  match consumer.point with
  | .register =>
      some { state with
        consumer := Function.update state.consumer index
          { consumer with point := .read, consumerIdx := state.consumerReady }
        consumerReady := state.consumerReady + 1 }
  | .read =>
      (buffer.read state.ring consumer.pos).map fun (entry, ring) =>
        { state with
          ring := ring
          consumer := Function.update state.consumer index
            { consumer with
              point := .afterRead entry
              pos := toInt32 (consumer.pos + 1)
              reads := consumer.reads + 1 } }
  | .loadIdx block =>
      match state.heap.cell block with
      | some (some blockIdx) =>
          some (state.moveConsumer index (.stampFree block blockIdx))
      | _ => some state.fault
  | .stampFree block blockIdx =>
      some ((state.stamp blockIdx 2).moveConsumer index
        (.free block blockIdx))
  | .free block blockIdx =>
      if live : (state.heap.cell block).isSome then
        some { state.moveConsumer index (.stampFreed blockIdx) with
          heap := state.heap.free block live }
      else
        some state.fault
  | .stampFreed blockIdx =>
      let stamped := state.stamp blockIdx 3
      some { stamped with
        consumer := Function.update state.consumer index
          { consumer with point := .read, cnt := consumer.cnt + 1 } }
  | .store =>
      some { state.moveConsumer index .done with
        consumerReadNum := Function.update state.consumerReadNum
          consumer.consumerIdx consumer.cnt }
  | .done => none

/-- A step of `Benchmark_wr`. -/
def mainStep (buffer : RingBuffer Ring (Option Address))
    (state : State Address Ring cntProducer cntConsumer) :
    Option (State Address Ring cntProducer cntConsumer) :=
  match state.main with
  | .joinProducers =>
      if ∀ index, (state.producer index).point = .done then
        some { state with main := .writeNull }
      else
        none
  | .writeNull =>
      some { state with
        main := .joinConsumers
        ring := buffer.write state.ring none
        written := state.written ++ [none] }
  | .joinConsumers =>
      if ∀ index, (state.consumer index).point = .done then
        some { state with main := .report }
      else
        none
  | .report => none

/-- One step.  A program that has faulted takes none. -/
def step (buffer : RingBuffer Ring (Option Address))
    (state : State Address Ring cntProducer cntConsumer)
    (action : Action Address cntProducer cntConsumer) :
    Option (State Address Ring cntProducer cntConsumer) :=
  if state.faulted then
    none
  else
    let now := { state with clock := action.time }
    match action.actor with
    | .main => mainStep buffer now
    | .producer index => producerStep buffer now index
    | .malloc index block => mallocStep now index block
    | .consumer index => consumerStep buffer now index

variable {fieldType : FieldType}

/-- The indices `idx` of a producer's iterations, in their order. -/
def work (config : BenchmarkConfig fieldType) (cntProducer producer : Nat) :
    List Nat :=
  ((workSplit config cntProducer).iterations producer).map fun place =>
    blockIndex config place.1 place.2

/-- `Benchmark_wr` has started its threads.  What `blocks` holds is whatever
its memory held. -/
def start (buffer : RingBuffer Ring (Option Address))
    (config : BenchmarkConfig fieldType) (cntProducer cntConsumer : Nat)
    (blocks : Nat → LatencyBlock) (clock : Int) :
    State Address Ring cntProducer cntConsumer where
  clock := clock
  main := .joinProducers
  producer := fun index => ⟨.wait, work config cntProducer index⟩
  consumer := fun _ => ⟨.register, 0, 0, 0, 0⟩
  consumerReady := 0
  consumerReadNum := fun _ => 0
  blocks := blocks
  heap := .empty
  ring := buffer.init ringCapacity
  written := []
  sent := []
  failed := []
  faulted := false

/-- The benchmark with some numbers of producers and consumers. -/
def system (buffer : RingBuffer Ring (Option Address))
    (config : BenchmarkConfig fieldType) (cntProducer cntConsumer : Nat) :
    TransitionSystem (State Address Ring cntProducer cntConsumer)
      (Action Address cntProducer cntConsumer) where
  initial := fun state => ∃ blocks clock,
    state = start buffer config cntProducer cntConsumer blocks clock
  step := step buffer

/-- A consumer reads a position whose entry has been overwritten. -/
def Lapped (state : State Address Ring cntProducer cntConsumer)
    (action : Action Address cntProducer cntConsumer) : Prop :=
  match action.actor with
  | .consumer index => (state.consumer index).point = .read ∧
      (state.consumer index).pos + ringCapacity < state.written.length
  | _ => False

instance (state : State Address Ring cntProducer cntConsumer)
    (action : Action Address cntProducer cntConsumer) :
    Decidable (Lapped state action) :=
  match action with
  | ⟨.consumer index, _⟩ =>
      inferInstanceAs (Decidable ((state.consumer index).point = .read ∧
        (state.consumer index).pos + ringCapacity < state.written.length))
  | ⟨.main, _⟩ | ⟨.producer _, _⟩ | ⟨.malloc _ _, _⟩ => isFalse id

/-- The clock does not run backwards and no reader is overtaken by the
writers. -/
def KeepsUp (state : State Address Ring cntProducer cntConsumer)
    (action : Action Address cntProducer cntConsumer) : Prop :=
  state.clock ≤ action.time ∧ ¬Lapped state action

instance (state : State Address Ring cntProducer cntConsumer)
    (action : Action Address cntProducer cntConsumer) :
    Decidable (KeepsUp state action) :=
  inferInstanceAs (Decidable (_ ∧ _))

end MallocFree

end LatencyBenchmark
