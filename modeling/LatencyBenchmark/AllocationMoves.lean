import LatencyBenchmark.AllocationBenchmark

/-!
# Moves of the C allocation benchmark

What one step of `fn_producer`, `fn_consumer` or `Benchmark_wr` does, branch
by branch.  The state before a move already has the clock of the step.
-/

namespace LatencyBenchmark

namespace MallocFree

variable {Address Ring : Type*} [DecidableEq Address]
variable {cntProducer cntConsumer : Nat}
variable {buffer : RingBuffer Ring (Option Address)}

/-- The moves of a producer. -/
inductive ProducerMove (buffer : RingBuffer Ring (Option Address))
    (state : State Address Ring cntProducer cntConsumer)
    (index : Fin cntProducer) :
    State Address Ring cntProducer cntConsumer → Prop
  | ready (point : (state.producer index).point = .wait)
      (every : state.consumerReady = cntConsumer) :
      ProducerMove buffer state index (state.moveProducer index .head)
  | finish (point : (state.producer index).point = .head)
      (rest : (state.producer index).rest = []) :
      ProducerMove buffer state index (state.moveProducer index .done)
  | next {idx : Nat} {rest : List Nat}
      (point : (state.producer index).point = .head)
      (rests : (state.producer index).rest = idx :: rest) :
      ProducerMove buffer state index
        { state with
          producer := Function.update state.producer index
            ⟨.clear idx, rest⟩ }
  | clear {idx : Nat} (point : (state.producer index).point = .clear idx) :
      ProducerMove buffer state index
        { state.moveProducer index (.setIdx idx) with
          blocks := Function.update state.blocks idx .zero }
  | setIdx {idx : Nat} (point : (state.producer index).point = .setIdx idx) :
      ProducerMove buffer state index
        { state.moveProducer index (.stampBegin idx) with
          blocks := Function.update state.blocks idx
            { state.blocks idx with idx := idx } }
  | stampBegin {idx : Nat}
      (point : (state.producer index).point = .stampBegin idx) :
      ProducerMove buffer state index
        ((state.stamp idx 0).moveProducer index (.malloc idx))
  | mallocNull {idx : Nat}
      (point : (state.producer index).point = .malloc idx) :
      ProducerMove buffer state index
        (state.moveProducer index (.stampEnd idx none))
  | malloc {idx : Nat} {block : Address}
      (point : (state.producer index).point = .malloc idx)
      (unused : state.heap.cell block = none) :
      ProducerMove buffer state index
        { state.moveProducer index (.stampEnd idx (some block)) with
          heap := state.heap.malloc block unused }
  | stampEnd {idx : Nat} {block : Address}
      (point : (state.producer index).point = .stampEnd idx (some block)) :
      ProducerMove buffer state index
        ((state.stamp idx 1).moveProducer index (.initialise idx block))
  | stampFailed {idx : Nat}
      (point : (state.producer index).point = .stampEnd idx none) :
      ProducerMove buffer state index
        { (state.stamp idx 1).moveProducer index .head with
          failed := idx :: state.failed }
  | initialise {idx : Nat} {block : Address}
      (point : (state.producer index).point = .initialise idx block)
      (live : (state.heap.cell block).isSome) :
      ProducerMove buffer state index
        { state.moveProducer index (.write idx block) with
          heap := state.heap.store block idx live }
  | initialiseFault {idx : Nat} {block : Address}
      (point : (state.producer index).point = .initialise idx block)
      (dead : state.heap.cell block = none) :
      ProducerMove buffer state index state.fault
  | write {idx : Nat} {block : Address}
      (point : (state.producer index).point = .write idx block) :
      ProducerMove buffer state index
        { state.moveProducer index .head with
          ring := buffer.write state.ring (some block)
          written := state.written ++ [some block]
          sent := state.sent ++ [(block, idx)] }

/-- The moves of a consumer. -/
inductive ConsumerMove (buffer : RingBuffer Ring (Option Address))
    (state : State Address Ring cntProducer cntConsumer)
    (index : Fin cntConsumer) :
    State Address Ring cntProducer cntConsumer → Prop
  | register (point : (state.consumer index).point = .register) :
      ConsumerMove buffer state index
        { state with
          consumer := Function.update state.consumer index
            { state.consumer index with
              point := .read
              consumerIdx := state.consumerReady }
          consumerReady := state.consumerReady + 1 }
  | read {entry : Option Address} {ring : Ring}
      (point : (state.consumer index).point = .read)
      (found : buffer.read state.ring (state.consumer index).pos =
        some (entry, ring)) :
      ConsumerMove buffer state index
        { state with
          ring := ring
          consumer := Function.update state.consumer index
            { state.consumer index with
              point := .afterRead entry
              pos := toInt32 ((state.consumer index).pos + 1)
              reads := (state.consumer index).reads + 1 } }
  | loadIdx {block : Address} {blockIdx : Nat}
      (point : (state.consumer index).point = .loadIdx block)
      (content : state.heap.cell block = some (some blockIdx)) :
      ConsumerMove buffer state index
        (state.moveConsumer index (.stampFree block blockIdx))
  | loadFault {block : Address}
      (point : (state.consumer index).point = .loadIdx block)
      (noContent : ∀ blockIdx,
        state.heap.cell block ≠ some (some blockIdx)) :
      ConsumerMove buffer state index state.fault
  | stampFree {block : Address} {blockIdx : Nat}
      (point : (state.consumer index).point = .stampFree block blockIdx) :
      ConsumerMove buffer state index
        ((state.stamp blockIdx 2).moveConsumer index (.free block blockIdx))
  | free {block : Address} {blockIdx : Nat}
      (point : (state.consumer index).point = .free block blockIdx)
      (live : (state.heap.cell block).isSome) :
      ConsumerMove buffer state index
        { state.moveConsumer index (.stampFreed blockIdx) with
          heap := state.heap.free block live }
  | freeFault {block : Address} {blockIdx : Nat}
      (point : (state.consumer index).point = .free block blockIdx)
      (dead : state.heap.cell block = none) :
      ConsumerMove buffer state index state.fault
  | stampFreed {blockIdx : Nat}
      (point : (state.consumer index).point = .stampFreed blockIdx) :
      ConsumerMove buffer state index
        { state.stamp blockIdx 3 with
          consumer := Function.update state.consumer index
            { state.consumer index with
              point := .read
              cnt := (state.consumer index).cnt + 1 } }
  | store (point : (state.consumer index).point = .store) :
      ConsumerMove buffer state index
        { state.moveConsumer index .done with
          consumerReadNum := Function.update state.consumerReadNum
            (state.consumer index).consumerIdx (state.consumer index).cnt }

/-- The moves of `Benchmark_wr`. -/
inductive MainMove (buffer : RingBuffer Ring (Option Address))
    (state : State Address Ring cntProducer cntConsumer) :
    State Address Ring cntProducer cntConsumer → Prop
  | joinProducers (point : state.main = .joinProducers)
      (every : ∀ index, (state.producer index).point = .done) :
      MainMove buffer state { state with main := .writeNull }
  | writeNull (point : state.main = .writeNull) :
      MainMove buffer state
        { state with
          main := .joinConsumers
          ring := buffer.write state.ring none
          written := state.written ++ [none] }
  | joinConsumers (point : state.main = .joinConsumers)
      (every : ∀ index, (state.consumer index).point = .done) :
      MainMove buffer state { state with main := .report }

theorem producerMove_of_step
    {state next : State Address Ring cntProducer cntConsumer}
    {index : Fin cntProducer}
    (taken : producerStep buffer state index = some next) :
    ProducerMove buffer state index next := by
  unfold producerStep at taken
  split at taken
  case h_1 point =>
    split at taken <;> cases taken
    exact .ready point ‹_›
  case h_2 point =>
    split at taken <;> cases taken
    · exact .finish point ‹_›
    · exact .next point ‹_›
  case h_3 point => cases taken; exact .clear point
  case h_4 point => cases taken; exact .setIdx point
  case h_5 point => cases taken; exact .stampBegin point
  case h_6 => cases taken
  case h_7 point => cases taken; exact .stampEnd point
  case h_8 point => cases taken; exact .stampFailed point
  case h_9 point =>
    split at taken <;> cases taken
    · exact .initialise point _
    · next dead => exact .initialiseFault point (by simpa using dead)
  case h_10 point => cases taken; exact .write point
  case h_11 => cases taken

theorem producerMove_of_mallocStep
    {state next : State Address Ring cntProducer cntConsumer}
    {index : Fin cntProducer} {result : Option Address}
    (taken : mallocStep state index result = some next) :
    ProducerMove buffer state index next := by
  unfold mallocStep at taken
  split at taken
  · next point => cases taken; exact .mallocNull point
  · next point =>
      split at taken <;> cases taken
      exact .malloc point _
  · cases taken

theorem consumerMove_of_step
    {state next : State Address Ring cntProducer cntConsumer}
    {index : Fin cntConsumer}
    (taken : consumerStep buffer state index = some next) :
    ConsumerMove buffer state index next := by
  unfold consumerStep at taken
  dsimp only at taken
  split at taken
  case h_1 point => cases taken; exact .register point
  case h_2 point =>
    rw [Option.map_eq_some_iff] at taken
    obtain ⟨⟨entry, ring⟩, found, rfl⟩ := taken
    exact .read point found
  case h_3 point =>
    split at taken <;> cases taken
    · next content => exact .loadIdx point content
    · next noContent => exact .loadFault point noContent
  case h_4 point => cases taken; exact .stampFree point
  case h_5 point =>
    split at taken <;> cases taken
    · exact .free point _
    · next dead => exact .freeFault point (by simpa using dead)
  case h_6 point => cases taken; exact .stampFreed point
  case h_7 point => cases taken; exact .store point
  case h_8 => cases taken

theorem mainMove_of_step
    {state next : State Address Ring cntProducer cntConsumer}
    (taken : mainStep buffer state = some next) :
    MainMove buffer state next := by
  unfold mainStep at taken
  split at taken
  case h_1 point =>
    split at taken <;> cases taken
    exact .joinProducers point ‹_›
  case h_2 point => cases taken; exact .writeNull point
  case h_3 point =>
    split at taken <;> cases taken
    exact .joinConsumers point ‹_›
  case h_4 => cases taken

/-- What one step can do, at the time of the step. -/
theorem step_cases {state next : State Address Ring cntProducer cntConsumer}
    {action : Action Address cntProducer cntConsumer}
    (taken : step buffer state action = some next) :
    state.faulted = false ∧
      (MainMove buffer { state with clock := action.time } next ∨
        (∃ index, ProducerMove buffer { state with clock := action.time } index
          next) ∨
        ∃ index, action.actor = .consumer index ∧
          ConsumerMove buffer { state with clock := action.time } index
            next) := by
  unfold step at taken
  split at taken
  · cases taken
  · next running =>
      refine ⟨by simpa using running, ?_⟩
      obtain ⟨actor, time⟩ := action
      cases actor with
      | main => exact Or.inl (mainMove_of_step taken)
      | producer index =>
          exact Or.inr (Or.inl ⟨index, producerMove_of_step taken⟩)
      | malloc index block =>
          exact Or.inr (Or.inl ⟨index, producerMove_of_mallocStep taken⟩)
      | consumer index =>
          exact Or.inr (Or.inr ⟨index, rfl, consumerMove_of_step taken⟩)

end MallocFree

end LatencyBenchmark
