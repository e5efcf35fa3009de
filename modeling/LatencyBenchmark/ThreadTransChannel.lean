import LatencyBenchmark.IndexRange
import LatencyBenchmark.MachineInteger
import LatencyBenchmark.TransitionSystem
import Mathlib.Logic.Function.Basic

/-!
# The Go channel benchmark

`benchmark_wr` of `thread_trans_channel` starts its consumers, waits for the
ready signals, starts its producers, joins both through one signal channel
and reports.  Blocks travel from the producers to the consumers over a second
channel.

Both channels are unbuffered, so a send and the receive it meets are one step
of two goroutines.  Every other statement that touches shared memory or reads
the clock is a step of one goroutine, and the goroutines interleave in any
order.  A panic of one goroutine ends the program.
-/

namespace LatencyBenchmark

namespace ThreadTransChannel

/-- The fields of `lc.ThreadTransConfig` that `benchmark_wr` reads, for
nonnegative 64-bit `int`s.  `LoopInterval` only delays a producer, which takes
its next step at any later time anyway. -/
structure ThreadTransConfig where
  loop : Nat
  cntPerLoop : Nat
  loop_lt : loop < 2 ^ 63
  cntPerLoop_lt : cntPerLoop < 2 ^ 63

/-- `lc.LatencyBlock`.  A slot of `Ts` is `none` while it holds the zero
time. -/
structure LatencyBlock where
  idx : Nat
  ts : Fin 8 → Option Int

/-- The largest length that `make` accepts for a slice of blocks.  It depends
on the size of a block and on the memory there is, and is an `int`. -/
structure MakeLimit where
  blocks : Nat
  blocks_lt : blocks < 2 ^ 63

/-- Program points of `benchmark_wr`. -/
inductive MainPoint where
  /-- Before `blocks` is made. -/
  | make
  /-- At the head of the loop that starts the consumers. -/
  | startConsumers (i : Nat)
  /-- Receiving in the ready loop. -/
  | ready
  /-- At the head of the loop that starts the producers. -/
  | startProducers (i : Nat)
  /-- Receiving in the join loop. -/
  | join (cntProducerComplete cntConsumerComplete : Nat)
  /-- At the head of the loop around `c <- nil`. -/
  | sendNil (i cntProducerComplete cntConsumerComplete : Nat)
  /-- After the join loop. -/
  | report
  deriving DecidableEq, Repr

/-- Program points of `producer`. -/
inductive ProducerPoint where
  | notStarted
  /-- At the head of the loop over `i`. -/
  | loop (i : Nat)
  /-- At the head of the loop over `j`. -/
  | inner (i j : Nat)
  /-- Before `blocks[idx].Ts[0]` is set. -/
  | stampBegin (i j idx : Nat)
  /-- At `c <- &blocks[idx]`. -/
  | send (i j idx : Nat)
  /-- Before `blocks[idx].Ts[1]` is set. -/
  | stampEnd (i j idx : Nat)
  | sleep (i : Nat)
  /-- At `c_signal <- 1`. -/
  | signal
  | complete
  deriving DecidableEq, Repr

/-- Program points of `consumer`. -/
inductive ConsumerPoint where
  | notStarted
  /-- Before `atomic.AddInt32`. -/
  | addReady
  /-- At `c_signal <- int(consumer_idx)`. -/
  | ready
  /-- At `<-c`. -/
  | receive
  /-- Before `block.Ts[2]` is set. -/
  | stamp (block : Nat)
  /-- Before `idx++`. -/
  | count
  /-- Before the store to `consumer_read_num`. -/
  | store
  /-- At `c_signal <- 2`. -/
  | signal
  | complete
  deriving DecidableEq, Repr

/-- A consumer with its local variables.  `received` is a history variable:
the indices of the blocks it received, newest first. -/
structure Consumer where
  point : ConsumerPoint
  consumerIdx : Int
  idx : Nat
  received : List Nat
  deriving DecidableEq, Repr

/-- `sent` and `nilsSent` are history variables: the indices of the blocks
sent on `c`, newest first, and the number of nils sent on it. -/
structure State (cntProducer cntConsumer : Nat) where
  clock : Int
  main : MainPoint
  producer : Fin cntProducer → ProducerPoint
  consumer : Fin cntConsumer → Consumer
  consumerReady : Int
  consumerReadNum : Fin cntConsumer → Nat
  blocks : Nat → LatencyBlock
  sent : List Nat
  nilsSent : Nat
  panicked : Bool

/-- Who takes a step: one goroutine on its own, or a sender together with the
receiver of its value. -/
inductive Actor (cntProducer cntConsumer : Nat) where
  | main
  | producer (producerId : Fin cntProducer)
  | consumer (consumerId : Fin cntConsumer)
  /-- A producer sends to main on `c_signal`. -/
  | producerSignal (producerId : Fin cntProducer)
  /-- A consumer sends to main on `c_signal`. -/
  | consumerSignal (consumerId : Fin cntConsumer)
  /-- A producer sends a block to a consumer on `c`. -/
  | block (producerId : Fin cntProducer) (consumerId : Fin cntConsumer)
  /-- Main sends a nil to a consumer on `c`. -/
  | nil (consumerId : Fin cntConsumer)
  deriving DecidableEq, Repr

structure Action (cntProducer cntConsumer : Nat) where
  actor : Actor cntProducer cntConsumer
  time : Int
  deriving DecidableEq, Repr

variable {cntProducer cntConsumer : Nat}

/-- `cnt`, a product of two `int`s as a `uint64`. -/
def cnt (config : ThreadTransConfig) : Nat :=
  config.loop * config.cntPerLoop % 2 ^ 64

/-- `start_idx` of a producer.  The product is at most `CntPerLoop`, so it
never leaves `int`. -/
def startIdx (config : ThreadTransConfig) (cntProducer i : Nat) : Nat :=
  i * (config.cntPerLoop / cntProducer)

/-- `end_idx` of a producer. -/
def endIdx (config : ThreadTransConfig) (cntProducer i : Nat) : Nat :=
  if i + 1 = cntProducer then
    config.cntPerLoop
  else
    (i + 1) * (config.cntPerLoop / cntProducer)

/-- `uint64(i*config.CntPerLoop) + j`. -/
def blockIndex (config : ThreadTransConfig) (i j : Nat) : Nat :=
  (i * config.cntPerLoop + j) % 2 ^ 64

/-- A block whose slot `k` is set. -/
def LatencyBlock.stamp (block : LatencyBlock) (k : Fin 8) (time : Int) :
    LatencyBlock :=
  { block with ts := Function.update block.ts k (some time) }

def State.moveProducer (state : State cntProducer cntConsumer)
    (producerId : Fin cntProducer) (point : ProducerPoint) :
    State cntProducer cntConsumer :=
  { state with
    producer := Function.update state.producer producerId point }

def State.setConsumer (state : State cntProducer cntConsumer)
    (consumerId : Fin cntConsumer) (consumer : Consumer) :
    State cntProducer cntConsumer :=
  { state with
    consumer := Function.update state.consumer consumerId consumer }

/-- `blocks[idx].Ts[k] = time.Now()`. -/
def State.stampBlock (state : State cntProducer cntConsumer) (idx : Nat)
    (k : Fin 8) : State cntProducer cntConsumer :=
  { state with
    blocks := Function.update state.blocks idx
      ((state.blocks idx).stamp k state.clock) }

/-- A step main takes on its own. -/
def mainStep (limit : MakeLimit) (config : ThreadTransConfig)
    (state : State cntProducer cntConsumer) :
    Option (State cntProducer cntConsumer) :=
  match state.main with
  | .make =>
      if cnt config ≤ limit.blocks then
        some { state with main := .startConsumers 0 }
      else
        some { state with panicked := true }
  | .startConsumers i =>
      if inside : i < cntConsumer then
        some { state.setConsumer ⟨i, inside⟩
            { state.consumer ⟨i, inside⟩ with point := .addReady } with
          main := .startConsumers (i + 1) }
      else
        some { state with main := .ready }
  | .startProducers i =>
      if inside : i < cntProducer then
        some { state.moveProducer ⟨i, inside⟩ (.loop 0) with
          main := .startProducers (i + 1) }
      else
        some { state with main := .join 0 0 }
  | .sendNil i cntProducerComplete cntConsumerComplete =>
      if i < cntConsumer then
        none
      else
        some { state with
          main := .join cntProducerComplete cntConsumerComplete }
  | .ready | .join _ _ | .report => none

/-- A step a producer takes on its own. -/
def producerStep (config : ThreadTransConfig)
    (state : State cntProducer cntConsumer)
    (producerId : Fin cntProducer) :
    Option (State cntProducer cntConsumer) :=
  match state.producer producerId with
  | .loop i =>
      if i < config.loop then
        some (state.moveProducer producerId
          (.inner i (startIdx config cntProducer producerId)))
      else
        some (state.moveProducer producerId .signal)
  | .inner i j =>
      if j < endIdx config cntProducer producerId then
        let idx := blockIndex config i j
        if idx < cnt config then
          some { state.moveProducer producerId (.stampBegin i j idx) with
            blocks := Function.update state.blocks idx
              { state.blocks idx with idx := idx } }
        else
          some { state with panicked := true }
      else
        some (state.moveProducer producerId (.sleep i))
  | .stampBegin i j idx =>
      some ((state.stampBlock idx 0).moveProducer producerId (.send i j idx))
  | .stampEnd i j idx =>
      some ((state.stampBlock idx 1).moveProducer producerId
        (.inner i (j + 1)))
  | .sleep i => some (state.moveProducer producerId (.loop (i + 1)))
  | .notStarted | .send _ _ _ | .signal | .complete => none

/-- A step a consumer takes on its own. -/
def consumerStep (state : State cntProducer cntConsumer)
    (consumerId : Fin cntConsumer) :
    Option (State cntProducer cntConsumer) :=
  let consumer := state.consumer consumerId
  match consumer.point with
  | .addReady =>
      let consumerReady := toInt32 (state.consumerReady + 1)
      some { state.setConsumer consumerId
          { consumer with
            point := .ready
            consumerIdx := consumerReady } with
        consumerReady := consumerReady }
  | .stamp block =>
      some ((state.stampBlock block 2).setConsumer consumerId
        { consumer with point := .count })
  | .count =>
      some (state.setConsumer consumerId
        { consumer with
          point := .receive
          idx := (consumer.idx + 1) % 2 ^ 64 })
  | .store =>
      if inside : consumer.consumerIdx.toNat < cntConsumer ∧
          0 ≤ consumer.consumerIdx then
        some { state.setConsumer consumerId
            { consumer with point := .signal } with
          consumerReadNum := Function.update state.consumerReadNum
            ⟨consumer.consumerIdx.toNat, inside.1⟩ consumer.idx }
      else
        some { state with panicked := true }
  | .notStarted | .ready | .receive | .signal | .complete => none

/-- What main does with a value received on `c_signal`. -/
def receiveSignal (cntProducer cntConsumer : Nat) (main : MainPoint)
    (tmp : Int) : Option MainPoint :=
  match main with
  | .ready =>
      if tmp = cntConsumer then some (.startProducers 0) else some .ready
  | .join cntProducerComplete cntConsumerComplete =>
      if tmp = 1 then
        if cntProducerComplete + 1 = cntProducer then
          some (.sendNil 0 (cntProducerComplete + 1) cntConsumerComplete)
        else
          some (.join (cntProducerComplete + 1) cntConsumerComplete)
      else if tmp = 2 then
        if cntConsumerComplete + 1 = cntConsumer then
          some .report
        else
          some (.join cntProducerComplete (cntConsumerComplete + 1))
      else
        some (.join cntProducerComplete cntConsumerComplete)
  | .make | .startConsumers _ | .startProducers _ | .sendNil _ _ _
  | .report => none

/-- The value a consumer offers on `c_signal` and what it continues as once
main takes the value.  After the ready send it decrements `consumer_idx` and
clears `idx`. -/
def Consumer.signal (consumer : Consumer) : Option (Int × Consumer) :=
  match consumer.point with
  | .ready =>
      some (consumer.consumerIdx,
        { consumer with
          point := .receive
          consumerIdx := toInt32 (consumer.consumerIdx - 1)
          idx := 0 })
  | .signal => some (2, { consumer with point := .complete })
  | .notStarted | .addReady | .receive | .stamp _ | .count | .store
  | .complete => none

/-- A producer's `c_signal <- 1` meets a receive of main. -/
def producerSignalStep (state : State cntProducer cntConsumer)
    (producerId : Fin cntProducer) :
    Option (State cntProducer cntConsumer) :=
  if state.producer producerId = .signal then
    (receiveSignal cntProducer cntConsumer state.main 1).map fun main =>
      { state.moveProducer producerId .complete with main := main }
  else
    none

/-- A consumer's send on `c_signal` meets a receive of main. -/
def consumerSignalStep (state : State cntProducer cntConsumer)
    (consumerId : Fin cntConsumer) :
    Option (State cntProducer cntConsumer) :=
  (state.consumer consumerId).signal.bind fun offered =>
    (receiveSignal cntProducer cntConsumer state.main offered.1).map
      fun main =>
        { state.setConsumer consumerId offered.2 with main := main }

/-- A producer's `c <- &blocks[idx]` meets a consumer's `<-c`. -/
def blockStep (state : State cntProducer cntConsumer)
    (producerId : Fin cntProducer) (consumerId : Fin cntConsumer) :
    Option (State cntProducer cntConsumer) :=
  let consumer := state.consumer consumerId
  match state.producer producerId with
  | .send i j idx =>
      if consumer.point = .receive then
        some { (state.moveProducer producerId
            (.stampEnd i j idx)).setConsumer consumerId
              { consumer with
                point := .stamp idx
                received := idx :: consumer.received } with
          sent := idx :: state.sent }
      else
        none
  | _ => none

/-- Main's `c <- nil` meets a consumer's `<-c`, which breaks its loop. -/
def nilStep (state : State cntProducer cntConsumer)
    (consumerId : Fin cntConsumer) :
    Option (State cntProducer cntConsumer) :=
  let consumer := state.consumer consumerId
  match state.main with
  | .sendNil i cntProducerComplete cntConsumerComplete =>
      if i < cntConsumer ∧ consumer.point = .receive then
        some { state.setConsumer consumerId
            { consumer with point := .store } with
          main := .sendNil (i + 1) cntProducerComplete cntConsumerComplete
          nilsSent := state.nilsSent + 1 }
      else
        none
  | _ => none

/-- One atomic step at a time no earlier than the last one. -/
def step (limit : MakeLimit) (config : ThreadTransConfig)
    (state : State cntProducer cntConsumer)
    (action : Action cntProducer cntConsumer) :
    Option (State cntProducer cntConsumer) :=
  if state.clock ≤ action.time ∧ state.panicked = false then
    let now := { state with clock := action.time }
    match action.actor with
    | .main => mainStep limit config now
    | .producer producerId => producerStep config now producerId
    | .consumer consumerId => consumerStep now consumerId
    | .producerSignal producerId => producerSignalStep now producerId
    | .consumerSignal consumerId => consumerSignalStep now consumerId
    | .block producerId consumerId => blockStep now producerId consumerId
    | .nil consumerId => nilStep now consumerId
  else
    none

/-- The state in which `benchmark_wr` is called. -/
def start (cntProducer cntConsumer : Nat) (clock : Int) :
    State cntProducer cntConsumer where
  clock := clock
  main := .make
  producer := fun _ => .notStarted
  consumer := fun _ => ⟨.notStarted, 0, 0, []⟩
  consumerReady := 0
  consumerReadNum := fun _ => 0
  blocks := fun _ => ⟨0, fun _ => none⟩
  sent := []
  nilsSent := 0
  panicked := false

/-- `benchmark_wr` for the given numbers of producers and consumers. -/
def benchmarkWr (limit : MakeLimit) (config : ThreadTransConfig)
    (cntProducer cntConsumer : Nat) :
    TransitionSystem (State cntProducer cntConsumer)
      (Action cntProducer cntConsumer) where
  initial := fun state => ∃ clock, state = start cntProducer cntConsumer clock
  step := step limit config

end ThreadTransChannel

end LatencyBenchmark
