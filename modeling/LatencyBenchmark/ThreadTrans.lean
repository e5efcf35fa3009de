import LatencyBenchmark.Handle
import LatencyBenchmark.TransitionSystem
import Mathlib.Logic.Function.Basic

/-!
# The Java thread transfer benchmark

`LatencyBenchmarkThreadTrans.run` starts its consumers and producers, joins
the producers, lets the completed callback tell the consumers to stop, and
joins the consumers.  What carries the messages is behind the write, read and
completed callbacks, so the benchmark is modelled over an arbitrary channel.

Every thread takes atomic steps in any interleaving.  A step happens at a
time that never decreases, and `System.nanoTime()` reads the time of the step
it is called in.  An exception no thread catches ends that thread.
-/

namespace LatencyBenchmark

namespace ThreadTrans

/-- `ACTION_WRITE_BEGIN`. -/
def actionWriteBegin : Int := 0

/-- `ACTION_WRITE_END`. -/
def actionWriteEnd : Int := 1

/-- `ACTION_READ`. -/
def actionRead : Int := 2

/-- The three callbacks; messages are given by their ids.  A callback that
blocks in the current state of the channel returns `none`.  `completed` is
the body of the loop over `config.getConsumer()` that the callback runs, or
`none` for a null callback. -/
structure Callbacks (Channel : Type) where
  write : Channel → Int → Option Channel
  read : Channel → Option (Int × Channel)
  completed : Option (Channel → Option Channel)

/-- Program points of `run`. -/
inductive MainPoint where
  /-- Before `consumers.get(i).start()`. -/
  | startConsumers (i : Nat)
  /-- In `Thread.sleep(1)`. -/
  | sleep
  /-- Before `producers.get(i).start()`. -/
  | startProducers (i : Nat)
  /-- In `producers.get(i).join()`. -/
  | joinProducers (i : Nat)
  /-- Before iteration `i` of the completed callback. -/
  | completed (i : Nat)
  /-- In `consumers.get(i).join()`. -/
  | joinConsumers (i : Nat)
  | returned (totalReadMsg : Int)
  deriving DecidableEq, Repr

/-- Program points of `LatencyBenchmarkThreadTransProducer.run`. -/
inductive ProducerPoint where
  | created
  /-- At the head of the loop over `i` in a round. -/
  | round (round i : Nat)
  | write (round i : Nat) (msg nanoTimeWriteBeg : Int)
  /-- Before `nanoTimeWriteEnd` is read. -/
  | written (round i : Nat) (msg nanoTimeWriteBeg : Int)
  | storeBegin (round i : Nat) (msg nanoTimeWriteBeg nanoTimeWriteEnd : Int)
  | storeEnd (round i : Nat) (msg nanoTimeWriteEnd : Int)
  | sleep (round : Nat)
  | ended
  | died (exception : JavaException)
  deriving DecidableEq, Repr

/-- The thread has terminated, by return or by an exception. -/
def ProducerPoint.Terminated : ProducerPoint → Prop
  | .ended | .died _ => True
  | _ => False

instance (point : ProducerPoint) : Decidable point.Terminated := by
  cases point <;> unfold ProducerPoint.Terminated <;> infer_instance

/-- Program points of `LatencyBenchmarkThreadTransConsumer.run`. -/
inductive ConsumerPoint where
  | created
  | read
  /-- Before `msg.id == -1` is tested and `nanoTime` read. -/
  | received (msg : Int)
  | store (msg nanoTime : Int)
  | ended
  | died (exception : JavaException)
  deriving DecidableEq, Repr

/-- The thread has terminated, by return or by an exception. -/
def ConsumerPoint.Terminated : ConsumerPoint → Prop
  | .ended | .died _ => True
  | _ => False

instance (point : ConsumerPoint) : Decidable point.Terminated := by
  cases point <;> unfold ConsumerPoint.Terminated <;> infer_instance

/-- A consumer with its `totalRead` counter.  `taken` is a history variable:
the messages it received, newest first. -/
structure Consumer where
  point : ConsumerPoint
  totalRead : Int
  taken : List Int
  deriving DecidableEq, Repr

structure State (Channel : Type) (producers consumers : Nat) where
  handle : LatencyBenchmarkHandle
  channel : Channel
  clock : Int
  main : MainPoint
  producer : Fin producers → ProducerPoint
  consumer : Fin consumers → Consumer

/-- Who takes a step.  `interrupt` delivers an `InterruptedException` to a
consumer that waits in its read callback. -/
inductive Actor (producers consumers : Nat) where
  | main
  | producer (producerId : Fin producers)
  | consumer (consumerId : Fin consumers)
  | interrupt (consumerId : Fin consumers)
  deriving DecidableEq, Repr

structure Action (producers consumers : Nat) where
  actor : Actor producers consumers
  time : Int
  deriving DecidableEq, Repr

variable {Channel : Type} {producers consumers : Nat}

/-- The constructor's `recordCount`, in `int` arithmetic. -/
def recordCount (config : LatencyBenchmarkConfig) : Int :=
  toInt32 (toInt32 (config.totalRounds * config.recordPerRound) *
    config.producer)

/-- The handle the constructor builds. -/
def newHandle (config : LatencyBenchmarkConfig) :
    Except JavaException LatencyBenchmarkHandle := do
  let handle := LatencyBenchmarkHandle.new (recordCount config)
  let handle ← handle.addAction actionWriteBegin "write_begin"
  let handle ← handle.addAction actionWriteEnd "write_end"
  handle.addAction actionRead "read"

/-- The `id` of a producer's message, in `int` arithmetic. -/
def messageId (config : LatencyBenchmarkConfig) (producerId round i : Nat) :
    Int :=
  let count := toInt32 (config.totalRounds * config.recordPerRound)
  let offset := toInt32 (producerId * count)
  toInt32 (toInt32 (offset + toInt32 (round * config.recordPerRound)) + i)

/-- The sum over `consumerArgsArray`, in `int` arithmetic. -/
def totalReadMsg (consumer : Fin consumers → Consumer) : Int :=
  (List.ofFn fun consumerId => (consumer consumerId).totalRead).foldl
    (fun total read => toInt32 (total + read)) 0

def State.moveProducer (state : State Channel producers consumers)
    (producerId : Fin producers) (point : ProducerPoint) :
    State Channel producers consumers :=
  { state with
    producer := Function.update state.producer producerId point }

def State.moveConsumer (state : State Channel producers consumers)
    (consumerId : Fin consumers) (point : ConsumerPoint) :
    State Channel producers consumers :=
  { state with
    consumer := Function.update state.consumer consumerId
      { state.consumer consumerId with point := point } }

/-- A step of `run`. -/
def mainStep (callbacks : Callbacks Channel)
    (state : State Channel producers consumers) :
    Option (State Channel producers consumers) :=
  match state.main with
  | .startConsumers i =>
      if inside : i < consumers then
        some { state.moveConsumer ⟨i, inside⟩ .read with
          main := .startConsumers (i + 1) }
      else
        some { state with main := .sleep }
  | .sleep => some { state with main := .startProducers 0 }
  | .startProducers i =>
      if inside : i < producers then
        some { state.moveProducer ⟨i, inside⟩ (.round 0 0) with
          main := .startProducers (i + 1) }
      else
        some { state with main := .joinProducers 0 }
  | .joinProducers i =>
      if inside : i < producers then
        if (state.producer ⟨i, inside⟩).Terminated then
          some { state with main := .joinProducers (i + 1) }
        else
          none
      else
        some { state with main := .completed 0 }
  | .completed i =>
      match callbacks.completed with
      | none => some { state with main := .joinConsumers 0 }
      | some put =>
          if i < consumers then
            (put state.channel).map fun channel =>
              { state with channel := channel, main := .completed (i + 1) }
          else
            some { state with main := .joinConsumers 0 }
  | .joinConsumers i =>
      if inside : i < consumers then
        if (state.consumer ⟨i, inside⟩).point.Terminated then
          some { state with main := .joinConsumers (i + 1) }
        else
          none
      else
        some { state with main := .returned (totalReadMsg state.consumer) }
  | .returned _ => none

/-- A step of a producer. -/
def producerStep (callbacks : Callbacks Channel)
    (config : LatencyBenchmarkConfig)
    (state : State Channel producers consumers)
    (producerId : Fin producers) :
    Option (State Channel producers consumers) :=
  match state.producer producerId with
  | .created => none
  | .round round i =>
      if round < config.totalRounds then
        if i < config.recordPerRound then
          let id := messageId config producerId round i
          -- `messages[id]` holds the message with that id.
          if 0 ≤ id ∧ id < state.handle.recordCount then
            some (state.moveProducer producerId
              (.write round i id state.clock))
          else
            some (state.moveProducer producerId
              (.died .arrayIndexOutOfBounds))
        else if 0 < config.intervalBetweenRound then
          some (state.moveProducer producerId (.sleep round))
        else
          some (state.moveProducer producerId (.round (round + 1) 0))
      else
        some (state.moveProducer producerId .ended)
  | .write round i msg nanoTimeWriteBeg =>
      (callbacks.write state.channel msg).map fun channel =>
        { state.moveProducer producerId
            (.written round i msg nanoTimeWriteBeg) with
          channel := channel }
  | .written round i msg nanoTimeWriteBeg =>
      some (state.moveProducer producerId
        (.storeBegin round i msg nanoTimeWriteBeg state.clock))
  | .storeBegin round i msg nanoTimeWriteBeg nanoTimeWriteEnd =>
      match state.handle.storeRecord actionWriteBegin msg
          { action := actionWriteBegin, id := msg
            nsec := nanoTimeWriteBeg } with
      | .ok handle =>
          some { state.moveProducer producerId
              (.storeEnd round i msg nanoTimeWriteEnd) with
            handle := handle }
      | .error exception =>
          some (state.moveProducer producerId (.died exception))
  | .storeEnd round i msg nanoTimeWriteEnd =>
      match state.handle.storeRecord actionWriteEnd msg
          { action := actionWriteEnd, id := msg
            nsec := nanoTimeWriteEnd } with
      | .ok handle =>
          some { state.moveProducer producerId (.round round (i + 1)) with
            handle := handle }
      | .error exception =>
          some (state.moveProducer producerId (.died exception))
  | .sleep round =>
      some (state.moveProducer producerId (.round (round + 1) 0))
  | .ended => none
  | .died _ => none

/-- A step of a consumer. -/
def consumerStep (callbacks : Callbacks Channel)
    (state : State Channel producers consumers)
    (consumerId : Fin consumers) :
    Option (State Channel producers consumers) :=
  let consumer := state.consumer consumerId
  match consumer.point with
  | .created => none
  | .read =>
      (callbacks.read state.channel).map fun received =>
        { state with
          channel := received.2
          consumer := Function.update state.consumer consumerId
            { consumer with
              point := .received received.1
              taken := received.1 :: consumer.taken } }
  | .received msg =>
      if msg = -1 then
        some (state.moveConsumer consumerId .ended)
      else
        some (state.moveConsumer consumerId (.store msg state.clock))
  | .store msg nanoTime =>
      match state.handle.storeRecord actionRead msg
          { action := actionRead, id := msg, nsec := nanoTime } with
      | .ok handle =>
          some { state with
            handle := handle
            consumer := Function.update state.consumer consumerId
              { consumer with
                point := .read
                totalRead := toInt32 (consumer.totalRead + 1) } }
      | .error exception =>
          some (state.moveConsumer consumerId (.died exception))
  | .ended => none
  | .died _ => none

/-- The read callback throws `InterruptedException` and the consumer goes
round its loop. -/
def interruptStep (state : State Channel producers consumers)
    (consumerId : Fin consumers) :
    Option (State Channel producers consumers) :=
  if (state.consumer consumerId).point = .read then some state else none

/-- One atomic step at a time no earlier than the last one. -/
def step (callbacks : Callbacks Channel) (config : LatencyBenchmarkConfig)
    (state : State Channel producers consumers)
    (action : Action producers consumers) :
    Option (State Channel producers consumers) :=
  if state.clock ≤ action.time then
    let now := { state with clock := action.time }
    match action.actor with
    | .main => mainStep callbacks now
    | .producer producerId => producerStep callbacks config now producerId
    | .consumer consumerId => consumerStep callbacks now consumerId
    | .interrupt consumerId => interruptStep now consumerId
  else
    none

/-- The state in which `run` has prepared its threads and started none. -/
def start (producers consumers : Nat) (handle : LatencyBenchmarkHandle)
    (channel : Channel) (clock : Int) :
    State Channel producers consumers where
  handle := handle
  channel := channel
  clock := clock
  main := .startConsumers 0
  producer := fun _ => .created
  consumer := fun _ => ⟨.created, 0, []⟩

/-- The constructor returned and `run` was called. -/
def Initial (config : LatencyBenchmarkConfig) (channel : Channel)
    (state : State Channel producers consumers) : Prop :=
  ∃ handle clock, newHandle config = .ok handle ∧
    state = start producers consumers handle channel clock

/-- The benchmark with the threads its configuration asks for. -/
def system (callbacks : Callbacks Channel) (channel : Channel)
    (config : LatencyBenchmarkConfig) :
    TransitionSystem
      (State Channel config.producer.toNat config.consumer.toNat)
      (Action config.producer.toNat config.consumer.toNat) where
  initial := Initial config channel
  step := step callbacks config

/-- What `genReport` writes: the record dump and the latency report. -/
def genReport (handle : LatencyBenchmarkHandle)
    (config : LatencyBenchmarkConfig) :
    Except JavaException (List String × List String) := do
  let records ← handle.genTimestampRecordsReport
  let latency ← handle.genLatencyReport
    [(actionWriteBegin, actionWriteEnd), (actionWriteBegin, actionRead)]
    config
  return (records, latency)

end ThreadTrans

end LatencyBenchmark
