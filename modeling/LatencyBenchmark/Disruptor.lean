import LatencyBenchmark.ThreadTrans

/-!
# The Disruptor benchmark

The thread transfer benchmark runs without consumers of its own: the events
go to handlers that the Disruptor library registered.  Every handler receives
every published event once, in the order of publication and after it, and a
publication waits while the ring is full for the slowest handler.  When
`benchmark.run()` has returned, `run` sleeps and calls `genReport`.

A sleep is a step like any other and orders nothing.
-/

namespace LatencyBenchmark

namespace Disruptor

/-- The ring buffer: the ids of the published events in sequence order, and
how many of them each handler has handled. -/
structure RingBuffer (handlers : Nat) where
  published : List Int
  handled : Fin handlers → Nat

/-- `ringBuffer.next()`, the assignment of the id and `publish`. -/
def RingBuffer.publish {handlers : Nat} (capacity : Nat)
    (ring : RingBuffer handlers) (msg : Int) : Option (RingBuffer handlers) :=
  if ∀ handler, ring.published.length < ring.handled handler + capacity then
    some { ring with published := ring.published ++ [msg] }
  else
    none

/-- `DisruptorWrite`; the read and completed callbacks are null, and there is
no consumer to call the former. -/
def callbacks (capacity handlers : Nat) :
    ThreadTrans.Callbacks (RingBuffer handlers) where
  write := RingBuffer.publish capacity
  read := fun _ => none
  completed := none

/-- Program points of a handler. -/
inductive HandlerPoint where
  /-- Waiting for its next event. -/
  | waiting
  /-- In `onEvent`, before the record is stored. -/
  | store (msg nanoTime : Int)
  | died (exception : JavaException)
  deriving DecidableEq, Repr

/-- Program points of `LatencyBenchmarkDisruptor.run` in one case. -/
inductive MainPoint where
  /-- In `benchmark.run()`. -/
  | run
  /-- In `Thread.sleep(1000)`. -/
  | sleep
  /-- Calling `benchmark.genReport`. -/
  | genReport
  deriving DecidableEq, Repr

structure State (producers handlers : Nat) where
  trans : ThreadTrans.State (RingBuffer handlers) producers 0
  handler : Fin handlers → HandlerPoint
  main : MainPoint

inductive Action (producers handlers : Nat) where
  | trans (action : ThreadTrans.Action producers 0)
  | handler (handler : Fin handlers) (time : Int)
  | main
  deriving DecidableEq, Repr

variable {producers handlers : Nat}

/-- A step of a handler: receive the next event and read `nanoTime`, or store
the record and go on. -/
def handlerStep (state : State producers handlers) (handler : Fin handlers)
    (time : Int) : Option (State producers handlers) :=
  let ring := state.trans.channel
  let done : ThreadTrans.State (RingBuffer handlers) producers 0 :=
    { state.trans with
      channel := { ring with
        handled := Function.update ring.handled handler
          (ring.handled handler + 1) } }
  match state.handler handler with
  | .waiting =>
      match ring.published[ring.handled handler]? with
      | none => none
      | some msg =>
          if msg = -1 then
            some { state with trans := done }
          else
            some { state with
              handler :=
                Function.update state.handler handler (.store msg time) }
  | .store msg nanoTime =>
      match state.trans.handle.storeRecord ThreadTrans.actionRead msg
          { action := ThreadTrans.actionRead, id := msg
            nsec := nanoTime } with
      | .ok handle =>
          some { state with
            trans := { done with handle := handle }
            handler := Function.update state.handler handler .waiting }
      | .error exception =>
          some { state with
            handler :=
              Function.update state.handler handler (.died exception) }
  | .died _ => none

/-- A step of `run`. -/
def mainStep (state : State producers handlers) :
    Option (State producers handlers) :=
  match state.main with
  | .run =>
      match state.trans.main with
      | .returned _ => some { state with main := .sleep }
      | _ => none
  | .sleep => some { state with main := .genReport }
  | .genReport => none

def step (config : LatencyBenchmarkConfig)
    (state : State producers handlers) :
    Action producers handlers → Option (State producers handlers)
  | .trans action =>
      (ThreadTrans.step (callbacks config.capacity.toNat handlers) config
        state.trans action).map fun trans => { state with trans := trans }
  | .handler handler time =>
      if state.trans.clock ≤ time then
        handlerStep
          { state with trans := { state.trans with clock := time } } handler
          time
      else
        none
  | .main => mainStep state

/-- The state in which the handlers wait and `benchmark.run()` begins. -/
def start (producers handlers : Nat) (handle : LatencyBenchmarkHandle)
    (clock : Int) : State producers handlers where
  trans := ThreadTrans.start producers 0 handle ⟨[], fun _ => 0⟩ clock
  handler := fun _ => .waiting
  main := .run

/-- One case of the benchmark, with `consumerNum` handlers. -/
def system (config : LatencyBenchmarkConfig) (consumerNum : Nat) :
    TransitionSystem (State config.producer.toNat consumerNum)
      (Action config.producer.toNat consumerNum) where
  initial := fun state => ∃ handle clock,
    ThreadTrans.newHandle config = .ok handle ∧
      state = start config.producer.toNat consumerNum handle clock
  step := step config

/-- Every handler has handled every published event. -/
def AllHandled (state : State producers handlers) : Prop :=
  ∀ handler, state.trans.channel.handled handler =
    state.trans.channel.published.length

/-- Every slot of the `ACTION_READ` array holds a record. -/
def ReadSlotsFilled (state : State producers handlers) : Prop :=
  ∀ records, state.trans.handle.getActionTimestampRecords
    ThreadTrans.actionRead = some records → ∀ slot ∈ records, slot ≠ none

/-- Whenever `genReport` is called, all events are handled and recorded. -/
def ReportsAfterHandling (config : LatencyBenchmarkConfig)
    (consumerNum : Nat) : Prop :=
  ∀ state, (system config consumerNum).Reachable state →
    state.main = .genReport → AllHandled state ∧ ReadSlotsFilled state

end Disruptor

end LatencyBenchmark
