import LatencyBenchmark.ByteFrames
import LatencyBenchmark.TransitionSystem
import Mathlib.Logic.Function.Basic

/-!
# Pointers through a pipe and through a socketpair

`benchmark_pipe.c` and `benchmark_unix_socketpair.c` pass messages as the
eight bytes of a pointer.  Writers call `pipe_write` or `socketpair_write`,
which write the bytes while they hold a spinlock; one reader calls
`pipe_read` or `socketpair_read`, which read until a call returns exactly
eight bytes.  The two programs differ only in the descriptor: how many bytes
a system call may move at once.

Every system call and every lock operation is one step, and the threads
interleave in any order.
-/

namespace LatencyBenchmark

namespace PointerTransport

/-- A `void *`. -/
abbrev Pointer :=
  BitVec (8 * 8)

/-- The `sizeof(void *)` bytes of a pointer. -/
def pointerCodec : FrameCodec Pointer UInt8 :=
  leCodec 8 (Nat.succ_pos 7)

/-- What the system calls on a descriptor may do while `stored` bytes wait to
be read.  A blocking `write` with `rest` bytes to go may append `count` of
them at once, and a non-blocking `read` of eight bytes may return `count`
bytes, where 0 stands for the result -1. -/
structure Medium where
  Accepts (stored rest count : Nat) : Prop
  Delivers (stored count : Nat) : Prop
  [accepts_decidable : ∀ stored rest count,
    Decidable (Accepts stored rest count)]
  [delivers_decidable : ∀ stored count, Decidable (Delivers stored count)]
  delivers_le : ∀ {stored count}, Delivers stored count → count ≤ stored

attribute [instance] Medium.accepts_decidable Medium.delivers_decidable

/-- How many bytes a `read` may return: all that are there, up to eight. -/
def PipeDelivers (stored count : Nat) : Prop :=
  count = min 8 stored

theorem PipeDelivers.le {stored count : Nat}
    (delivers : PipeDelivers stored count) : count ≤ stored :=
  delivers.trans_le (Nat.min_le_right 8 stored)

instance (stored count : Nat) : Decidable (PipeDelivers stored count) :=
  inferInstanceAs (Decidable (_ = _))

/-- How many bytes a `read` may return: any number of those that are there,
up to eight, and none only when there are none. -/
def SocketDelivers (stored count : Nat) : Prop :=
  count ≤ min 8 stored ∧ (count = 0 → stored = 0)

theorem SocketDelivers.le {stored count : Nat}
    (delivers : SocketDelivers stored count) : count ≤ stored :=
  delivers.1.trans (Nat.min_le_right 8 stored)

instance (stored count : Nat) : Decidable (SocketDelivers stored count) :=
  inferInstanceAs (Decidable (_ ∧ _))

/-- A pipe: eight bytes are written at once, as soon as there is room for
them. -/
def pipe (capacity : Nat) : Medium where
  Accepts := fun stored rest count => count = rest ∧ stored + rest ≤ capacity
  Delivers := PipeDelivers
  delivers_le := PipeDelivers.le

/-- A `SOCK_STREAM` socket: bytes are written contiguously, in any number of
pieces. -/
def socketpair : Medium where
  Accepts := fun _ rest count => 0 < count ∧ count ≤ rest
  Delivers := SocketDelivers
  delivers_le := SocketDelivers.le

/-- Who calls the write function: a producer, or the main thread from
`producer_complete_cb`. -/
inductive Writer (producers : Nat) where
  | producer (producerId : Fin producers)
  | main
  deriving DecidableEq, Repr

/-- Program points of `pipe_write` and `socketpair_write`. -/
inductive WriterPoint where
  /-- Between two calls. -/
  | idle
  /-- Before `muggle_spinlock_lock`. -/
  | lock (data : Pointer)
  /-- In `write`, with the bytes it has not appended yet. -/
  | write (data : Pointer) (rest : List UInt8)
  /-- Before `muggle_spinlock_unlock`. -/
  | unlock
  /-- The thread makes no more calls. -/
  | finished
  deriving DecidableEq, Repr

/-- Program points of `pipe_read` and `socketpair_read`. -/
inductive ReaderPoint where
  /-- Between two calls. -/
  | idle
  /-- At the `read` of the loop, with the local variable `data`. -/
  | read (data : Pointer)
  deriving DecidableEq, Repr

/-- `called`, `written` and `returned` are history variables, oldest entry
first: the arguments of each writer's calls, the writes in the order in which
they completed, and the results of the read function.  Writes complete in
lock order, because each is made under the lock. -/
structure State (producers : Nat) where
  stream : List UInt8
  locked : Bool
  writer : Writer producers → WriterPoint
  reader : ReaderPoint
  called : Writer producers → List Pointer
  written : List (Writer producers × Pointer)
  returned : List Pointer

inductive Action (producers : Nat) where
  /-- A producer calls the write function. -/
  | call (producerId : Fin producers) (data : Pointer)
  /-- A producer finishes. -/
  | finish (producerId : Fin producers)
  /-- The main thread runs `producer_complete_cb`. -/
  | producerCompleteCb
  | lock (writer : Writer producers)
  /-- A `write` appends bytes. -/
  | append (writer : Writer producers) (count : Nat)
  | unlock (writer : Writer producers)
  /-- The reader calls the read function. -/
  | callRead
  /-- A `read` returns bytes. -/
  | read (count : Nat)
  deriving DecidableEq, Repr

variable {producers : Nat}

def State.moveWriter (state : State producers) (writer : Writer producers)
    (point : WriterPoint) : State producers :=
  { state with writer := Function.update state.writer writer point }

/-- A call of the write function begins. -/
def State.callWrite (state : State producers) (writer : Writer producers)
    (data : Pointer) : State producers :=
  { state.moveWriter writer (.lock data) with
    called := Function.update state.called writer
      (state.called writer ++ [data]) }

/-- Where a writer is after a call: `producer_complete_cb` runs only once. -/
def Writer.afterCall : Writer producers → WriterPoint
  | .producer _ => .idle
  | .main => .finished

/-- `muggle_spinlock_lock`, which waits while the lock is held. -/
def lockStep (state : State producers) (writer : Writer producers) :
    Option (State producers) :=
  match state.writer writer with
  | .lock data =>
      if state.locked then
        none
      else
        some { state.moveWriter writer
            (.write data (pointerCodec.encode data)) with
          locked := true }
  | .idle | .write _ _ | .unlock | .finished => none

/-- `write(fd, &data, sizeof(void *))` appends `count` bytes. -/
def appendStep (medium : Medium) (state : State producers)
    (writer : Writer producers) (count : Nat) : Option (State producers) :=
  match state.writer writer with
  | .write data rest =>
      if medium.Accepts state.stream.length rest.length count then
        if rest.length ≤ count then
          some { state.moveWriter writer .unlock with
            stream := state.stream ++ rest
            written := state.written ++ [(writer, data)] }
        else
          some { state.moveWriter writer (.write data (rest.drop count)) with
            stream := state.stream ++ rest.take count }
      else
        none
  | .idle | .lock _ | .unlock | .finished => none

/-- `muggle_spinlock_unlock` and the return. -/
def unlockStep (state : State producers) (writer : Writer producers) :
    Option (State producers) :=
  if state.writer writer = .unlock then
    some { state.moveWriter writer writer.afterCall with locked := false }
  else
    none

/-- `read(fd, &data, sizeof(void *))` returns `count` bytes, which overwrite
the front of `data`.  The loop ends when there are eight of them. -/
def readStep (medium : Medium) (state : State producers) (count : Nat) :
    Option (State producers) :=
  match state.reader with
  | .read data =>
      if medium.Delivers state.stream.length count then
        let bytes := state.stream.take count
        let data := pointerCodec.decode
          (bytes ++ (pointerCodec.encode data).drop bytes.length)
        if bytes.length = 8 then
          some { state with
            stream := state.stream.drop count
            reader := .idle
            returned := state.returned ++ [data] }
        else
          some { state with
            stream := state.stream.drop count
            reader := .read data }
      else
        none
  | .idle => none

/-- One atomic step.  `endMsg` is the address of `end_msg`. -/
def step (medium : Medium) (endMsg : Pointer) (state : State producers) :
    Action producers → Option (State producers)
  | .call producerId data =>
      if state.writer (.producer producerId) = .idle then
        some (state.callWrite (.producer producerId) data)
      else
        none
  | .finish producerId =>
      if state.writer (.producer producerId) = .idle then
        some (state.moveWriter (.producer producerId) .finished)
      else
        none
  | .producerCompleteCb =>
      if state.writer .main = .idle ∧
          ∀ producerId, state.writer (.producer producerId) = .finished then
        some (state.callWrite .main endMsg)
      else
        none
  | .lock writer => lockStep state writer
  | .append writer count => appendStep medium state writer count
  | .unlock writer => unlockStep state writer
  | .callRead =>
      if state.reader = .idle then
        some { state with reader := .read 0 }
      else
        none
  | .read count => readStep medium state count

/-- The state in which the threads of a benchmark start. -/
def start (producers : Nat) : State producers where
  stream := []
  locked := false
  writer := fun _ => .idle
  reader := .idle
  called := fun _ => []
  written := []
  returned := []

/-- Any number of producers, the main thread and one reader over a
descriptor. -/
def transport (medium : Medium) (producers : Nat) (endMsg : Pointer) :
    TransitionSystem (State producers) (Action producers) where
  initial := fun state => state = start producers
  step := step medium endMsg

/-- `pipe_write`, `pipe_read` and `producer_complete_cb` of
`benchmark_pipe.c`. -/
def benchmarkPipe (capacity producers : Nat) (endMsg : Pointer) :=
  transport (pipe capacity) producers endMsg

/-- `socketpair_write`, `socketpair_read` and `producer_complete_cb` of
`benchmark_unix_socketpair.c`. -/
def benchmarkSocketpair (producers : Nat) (endMsg : Pointer) :=
  transport socketpair producers endMsg

end PointerTransport

end LatencyBenchmark
