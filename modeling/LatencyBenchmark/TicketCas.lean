import LatencyBenchmark.MachineInteger
import LatencyBenchmark.ThreadFamily
import LatencyBenchmark.TransitionSystem

/-!
# Ticketed publication by compare-exchange

The `CAS` benchmarks of `MuggleAtomicFixture`, `StdAtomicFixture` and
`ThreadTransWriteFixture` share one loop body.  A thread draws a ticket from
`next` with `fetch_add`, the ring fixture then stores into the slot of its
ticket, and a compare-exchange loop moves `cursor` from the ticket to its
successor.

The three fixtures differ in the store between the ticket and the loop, so
the body is written once over that store.  Every atomic access is one step,
the interleaving is sequentially consistent, and whether a weak exchange
fails spuriously is part of the action.
-/

namespace LatencyBenchmark

namespace TicketCas

/-- Result of a compare-exchange: its return value and what it leaves in the
target and in `*expected`. -/
structure ExchangeResult where
  success : Bool
  target : Int
  expected : Int
  deriving DecidableEq, Repr

/-- `cmp_exch_weak`.  It stores `desired` and returns true only when the
target equals `*expected`; it may also fail when they are equal, and every
failure writes the current value of the target into `*expected`. -/
def cmpExchWeak (spurious : Bool) (target expected desired : Int) :
    ExchangeResult :=
  if target = expected ∧ spurious = false then
    ⟨true, desired, expected⟩
  else
    ⟨false, target, target⟩

/-- What the body of a `CAS` benchmark stores between drawing its ticket and
entering the exchange loop, if anything. -/
structure Fixture (Memory : Type*) where
  slotWrite : Option (Int → Memory → Memory)

/-- `MuggleAtomicFixture` stores nothing besides its two counters. -/
def MuggleAtomicFixture : Fixture Unit where
  slotWrite := none

/-- `StdAtomicFixture` stores nothing besides its two counters. -/
def StdAtomicFixture : Fixture Unit where
  slotWrite := none

/-- Program points of one thread in the body of `for (auto _ : state)`. -/
inductive ProgramPoint where
  /-- Before `pos = fetch_add(next, 1)`, or past the loop over `state`. -/
  | fetchAdd
  /-- Before the slot of ticket `pos` is written. -/
  | slotWrite (pos : Int)
  /-- Before the exchange in the loop condition. -/
  | exchange (pos curPos : Int)
  /-- In the loop body, before `yield` and `cur_pos = pos`. -/
  | yield (pos : Int)
  deriving DecidableEq, Repr

/-- The ticket a thread has drawn and whose loop it has not left. -/
def ProgramPoint.ticket : ProgramPoint → Option Int
  | .fetchAdd => none
  | .slotWrite pos => some pos
  | .exchange pos _ => some pos
  | .yield pos => some pos

/-- One benchmark thread: its program point and how many iterations of
`for (auto _ : state)` it has not begun. -/
structure BenchmarkThread where
  point : ProgramPoint
  remaining : Nat
  deriving DecidableEq, Repr

/-- A thread is finished once it has run all its iterations. -/
def BenchmarkThread.Finished (thread : BenchmarkThread) : Prop :=
  thread.point = .fetchAdd ∧ thread.remaining = 0

/-- Global state.  The last three fields are history variables: no step reads
them.  With the thread responsible, they list the tickets handed out, the
tickets whose loop was left, and for every exchange that succeeded the values
of the cursor before and after it. -/
structure State (threads : Nat) (Memory : Type*) where
  next : Int
  cursor : Int
  memory : Memory
  thread : Fin threads → BenchmarkThread
  handedOut : List (Fin threads × Int)
  left : List (Fin threads × Int)
  moved : List (Fin threads × Int × Int)

/-- The atomic steps of thread `index`. -/
inductive Action (threads : Nat) where
  | fetchAdd (index : Fin threads)
  | slotWrite (index : Fin threads)
  | exchange (index : Fin threads) (spurious : Bool)
  | yield (index : Fin threads)
  deriving DecidableEq, Repr

variable {threads : Nat} {Memory : Type*}

/-- Move one thread to another program point. -/
def State.moveTo (state : State threads Memory) (index : Fin threads)
    (point : ProgramPoint) : State threads Memory :=
  { state with
    thread := Function.update state.thread index
      { state.thread index with point := point } }

/-- `pos = fetch_add(&next, 1)` at the start of an iteration. -/
def State.fetchAdd (fixture : Fixture Memory) (state : State threads Memory)
    (index : Fin threads) : State threads Memory :=
  let pos := state.next
  { state with
    next := toInt32 (pos + 1)
    thread := Function.update state.thread index
      { point := match fixture.slotWrite with
          | some _ => .slotWrite pos
          | none => .exchange pos pos
        remaining := (state.thread index).remaining - 1 }
    handedOut := (index, pos) :: state.handedOut }

/-- The exchange in the loop condition
`!cmp_exch_weak(&cursor, &cur_pos, pos + 1) && cur_pos != pos`, followed by
the branch it decides. -/
def State.exchange (state : State threads Memory) (index : Fin threads)
    (pos curPos : Int) (spurious : Bool) : State threads Memory :=
  let result := cmpExchWeak spurious state.cursor curPos (toInt32 (pos + 1))
  let stays := !result.success && result.expected != pos
  { state with
    cursor := result.target
    thread := Function.update state.thread index
      { state.thread index with
        point := if stays then .yield pos else .fetchAdd }
    left := if stays then state.left else (index, pos) :: state.left
    moved :=
      if result.success then
        (index, state.cursor, result.target) :: state.moved
      else
        state.moved }

/-- One atomic step of the thread named by the action. -/
def step (fixture : Fixture Memory) (state : State threads Memory) :
    Action threads → Option (State threads Memory)
  | .fetchAdd index =>
      match (state.thread index).point with
      | .fetchAdd =>
          if 0 < (state.thread index).remaining then
            some (state.fetchAdd fixture index)
          else
            none
      | _ => none
  | .slotWrite index =>
      match (state.thread index).point, fixture.slotWrite with
      | .slotWrite pos, some write =>
          some { state.moveTo index (.exchange pos pos) with
            memory := write pos state.memory }
      | _, _ => none
  | .exchange index spurious =>
      match (state.thread index).point with
      | .exchange pos curPos =>
          some (state.exchange index pos curPos spurious)
      | _ => none
  | .yield index =>
      match (state.thread index).point with
      | .yield pos => some (state.moveTo index (.exchange pos pos))
      | _ => none

/-- Both counters start at zero and thread `index` runs `iterations index`
times through the loop body. -/
def start (iterations : Fin threads → Nat) (memory : Memory) :
    State threads Memory where
  next := 0
  cursor := 0
  memory := memory
  thread := fun index => ⟨.fetchAdd, iterations index⟩
  handedOut := []
  left := []
  moved := []

/-- The `CAS` benchmark of a fixture. -/
def system (fixture : Fixture Memory) (iterations : Fin threads → Nat)
    (memory : Memory) :
    TransitionSystem (State threads Memory) (Action threads) where
  initial := fun state => state = start iterations memory
  step := step fixture

/-- A compare-exchange that fails although the cursor equals `*expected`. -/
def SpuriousFailure (state : State threads Memory) :
    Action threads → Prop
  | .exchange index true =>
      ∃ pos, (state.thread index).point = .exchange pos state.cursor
  | _ => False

/-- The step is no spurious failure of the compare-exchange. -/
def ExchangesHonestly (state : State threads Memory)
    (action : Action threads) : Prop :=
  ¬ SpuriousFailure state action

theorem exchangesHonestly_of_ne {action : Action threads}
    (honest : ∀ index, action ≠ .exchange index true)
    (state : State threads Memory) : ExchangesHonestly state action := by
  rintro failure
  unfold SpuriousFailure at failure
  split at failure
  · next index => exact honest index rfl
  · exact failure

end TicketCas

end LatencyBenchmark
