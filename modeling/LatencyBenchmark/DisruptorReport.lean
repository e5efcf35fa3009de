import LatencyBenchmark.Disruptor
import LatencyBenchmark.ProducerProgress
import LatencyBenchmark.ThreadTransWork

/-!
# The report of the Disruptor benchmark does not wait

Nothing orders the handlers before `genReport`: `run` has no consumers to
join and no completed callback, and a sleep waits for no handler.  As soon as
one message exists there is an interleaving in which the last event published
is still unhandled when the report is written.

The interleaving keeps every handler one event behind, except while a
producer waits to publish.
-/

namespace LatencyBenchmark

namespace Disruptor

open ThreadTrans (PhaseInvariant ProducerPoint ProducerMove recordedActions)

variable {config : LatencyBenchmarkConfig} {consumerNum : Nat}
variable {Channel : Type} {producers consumers handlers : Nat}

/-! ## Moves -/

/-- The branches of `handlerStep`. -/
inductive HandlerMove (state : State producers handlers)
    (handler : Fin handlers) (time : Int) : State producers handlers → Prop
  | skip {msg : Int} (point : state.handler handler = .waiting)
      (event : state.trans.channel.published[
        state.trans.channel.handled handler]? = some msg)
      (marker : msg = -1) :
      HandlerMove state handler time
        { state with trans := { state.trans with
            channel := { state.trans.channel with
              handled := Function.update state.trans.channel.handled handler
                (state.trans.channel.handled handler + 1) } } }
  | receive {msg : Int} (point : state.handler handler = .waiting)
      (event : state.trans.channel.published[
        state.trans.channel.handled handler]? = some msg) :
      HandlerMove state handler time
        { state with
          handler := Function.update state.handler handler
            (.store msg time) }
  | store {msg nanoTime : Int} {handle : LatencyBenchmarkHandle}
      (point : state.handler handler = .store msg nanoTime)
      (stored : state.trans.handle.storeRecord ThreadTrans.actionRead msg
        { action := ThreadTrans.actionRead, id := msg
          nsec := nanoTime } = .ok handle) :
      HandlerMove state handler time
        { state with
          trans := { state.trans with
            handle := handle
            channel := { state.trans.channel with
              handled := Function.update state.trans.channel.handled handler
                (state.trans.channel.handled handler + 1) } }
          handler := Function.update state.handler handler .waiting }
  | storeFails {msg nanoTime : Int} {exception : JavaException}
      (point : state.handler handler = .store msg nanoTime)
      (failed : state.trans.handle.storeRecord ThreadTrans.actionRead msg
        { action := ThreadTrans.actionRead, id := msg
          nsec := nanoTime } = .error exception) :
      HandlerMove state handler time
        { state with
          handler := Function.update state.handler handler
            (.died exception) }

theorem HandlerMove.of_handlerStep {state next : State producers handlers}
    {handler : Fin handlers} {time : Int}
    (taken : handlerStep state handler time = some next) :
    HandlerMove state handler time next := by
  unfold handlerStep at taken
  cases point : state.handler handler with
  | waiting =>
      simp only [point] at taken
      split at taken
      · cases taken
      · next event =>
          split at taken
          · next marker =>
              cases taken
              exact .skip point event marker
          · cases taken
            exact .receive point event
  | store msg nanoTime =>
      simp only [point] at taken
      split at taken
      · next stored =>
          cases taken
          exact .store point stored
      · next failed =>
          cases taken
          exact .storeFails point failed
  | died exception =>
      simp only [point] at taken
      cases taken

/-- The state seen by a step at some time. -/
def State.atTime (state : State producers handlers) (time : Int) :
    State producers handlers :=
  { state with trans := { state.trans with clock := time } }

/-- A step is a move of `benchmark.run()`, of a producer, of a handler or of
`run` itself. -/
theorem step_cases {state next : State producers handlers}
    {action : Action producers handlers}
    (taken : step config state action = some next) :
    (∃ time trans, ThreadTrans.MainMove
        (callbacks config.capacity.toNat handlers)
        (state.atTime time).trans trans ∧
      next = { state with trans := trans }) ∨
    (∃ time trans producerId, ThreadTrans.ProducerMove
        (callbacks config.capacity.toNat handlers) config
        (state.atTime time).trans producerId trans ∧
      next = { state with trans := trans }) ∨
    (∃ handler time, action = .handler handler time ∧
      HandlerMove (state.atTime time) handler time next) ∨
    (action = .main ∧ mainStep state = some next) := by
  cases action with
  | trans action =>
      obtain ⟨trans, moved, rfl⟩ := Option.map_eq_some_iff.mp taken
      rcases ThreadTrans.step_cases moved with move | ⟨producerId, move⟩ |
        ⟨consumerId, _⟩ | ⟨consumerId, _⟩
      · exact Or.inl ⟨action.time, trans, move, rfl⟩
      · exact Or.inr (Or.inl ⟨action.time, trans, producerId, move, rfl⟩)
      · exact consumerId.elim0
      · exact consumerId.elim0
  | handler handler time =>
      simp only [step] at taken
      split at taken
      · exact Or.inr (Or.inr (Or.inl
          ⟨handler, time, rfl, HandlerMove.of_handlerStep taken⟩))
      · cases taken
  | main => exact Or.inr (Or.inr (Or.inr ⟨rfl, taken⟩))

/-- The branches of `mainStep`. -/
theorem mainStep_cases {state next : State producers handlers}
    (taken : mainStep state = some next) :
    (state.main = .run ∧ (∃ total, state.trans.main = .returned total) ∧
      next = { state with main := .sleep }) ∨
    (state.main = .sleep ∧ next = { state with main := .genReport }) := by
  unfold mainStep at taken
  cases point : state.main with
  | run =>
      simp only [point] at taken
      split at taken
      · next total returned =>
          cases taken
          exact Or.inl ⟨rfl, ⟨total, returned⟩, rfl⟩
      · cases taken
  | sleep =>
      simp only [point] at taken
      cases taken
      exact Or.inr ⟨rfl, rfl⟩
  | genReport =>
      simp only [point] at taken
      cases taken

/-- `benchmark.run()` leaves records and events alone when there is no
completed callback; all it does to a producer is to start it. -/
theorem mainMove_frame
    {callbacks : ThreadTrans.Callbacks Channel}
    {state next : ThreadTrans.State Channel producers consumers}
    (phases : PhaseInvariant state) (noCallback : callbacks.completed = none)
    (move : ThreadTrans.MainMove callbacks state next) :
    next.handle = state.handle ∧ next.channel = state.channel ∧
      (∀ producerId, next.producer producerId = state.producer producerId ∨
        (state.producer producerId = .created ∧
          next.producer producerId = .round 0 0)) ∧
        ∀ total, state.main ≠ .returned total := by
  cases move with
  | @startProducer i point inside =>
      refine ⟨rfl, rfl, fun producerId => ?_, by simp [point]⟩
      by_cases same : producerId = ⟨i, inside⟩
      · subst same
        have created := (phases.producer_created ⟨i, inside⟩).mpr
          (by simp [point, ThreadTrans.MainPoint.ProducerStarted])
        exact Or.inr ⟨created, by simp [ThreadTrans.State.moveProducer]⟩
      · exact Or.inl (by simp [ThreadTrans.State.moveProducer, same])
  | complete point callback =>
      rw [noCallback] at callback
      cases callback
  | startConsumer point | startedConsumers point | wake point
  | startedProducers point | joinProducer point | joinedProducers point
  | completed point | joinConsumer point | joinedConsumers point =>
      exact ⟨rfl, rfl, fun _ => Or.inl rfl, by simp [point]⟩

/-! ## Messages in range -/

/-- The producer's message, if it has one, has an id below `count`. -/
def MessageIn (count : Nat) : ProducerPoint → Prop
  | .write _ _ msg _ | .written _ _ msg _ | .storeBegin _ _ msg _ _
  | .storeEnd _ _ msg _ => 0 ≤ msg ∧ msg < count
  | _ => True

/-- The handler is alive, not ahead of the ring, and what it stores is in
range. -/
def HandlerIn (count published handled : Nat) : HandlerPoint → Prop
  | .waiting => handled ≤ published
  | .store msg _ => handled < published ∧ 0 ≤ msg ∧ msg < count
  | .died _ => False

/-- How many messages there are, in `int` arithmetic. -/
def count (config : LatencyBenchmarkConfig) : Nat :=
  (ThreadTrans.recordCount config).toNat

/-- What the benchmark keeps over all its steps. -/
structure Invariant (config : LatencyBenchmarkConfig)
    (state : State producers handlers) : Prop where
  phases : PhaseInvariant state.trans
  allocated : state.trans.handle.Allocated recordedActions (count config)
  producer_in : ∀ producerId,
    MessageIn (count config) (state.trans.producer producerId)
  published_in : ∀ msg ∈ state.trans.channel.published,
    0 ≤ msg ∧ msg < count config
  handler_in : ∀ handler,
    HandlerIn (count config) state.trans.channel.published.length
      (state.trans.channel.handled handler) (state.handler handler)
  main_returned : state.main ≠ .run →
    ∃ total, state.trans.main = .returned total

/-- A producer keeps its messages in range and the arrays allocated. -/
theorem producerMove_in {callbacks : ThreadTrans.Callbacks Channel}
    {count : Nat}
    {state next : ThreadTrans.State Channel producers consumers}
    {producerId : Fin producers}
    (allocated : state.handle.Allocated recordedActions count)
    (inside : MessageIn count (state.producer producerId))
    (move : ProducerMove callbacks config state producerId next) :
    next.handle.Allocated recordedActions count ∧
      MessageIn count (next.producer producerId) ∧
      (next.channel = state.channel ∨ ∃ msg : Int, 0 ≤ msg ∧ msg < count ∧
        callbacks.write state.channel msg = some next.channel) := by
  have storing : ∀ action ∈ recordedActions, ∀ {msg nsec : Int}
      {handle : LatencyBenchmarkHandle}, 0 ≤ msg ∧ msg < count →
        state.handle.storeRecord action msg
          { action := action, id := msg, nsec := nsec } = .ok handle →
            handle.Allocated recordedActions count := by
    rintro action mem msg nsec handle ⟨nonneg, below⟩ stored
    lift msg to Nat using nonneg
    obtain ⟨filled, filledEq, kept, _⟩ := allocated.storeRecord mem
      (by omega) ⟨action, msg, 0, nsec⟩ rfl rfl
    cases Except.ok.inj (stored.symm.trans filledEq)
    exact kept
  cases move with
  | fetch point inRounds inRecords range =>
      refine ⟨allocated, ?_, Or.inl rfl⟩
      rw [allocated.recordCount_eq] at range
      simp only [ThreadTrans.State.moveProducer, Function.update_self]
      exact range
  | write point written =>
      rw [point] at inside
      refine ⟨allocated, ?_, Or.inr ⟨_, inside.1, inside.2, written⟩⟩
      simp only [ThreadTrans.State.moveProducer, Function.update_self]
      exact inside
  | readEnd point =>
      rw [point] at inside
      refine ⟨allocated, ?_, Or.inl rfl⟩
      simp only [ThreadTrans.State.moveProducer, Function.update_self]
      exact inside
  | storeBegin point stored =>
      rw [point] at inside
      refine ⟨storing _ (by decide) inside stored, ?_, Or.inl rfl⟩
      simp only [ThreadTrans.State.moveProducer, Function.update_self]
      exact inside
  | storeEnd point stored =>
      rw [point] at inside
      refine ⟨storing _ (by decide) inside stored, ?_, Or.inl rfl⟩
      simp [ThreadTrans.State.moveProducer, MessageIn]
  | fetchOutside point | pause point | nextRound point | finish point
  | storeBeginFails point | storeEndFails point | wake point =>
      refine ⟨allocated, ?_, Or.inl rfl⟩
      simp [ThreadTrans.State.moveProducer, MessageIn]

/-- The frame of a producer's move: no other producer moves. -/
theorem producerMove_frame {callbacks : ThreadTrans.Callbacks Channel}
    {state next : ThreadTrans.State Channel producers consumers}
    {producerId : Fin producers}
    (move : ProducerMove callbacks config state producerId next) :
    next.main = state.main ∧ ∀ other, other ≠ producerId →
      next.producer other = state.producer other := by
  obtain ⟨point, handle, channel, rfl, _⟩ := move.frame
  exact ⟨rfl, fun other different => by
    simp [ThreadTrans.State.moveProducer, different]⟩

/-- A producer that waits to publish moves by publishing. -/
theorem producerMove_of_write {callbacks : ThreadTrans.Callbacks Channel}
    {state next : ThreadTrans.State Channel producers consumers}
    {producerId : Fin producers} {round i : Nat}
    {msg nanoTimeWriteBeg : Int}
    (move : ProducerMove callbacks config state producerId next)
    (writing : state.producer producerId =
      .write round i msg nanoTimeWriteBeg) :
    callbacks.write state.channel msg = some next.channel := by
  cases move with
  | write point written =>
      cases writing.symm.trans point
      exact written
  | fetch point | fetchOutside point | pause point | nextRound point
  | finish point | readEnd point | storeBegin point | storeBeginFails point
  | storeEnd point | storeEndFails point | wake point =>
      cases writing.symm.trans point

variable {state next : State producers handlers}

theorem publish_eq_some {capacity : Nat} {ring later : RingBuffer handlers}
    {msg : Int} (published : ring.publish capacity msg = some later) :
    later = { ring with published := ring.published ++ [msg] } := by
  unfold RingBuffer.publish at published
  split at published
  · exact (Option.some.inj published).symm
  · cases published

/-- A handler stays in range when more events are published. -/
theorem HandlerIn.mono {count published later handled : Nat}
    {point : HandlerPoint} (inside : HandlerIn count published handled point)
    (grows : published ≤ later) : HandlerIn count later handled point := by
  cases point with
  | waiting => exact le_trans inside grows
  | store msg nanoTime => exact ⟨lt_of_lt_of_le inside.1 grows, inside.2⟩
  | died exception => exact inside

theorem HandlerIn.handled_le {count published handled : Nat}
    {point : HandlerPoint}
    (inside : HandlerIn count published handled point) :
    handled ≤ published := by
  cases point with
  | waiting => exact inside
  | store msg nanoTime => exact le_of_lt inside.1
  | died exception => exact inside.elim

theorem Invariant.atTime (invariant : Invariant config state) (time : Int) :
    Invariant config (state.atTime time) :=
  ⟨invariant.phases.atTime time, invariant.allocated, invariant.producer_in,
    invariant.published_in, invariant.handler_in, invariant.main_returned⟩

/-- Every move of a handler keeps the invariant. -/
theorem Invariant.handlerMove {handler : Fin handlers} {time : Int}
    (invariant : Invariant config state)
    (move : HandlerMove state handler time next) : Invariant config next := by
  have inside := invariant.handler_in handler
  cases move with
  | @skip msg point event marker =>
      have range := invariant.published_in msg
        (List.mem_of_getElem? event)
      omega
  | @receive msg point event =>
      rw [point] at inside
      obtain ⟨before, _⟩ := List.getElem?_eq_some_iff.mp event
      have range := invariant.published_in msg
        (List.mem_of_getElem? event)
      refine ⟨invariant.phases, invariant.allocated, invariant.producer_in,
        invariant.published_in, ?_, invariant.main_returned⟩
      intro other
      by_cases same : other = handler
      · subst same
        simp only [Function.update_self]
        exact ⟨before, range⟩
      · simpa [same] using invariant.handler_in other
  | @store msg nanoTime handle point stored =>
      rw [point] at inside
      obtain ⟨before, nonneg, below⟩ := inside
      lift msg to Nat using nonneg
      obtain ⟨filled, filledEq, kept, _⟩ := invariant.allocated.storeRecord
        ThreadTrans.actionRead_mem (by omega)
          ⟨ThreadTrans.actionRead, msg, 0, nanoTime⟩ rfl rfl
      cases Except.ok.inj (stored.symm.trans filledEq)
      have phases := invariant.phases
      refine ⟨⟨phases.consumer_created, phases.producer_created,
        phases.producer_joined, phases.consumer_joined,
        phases.completions_le, phases.total_eq⟩, kept,
        invariant.producer_in, invariant.published_in, ?_,
        invariant.main_returned⟩
      intro other
      by_cases same : other = handler
      · subst same
        simp only [Function.update_self]
        exact before
      · simpa [same] using invariant.handler_in other
  | @storeFails msg nanoTime exception point failed =>
      rw [point] at inside
      obtain ⟨before, nonneg, below⟩ := inside
      lift msg to Nat using nonneg
      obtain ⟨filled, filledEq, _⟩ := invariant.allocated.storeRecord
        ThreadTrans.actionRead_mem (by omega)
          ⟨ThreadTrans.actionRead, msg, 0, nanoTime⟩ rfl rfl
      cases failed.symm.trans filledEq

/-- Every step keeps the invariant. -/
theorem Invariant.step {action : Action producers handlers}
    (invariant : Invariant config state)
    (taken : Disruptor.step config state action = some next) :
    Invariant config next := by
  rcases step_cases taken with ⟨time, trans, move, rfl⟩ |
    ⟨time, trans, producerId, move, rfl⟩ | ⟨handler, time, _, move⟩ |
      ⟨_, moved⟩
  · have now := invariant.atTime time
    obtain ⟨handle, channel, producer, notReturned⟩ :=
      mainMove_frame now.phases rfl move
    refine ⟨now.phases.mainMove move, handle ▸ now.allocated, ?_,
      channel ▸ now.published_in, channel ▸ now.handler_in, ?_⟩
    · intro producerId
      rcases producer producerId with same | ⟨_, started⟩
      · exact same ▸ now.producer_in producerId
      · rw [started]
        trivial
    · intro finished
      obtain ⟨total, returned⟩ := now.main_returned finished
      exact absurd returned (notReturned total)
  · have now := invariant.atTime time
    obtain ⟨allocated, inside, channel⟩ :=
      producerMove_in now.allocated (now.producer_in producerId) move
    obtain ⟨main, others⟩ := producerMove_frame move
    refine ⟨now.phases.producerMove move, allocated, ?_, ?_, ?_, ?_⟩
    · intro other
      by_cases same : other = producerId
      · exact same ▸ inside
      · rw [others other same]
        exact now.producer_in other
    · rcases channel with same | ⟨msg, nonneg, below, written⟩
      · exact same ▸ now.published_in
      · intro published mem
        rw [publish_eq_some written, List.mem_append, List.mem_singleton]
          at mem
        rcases mem with earlier | rfl
        · exact now.published_in published earlier
        · exact ⟨nonneg, below⟩
    · rcases channel with same | ⟨msg, _, _, written⟩
      · exact same ▸ now.handler_in
      · intro handler
        rw [publish_eq_some written]
        apply (now.handler_in handler).mono
        rw [List.length_append]
        exact Nat.le_add_right _ _
    · intro finished
      rw [main]
      exact now.main_returned finished
  · exact (invariant.atTime time).handlerMove move
  · have returned : ∃ total, state.trans.main = .returned total := by
      rcases mainStep_cases moved with ⟨_, returned, _⟩ | ⟨sleeping, _⟩
      · exact returned
      · exact invariant.main_returned (by simp [sleeping])
    rcases mainStep_cases moved with ⟨_, _, rfl⟩ | ⟨_, rfl⟩ <;>
      exact ⟨invariant.phases, invariant.allocated, invariant.producer_in,
        invariant.published_in, invariant.handler_in, fun _ => returned⟩

theorem invariant_of_reachable
    {state : State config.producer.toNat consumerNum}
    (reachable : (system config consumerNum).Reachable state) :
    Invariant config state := by
  apply reachable.invariant
  · rintro initial ⟨handle, clock, constructed, rfl⟩
    refine ⟨ThreadTrans.phaseInvariant_start handle _ clock,
      (ThreadTrans.allocated_newHandle constructed).1, fun _ => trivial,
      ?_, ?_, ?_⟩
    · simp [start, ThreadTrans.start]
    · exact fun _ => le_refl 0
    · intro finished
      exact absurd rfl finished
  · intro before action after _ taken invariant
    exact invariant.step taken

/-- Without a message nothing is published, so nothing is left to handle. -/
theorem reportsAfterHandling_of_nonpos
    (none : ThreadTrans.recordCount config ≤ 0) :
    ReportsAfterHandling config consumerNum := by
  intro state reachable _
  have invariant := invariant_of_reachable reachable
  have zero : count config = 0 := by
    unfold count
    omega
  have empty : state.trans.channel.published = [] := by
    rw [List.eq_nil_iff_forall_not_mem]
    intro msg mem
    have range := invariant.published_in msg mem
    omega
  constructor
  · intro handler
    have handled := (invariant.handler_in handler).handled_le
    simp only [empty, List.length_nil] at handled ⊢
    omega
  · intro records present slot mem
    obtain ⟨allocated, same, length⟩ := invariant.allocated.arrays
      ThreadTrans.actionRead ThreadTrans.actionRead_mem
    cases Option.some.inj (present.symm.trans same)
    rw [List.eq_nil_of_length_eq_zero (length.trans zero)] at mem
    simp at mem

/-! ## An interleaving that keeps the handlers behind -/

/-- Some producer waits to publish. -/
def Writing (state : State producers handlers) : Prop :=
  ∃ producerId round i msg nanoTimeWriteBeg,
    state.trans.producer producerId = .write round i msg nanoTimeWriteBeg

/-- A handler steps only while another event follows or a producer waits to
publish one. -/
def KeepsBehind (state : State producers handlers) :
    Action producers handlers → Prop
  | .handler handler _ =>
      state.trans.channel.handled handler + 1 <
        state.trans.channel.published.length ∨ Writing state
  | _ => True

/-- Some event is unhandled by every handler. -/
def Behind (state : State producers handlers) : Prop :=
  Writing state ∨ state.trans.channel.published = [] ∨
    ∀ handler, state.trans.channel.handled handler <
      state.trans.channel.published.length

theorem Behind.step {action : Action producers handlers}
    (behind : Behind state) (invariant : Invariant config state)
    (keeps : KeepsBehind state action)
    (taken : Disruptor.step config state action = some next) :
    Behind next := by
  rcases step_cases taken with ⟨time, trans, move, rfl⟩ |
    ⟨time, trans, producerId, move, rfl⟩ | ⟨handler, time, rfl, move⟩ |
      ⟨_, moved⟩
  · obtain ⟨_, channel, producer, _⟩ :=
      mainMove_frame (invariant.atTime time).phases rfl move
    rcases behind with ⟨writer, round, i, msg, begun, point⟩ | behind
    · left
      refine ⟨writer, round, i, msg, begun, ?_⟩
      rcases producer writer with same | ⟨created, _⟩
      · exact same.trans point
      · rw [show state.trans.producer writer = .created from created] at point
        cases point
    · right
      simp only [channel]
      exact behind
  · obtain ⟨_, inside, channel⟩ := producerMove_in
      (invariant.atTime time).allocated
        ((invariant.atTime time).producer_in producerId) move
    obtain ⟨_, others⟩ := producerMove_frame move
    have publishes : ∀ msg, RingBuffer.publish config.capacity.toNat
        state.trans.channel msg = some trans.channel →
          Behind { state with trans := trans } := by
      intro msg written
      right
      right
      intro handler
      have handled := (invariant.handler_in handler).handled_le
      simp only [publish_eq_some written, List.length_append,
        List.length_singleton]
      omega
    rcases channel with same | ⟨msg, _, _, written⟩
    · rcases behind with ⟨writer, round, i, msg, begun, point⟩ | behind
      · by_cases own : writer = producerId
        · subst own
          exact publishes msg (producerMove_of_write move point)
        · exact Or.inl ⟨writer, round, i, msg, begun,
            (others writer own).trans point⟩
      · right
        simp only [same]
        exact behind
    · exact publishes msg written
  · cases move with
    | @skip msg point event marker =>
        have range := invariant.published_in msg
          (List.mem_of_getElem? event)
        omega
    | receive point | storeFails point => exact behind
    | store point =>
        rcases keeps with follows | writing
        · rcases behind with writing | empty | behind
          · exact Or.inl writing
          · rw [empty] at follows
            simp at follows
          · right
            right
            intro other
            by_cases same : other = handler
            · subst same
              simpa [State.atTime] using follows
            · simpa [State.atTime, same] using behind other
        · exact Or.inl writing
  · rcases mainStep_cases moved with ⟨_, _, rfl⟩ | ⟨_, rfl⟩ <;> exact behind

/-! ## The interleaving ends at the report -/

/-- The work left to a handler with some events to come. -/
def HandlerPoint.work (pending : Nat) : HandlerPoint → Nat
  | .waiting => 2 * pending
  | .store _ _ => 2 * (pending - 1) + 1
  | .died _ => 0

/-- The work left to `run`. -/
def MainPoint.work : MainPoint → Nat
  | .run => 2
  | .sleep => 1
  | .genReport => 0

/-- The work left to a handler of a state. -/
def handlerWork (state : State producers handlers) (handler : Fin handlers) :
    Nat :=
  (state.handler handler).work (state.trans.channel.published.length -
    state.trans.channel.handled handler)

/-- The work left in a state. -/
def work (config : LatencyBenchmarkConfig)
    (state : State producers handlers) : Nat :=
  state.trans.work config (2 * handlers) +
    (∑ handler, handlerWork state handler) + state.main.work

/-- Handling uses up the work of one handler. -/
theorem sum_handlerWork_lt {handler : Fin handlers} {time : Int}
    (invariant : Invariant config state)
    (move : HandlerMove state handler time next) :
    ∑ other, handlerWork next other < ∑ other, handlerWork state other := by
  have inside := invariant.handler_in handler
  have own : handlerWork next handler < handlerWork state handler := by
    cases move with
    | @skip msg point event marker =>
        have range := invariant.published_in msg
          (List.mem_of_getElem? event)
        omega
    | receive point event =>
        obtain ⟨before, _⟩ := List.getElem?_eq_some_iff.mp event
        simp only [handlerWork, point, Function.update_self,
          HandlerPoint.work]
        omega
    | store point =>
        rw [point] at inside
        have before := inside.1
        simp only [handlerWork, point, Function.update_self,
          HandlerPoint.work]
        omega
    | storeFails point =>
        simp only [handlerWork, point, Function.update_self,
          HandlerPoint.work]
        omega
  apply Finset.sum_lt_sum
  · intro other _
    by_cases same : other = handler
    · exact same ▸ le_of_lt own
    · cases move <;> simp [handlerWork, same]
  · exact ⟨handler, Finset.mem_univ handler, own⟩

/-- Publishing an event adds at most two steps for each handler. -/
theorem sum_handlerWork_publish {trans : ThreadTrans.State
      (RingBuffer handlers) producers 0} {capacity : Nat} {msg : Int}
    (written : state.trans.channel.publish capacity msg =
      some trans.channel) :
    ∑ handler, handlerWork { state with trans := trans } handler ≤
      (∑ handler, handlerWork state handler) + 2 * handlers := by
  have each : ∀ handler, handlerWork { state with trans := trans } handler ≤
      handlerWork state handler + 2 := by
    intro handler
    simp only [handlerWork, publish_eq_some written, List.length_append,
      List.length_singleton]
    cases state.handler handler <;> simp only [HandlerPoint.work] <;> omega
  calc
    ∑ handler, handlerWork { state with trans := trans } handler ≤
        ∑ handler, (handlerWork state handler + 2) :=
      Finset.sum_le_sum fun handler _ => each handler
    _ = (∑ handler, handlerWork state handler) + 2 * handlers := by
      rw [Finset.sum_add_distrib]
      simp [Nat.mul_comm]

/-- Every step uses up work. -/
theorem work_lt_of_step {action : Action producers handlers}
    (invariant : Invariant config state)
    (taken : Disruptor.step config state action = some next) :
    work config next < work config state := by
  rcases step_cases taken with ⟨time, trans, move, rfl⟩ |
    ⟨time, trans, producerId, move, rfl⟩ | ⟨handler, time, _, move⟩ |
      ⟨_, moved⟩
  · have same : ∀ handler,
        handlerWork { state with trans := trans } handler =
          handlerWork state handler := by
      intro handler
      unfold handlerWork
      rw [(mainMove_frame (invariant.atTime time).phases rfl move).2.1]
      rfl
    rcases move.work_lt config (2 * handlers)
      (invariant.atTime time).phases with ⟨_, drops⟩ | ⟨put, callback, _⟩
    · have drops : trans.work config (2 * handlers) <
          state.trans.work config (2 * handlers) := drops
      simp only [work, same]
      omega
    · cases callback
  · rcases move.work_lt (2 * handlers) with ⟨channel, drops⟩ |
      ⟨msg, written, drops⟩
    · have drops : trans.work config (2 * handlers) <
          state.trans.work config (2 * handlers) := drops
      have same : ∀ handler,
          handlerWork { state with trans := trans } handler =
            handlerWork state handler := by
        intro handler
        unfold handlerWork
        rw [channel]
        rfl
      simp only [work, same]
      omega
    · have drops : trans.work config (2 * handlers) + 2 * handlers <
          state.trans.work config (2 * handlers) := drops
      have grows :
          ∑ handler, handlerWork { state with trans := trans } handler ≤
            (∑ handler, handlerWork state handler) + 2 * handlers :=
        sum_handlerWork_publish written
      simp only [work]
      omega
  · have drops := sum_handlerWork_lt (invariant.atTime time) move
    have same : (∑ other, handlerWork (state.atTime time) other) =
        ∑ other, handlerWork state other := rfl
    have transWork : next.trans.work config (2 * handlers) =
        state.trans.work config (2 * handlers) := by
      cases move <;> rfl
    have mainWork : next.main = state.main := by
      cases move <;> rfl
    simp only [work, transWork, mainWork]
    omega
  · rcases mainStep_cases moved with ⟨point, _, rfl⟩ | ⟨point, rfl⟩
    · have same : ∀ handler,
          handlerWork { state with main := .sleep } handler =
            handlerWork state handler := fun _ => rfl
      simp only [work, point, same, MainPoint.work]
      omega
    · have same : ∀ handler,
          handlerWork { state with main := .genReport } handler =
            handlerWork state handler := fun _ => rfl
      simp only [work, point, same, MainPoint.work]
      omega

/-- A live handler with an event to come can step. -/
theorem handlerStep_ne_none {handler : Fin handlers} {time : Int}
    (invariant : Invariant config state)
    (pending : state.trans.channel.handled handler <
      state.trans.channel.published.length) :
    handlerStep state handler time ≠ none := by
  intro blocked
  have inside := invariant.handler_in handler
  unfold handlerStep at blocked
  cases point : state.handler handler with
  | waiting =>
      simp only [point, List.getElem?_eq_getElem pending] at blocked
      split at blocked <;> cases blocked
  | store msg nanoTime =>
      simp only [point] at blocked
      split at blocked <;> cases blocked
  | died exception =>
      rw [point] at inside
      exact inside

/-- The interleaving only stops where `genReport` is called. -/
theorem genReport_of_stuck (capacity : 1 ≤ config.capacity)
    (invariant : Invariant config state)
    (stuck : ∀ action, KeepsBehind state action →
      Disruptor.step config state action = none) :
    state.main = .genReport := by
  cases point : state.main with
  | genReport => rfl
  | sleep =>
      have blocked := stuck .main trivial
      simp [Disruptor.step, mainStep, point] at blocked
  | run =>
      exfalso
      have transStuck : ∀ action,
          ThreadTrans.Uninterrupted state.trans action →
            ThreadTrans.step (callbacks config.capacity.toNat handlers)
              config state.trans action = none := by
        intro action _
        have blocked := stuck (.trans action) trivial
        exact Option.map_eq_none_iff.mp blocked
      obtain ⟨mainBlocked, producersBlocked, _⟩ :=
        ThreadTrans.blocked_of_stuck transStuck
      rcases ThreadTrans.mainStep_eq_none mainBlocked with
        ⟨i, inside, joining, running⟩ | ⟨_, _, _, callback, _⟩ |
          ⟨_, inside, _⟩ | ⟨total, returned⟩
      · have started := (invariant.phases.producer_created ⟨i, inside⟩).not.mpr
          (by rw [joining]; exact not_not_intro trivial)
        rcases ThreadTrans.producerStep_eq_none
          (producersBlocked ⟨i, inside⟩) with created | terminated |
            ⟨round, record, msg, begun, writing, full⟩
        · exact started created
        · exact running terminated
        · -- The producer waits for a handler, which may therefore step.
          have slow : ∃ handler,
              state.trans.channel.handled handler +
                config.capacity.toNat ≤
                  state.trans.channel.published.length := by
            change RingBuffer.publish _ _ _ = none at full
            unfold RingBuffer.publish at full
            split at full
            · cases full
            · next notAll =>
                simpa using notAll
          obtain ⟨handler, behind⟩ := slow
          have blocked := stuck (.handler handler state.trans.clock)
            (Or.inr ⟨⟨i, inside⟩, round, record, msg, begun, writing⟩)
          simp only [Disruptor.step, le_refl, if_true] at blocked
          exact handlerStep_ne_none invariant (by omega) blocked
      · cases callback
      · exact absurd inside (Nat.not_lt_zero _)
      · have blocked := stuck .main trivial
        simp [Disruptor.step, mainStep, point, returned] at blocked

/-! ## Something is published -/

/-- The producer has not published its first message yet. -/
def BeforeFirst : ProducerPoint → Prop
  | .created => True
  | .round current i | .write current i _ _ => current = 0 ∧ i = 0
  | _ => False

/-- The first id of the first producer is in range whenever one is. -/
theorem messageId_zero : ThreadTrans.messageId config 0 0 0 = 0 := by
  simp [ThreadTrans.messageId, toInt32]

/-- As long as the first producer publishes nothing, it only fetches its
first message, whose id is in range. -/
theorem beforeFirst_of_producerMove {first : Fin producers}
    {trans : ThreadTrans.State (RingBuffer handlers) producers 0}
    (isFirst : (first : Nat) = 0) (rounds : 1 ≤ config.totalRounds)
    (records : 1 ≤ config.recordPerRound)
    (positive : 0 < ThreadTrans.recordCount config)
    (invariant : Invariant config state)
    (waiting : BeforeFirst (state.trans.producer first))
    (move : ProducerMove (callbacks config.capacity.toNat handlers) config
      state.trans first trans)
    (silent : trans.channel = state.trans.channel) :
    BeforeFirst (trans.producer first) := by
  cases move with
  | @fetch current i point inRounds inRecords inside =>
      rw [point] at waiting
      simp only [ThreadTrans.State.moveProducer, Function.update_self]
      exact waiting
  | @fetchOutside current i point inRounds inRecords outside =>
      rw [point] at waiting
      obtain ⟨rfl, rfl⟩ := waiting
      have recordCountEq := invariant.allocated.recordCount_eq
      rw [isFirst, messageId_zero] at outside
      unfold count at recordCountEq
      exfalso
      apply outside
      omega
  | @pause current i point inRounds roundEnds
  | @nextRound current i point inRounds roundEnds =>
      rw [point] at waiting
      obtain ⟨rfl, rfl⟩ := waiting
      omega
  | @finish current i point lastRound =>
      rw [point] at waiting
      obtain ⟨rfl, rfl⟩ := waiting
      omega
  | @write round i msg begun ring point written =>
      have lengths := congrArg
        (fun ring : RingBuffer handlers => ring.published.length)
        (silent.symm.trans (publish_eq_some written))
      simp at lengths
  | readEnd point | storeBegin point | storeBeginFails point
  | storeEnd point | storeEndFails point | wake point =>
      rw [point] at waiting
      exact waiting.elim

/-- The first producer publishes its first message. -/
theorem first_published {first : Fin producers}
    {action : Action producers handlers}
    (isFirst : (first : Nat) = 0) (rounds : 1 ≤ config.totalRounds)
    (records : 1 ≤ config.recordPerRound)
    (positive : 0 < ThreadTrans.recordCount config)
    (invariant : Invariant config state)
    (taken : Disruptor.step config state action = some next)
    (before : BeforeFirst (state.trans.producer first) ∨
      state.trans.channel.published ≠ []) :
    BeforeFirst (next.trans.producer first) ∨
      next.trans.channel.published ≠ [] := by
  rcases step_cases taken with ⟨time, trans, move, rfl⟩ |
    ⟨time, trans, producerId, move, rfl⟩ | ⟨handler, time, rfl, move⟩ |
      ⟨_, moved⟩
  · obtain ⟨_, channel, producer, _⟩ :=
      mainMove_frame (invariant.atTime time).phases rfl move
    rcases before with waiting | published
    · left
      change BeforeFirst (trans.producer first)
      rcases producer first with same | ⟨_, started⟩
      · rw [same]
        exact waiting
      · rw [started]
        exact ⟨rfl, rfl⟩
    · right
      change trans.channel.published ≠ []
      rw [channel]
      exact published
  · have now := invariant.atTime time
    obtain ⟨_, others⟩ := producerMove_frame move
    rcases (producerMove_in now.allocated
      (now.producer_in producerId) move).2.2 with
        silent | ⟨msg, _, _, written⟩
    · rcases before with waiting | published
      · left
        change BeforeFirst (trans.producer first)
        by_cases own : first = producerId
        · subst own
          exact beforeFirst_of_producerMove isFirst rounds records positive
            now waiting move silent
        · rw [others first own]
          exact waiting
      · right
        change trans.channel.published ≠ []
        rw [silent]
        exact published
    · right
      change trans.channel.published ≠ []
      rw [publish_eq_some written]
      simp
  · cases move <;> exact before
  · rcases mainStep_cases moved with ⟨_, _, rfl⟩ | ⟨_, rfl⟩ <;> exact before

/-- With a message to send there is a run that reports before handling. -/
theorem exists_report_before_handling (consumerNum : Nat)
    (producers : 1 ≤ config.producer)
    (rounds : 1 ≤ config.totalRounds) (records : 1 ≤ config.recordPerRound)
    (capacity : 1 ≤ config.capacity)
    (positive : 0 < ThreadTrans.recordCount config) :
    ∃ state, (system config consumerNum).Reachable state ∧
      state.main = .genReport ∧
        ∀ handler, state.trans.channel.handled handler <
          state.trans.channel.published.length := by
  obtain ⟨handle, constructed⟩ :=
    ThreadTrans.exists_newHandle (le_of_lt positive)
  let first : Fin config.producer.toNat := ⟨0, by omega⟩
  have initial : (system config consumerNum).initial
      (start config.producer.toNat consumerNum handle 0) :=
    ⟨handle, 0, constructed, rfl⟩
  obtain ⟨last, reachable, stuck⟩ :=
    (show (system config consumerNum).ReachableUnder KeepsBehind _ from
      .of_initial initial).exists_final (work config)
        fun before action after reached _ taken =>
          work_lt_of_step (invariant_of_reachable reached.reachable) taken
  have invariant := invariant_of_reachable reachable.reachable
  have reporting : last.main = .genReport := by
    apply genReport_of_stuck capacity invariant
    intro action keeps
    cases taken : Disruptor.step config last action with
    | none => rfl
    | some next => exact absurd ⟨action, keeps, next, taken⟩ stuck
  obtain ⟨total, returned⟩ := invariant.main_returned (by simp [reporting])
  have ended : ∀ producerId, (last.trans.producer producerId).Terminated :=
    fun producerId => invariant.phases.producer_joined producerId
      (by rw [returned]; trivial)
  have published : BeforeFirst (last.trans.producer first) ∨
      last.trans.channel.published ≠ [] := by
    apply reachable.reachable.invariant
    · rintro state ⟨_, _, _, rfl⟩
      exact Or.inl trivial
    · intro before action after reached taken waiting
      exact first_published rfl rounds records positive
        (invariant_of_reachable reached) taken waiting
  have behind : Behind last := by
    apply reachable.invariant
    · rintro state ⟨_, _, _, rfl⟩
      exact Or.inr (Or.inl rfl)
    · intro before action after reached keeps taken behind
      exact behind.step (invariant_of_reachable reached.reachable) keeps taken
  have someEvent : last.trans.channel.published ≠ [] := by
    rcases published with waiting | published
    · have finished := ended first
      cases point : last.trans.producer first <;> rw [point] at waiting finished
      all_goals first | exact waiting.elim | exact finished.elim
    · exact published
  refine ⟨last, reachable.reachable, reporting, ?_⟩
  rcases behind with ⟨writer, round, i, msg, begun, writing⟩ | empty | behind
  · have finished := ended writer
    rw [writing] at finished
    exact finished.elim
  · exact absurd empty someEvent
  · exact behind

/-- **Report after handling.**  Every event is handled and recorded whenever
`genReport` is called exactly when the constructor's product leaves no
message to send. -/
theorem reportsAfterHandling_iff (producers : 1 ≤ config.producer)
    (consumers : 1 ≤ consumerNum) (rounds : 1 ≤ config.totalRounds)
    (records : 1 ≤ config.recordPerRound) (capacity : 1 ≤ config.capacity) :
    ReportsAfterHandling config consumerNum ↔
      ThreadTrans.recordCount config ≤ 0 := by
  constructor
  · intro reports
    by_contra some
    obtain ⟨state, reachable, reporting, behind⟩ :=
      exists_report_before_handling consumerNum producers
        rounds records capacity (by omega)
    obtain ⟨handled, _⟩ := reports state reachable reporting
    have handler : Fin consumerNum := ⟨0, consumers⟩
    exact absurd (handled handler) (Nat.ne_of_lt (behind handler))
  · exact reportsAfterHandling_of_nonpos

/-- The reports of four messages from two producers do not wait for their
three handlers.  A count of `65536 * 65536` wraps to none at all. -/
theorem reportsAfterHandling_iff_both :
    ¬ReportsAfterHandling
        { totalRounds := 1, recordPerRound := 2, producer := 2 } 3 ∧
      ReportsAfterHandling
        { totalRounds := 65536, recordPerRound := 65536 } 3 := by
  constructor
  · intro waits
    have none := (reportsAfterHandling_iff (by decide) (by decide) (by decide)
      (by decide) (by decide)).mp waits
    exact absurd none (by decide)
  · exact (reportsAfterHandling_iff (by decide) (by decide) (by decide)
      (by decide) (by decide)).mpr (by decide)

/-- One message from one producer. -/
def singleConfig : LatencyBenchmarkConfig :=
  { totalRounds := 1, recordPerRound := 1, consumer := 0 }

/-- The run in which the only handler takes no step. -/
def handlerIdles (writer : Fin 1) : List (Action 1 1) :=
  List.replicate 4 (.trans ⟨.main, 0⟩) ++
    List.replicate 8 (.trans ⟨.producer writer, 0⟩) ++
      List.replicate 4 (.trans ⟨.main, 0⟩) ++ List.replicate 2 .main

/-- One message that is not handled when `genReport` is called: its slot is
null and the report ends with a `NullPointerException`. -/
theorem report_before_handling : ∃ state : State 1 1,
    (system singleConfig 1).Reachable state ∧ state.main = .genReport ∧
      ¬AllHandled state ∧ ¬ReadSlotsFilled state ∧
        ThreadTrans.genReport state.trans.handle
            { singleConfig with consumer := 1 } = .error .nullPointer ∧
          ¬ReportsAfterHandling singleConfig 1 := by
  have initial : (system singleConfig 1).initial (start 1 1
      ⟨1, [(0, "write_begin"), (1, "write_end"), (2, "read")],
        [(0, [none]), (1, [none]), (2, [none])]⟩ 0) :=
    ⟨_, 0, rfl, rfl⟩
  have reachable := (TransitionSystem.Reachable.of_initial initial).execute
    (show (system singleConfig 1).execute _ (handlerIdles 0) = some _ from rfl)
  refine ⟨_, reachable, rfl, ?_, ?_, rfl, ?_⟩
  · intro handled
    have same := handled 0
    cases same
  · intro filled
    exact filled [none] rfl none List.mem_cons_self rfl
  · intro reports
    obtain ⟨handled, _⟩ := reports _ reachable rfl
    have same := handled 0
    cases same

end Disruptor

end LatencyBenchmark
