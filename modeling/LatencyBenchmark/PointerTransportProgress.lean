import LatencyBenchmark.PointerTransportDelivery
import LatencyBenchmark.ThreadFamily

/-!
# The pointer transports do not stall

A step advances when it gets a message further: every step of a write
function, every call of the read function and every `read` that returns
bytes.  The advancing steps of a run are bounded by the number of calls, and
one of them can be taken until no byte waits and no write is under way.

A pipe that cannot hold a pointer stops the first write for good.
-/

namespace LatencyBenchmark

namespace PointerTransport

variable {producers : Nat} {medium : Medium} {endMsg : Pointer}

/-- The writers are the producers and the main thread. -/
def writerEquiv (producers : Nat) :
    Option (Fin producers) ≃ Writer producers where
  toFun
    | some producerId => .producer producerId
    | none => .main
  invFun
    | .producer producerId => some producerId
    | .main => none
  left_inv
    | some _ => rfl
    | none => rfl
  right_inv
    | .producer _ => rfl
    | .main => rfl

instance (producers : Nat) : Fintype (Writer producers) :=
  Fintype.ofEquiv (Option (Fin producers)) (writerEquiv producers)

/-- Steps that get a message further. -/
def Action.advances : Action producers → Bool
  | .lock _ | .append _ _ | .unlock _ | .callRead => true
  | .read count => count ≠ 0
  | .call _ _ | .finish _ | .producerCompleteCb => false

/-- Some step that advances can be taken. -/
def CanAdvance (medium : Medium) (endMsg : Pointer)
    (state : State producers) : Prop :=
  ∃ action : Action producers, action.advances = true ∧
    ∃ next, step medium endMsg state action = some next

/-- No byte waits and no write is under way. -/
def State.Settled (state : State producers) : Prop :=
  state.stream = [] ∧
    ∀ writer, state.writer writer = .idle ∨ state.writer writer = .finished

/-! ## Writes under way -/

/-- The lock is taken by the writer that holds it, who has bytes to write. -/
structure Sending (state : State producers) : Prop where
  exclusive : Exclusive state.locked state.writer
  held : state.locked = true → ∃ writer, (state.writer writer).Holding
  rest_bounds : ∀ writer data rest, state.writer writer = .write data rest →
    0 < rest.length ∧ rest.length ≤ 8

namespace Sending

variable {state next : State producers} {action : Action producers}
variable {writer : Writer producers} {point : WriterPoint}

theorem atStart : Sending (start producers) where
  exclusive :=
    ⟨fun _ holding => holding.elim, fun _ _ holding => holding.elim⟩
  held := fun locked => by cases locked
  rest_bounds := by
    intro writer data rest writing
    cases writing

theorem rest_bounds_update (sending : Sending state)
    (bounds : ∀ data rest, point = .write data rest →
      0 < rest.length ∧ rest.length ≤ 8) :
    ∀ other data rest, Function.update state.writer writer point other =
      .write data rest → 0 < rest.length ∧ rest.length ≤ 8 := by
  intro other data rest writing
  by_cases same : other = writer
  · subst same
    rw [Function.update_self] at writing
    exact bounds data rest writing
  · rw [Function.update_of_ne same] at writing
    exact sending.rest_bounds other data rest writing

/-- A writer without the lock that does not take it. -/
theorem moveWriter (sending : Sending state)
    (before : ¬(state.writer writer).Holding) (after : ¬point.Holding) :
    Sending (state.moveWriter writer point) where
  exclusive := sending.exclusive.update fun holding => absurd holding after
  held := by
    intro locked
    obtain ⟨holder, holding⟩ := sending.held locked
    have different : holder ≠ writer := by
      rintro rfl
      exact before holding
    refine ⟨holder, ?_⟩
    change (Function.update state.writer writer point holder).Holding
    rwa [Function.update_of_ne different]
  rest_bounds := sending.rest_bounds_update fun data rest writing => by
    rw [writing] at after
    exact absurd trivial after

theorem callWrite (sending : Sending state) {data : Pointer}
    (idle : state.writer writer = .idle) :
    Sending (state.callWrite writer data) := by
  have before : ¬(state.writer writer).Holding := by
    rw [idle]
    exact fun holding => holding
  have after : ¬(WriterPoint.lock data).Holding := fun holding => holding
  exact { sending.moveWriter before after with }

/-- A writer that keeps the lock. -/
theorem keepLock (sending : Sending state) {stream : List UInt8}
    {written : List (Writer producers × Pointer)}
    (before : (state.writer writer).Holding) (after : point.Holding)
    (bounds : ∀ data rest, point = .write data rest →
      0 < rest.length ∧ rest.length ≤ 8) :
    Sending { state.moveWriter writer point with
      stream := stream
      written := written } where
  exclusive := sending.exclusive.update fun _ => before
  held := by
    intro _
    refine ⟨writer, ?_⟩
    change (Function.update state.writer writer point writer).Holding
    rwa [Function.update_self]
  rest_bounds := sending.rest_bounds_update bounds

theorem step (sending : Sending state)
    (move : Move medium endMsg state action next) : Sending next := by
  cases move with
  | call idle => exact sending.callWrite idle
  | finish idle =>
      apply sending.moveWriter
      · rw [idle]
        exact fun holding => holding
      · exact fun holding => holding
  | producerCompleteCb idle _ => exact sending.callWrite idle
  | @lock writer _ waiting free =>
      refine ⟨(free ▸ sending.exclusive).acquire, ?_,
        sending.rest_bounds_update ?_⟩
      · intro _
        refine ⟨writer, ?_⟩
        change (Function.update state.writer _ _ _).Holding
        rw [Function.update_self]
        trivial
      · rintro data rest ⟨⟩
        rw [pointerCodec.length_encode]
        decide
  | appendPart writing _ some =>
      have bounds := sending.rest_bounds _ _ _ writing
      refine sending.keepLock ?_ ?_ ?_
      · rw [writing]
        trivial
      · trivial
      · rintro data rest ⟨⟩
        rw [List.length_drop]
        omega
  | appendLast writing _ _ =>
      refine sending.keepLock ?_ ?_ ?_
      · rw [writing]
        trivial
      · trivial
      · rintro data rest ⟨⟩
  | @unlock writer unlocking =>
      have released : ∀ id : Writer producers, ¬id.afterCall.Holding := by
        intro id holding
        cases id <;> exact holding
      refine ⟨sending.exclusive.release ?_ (released _),
        fun locked => (by cases locked), sending.rest_bounds_update ?_⟩
      · rw [unlocking]
        trivial
      · intro data rest writing
        have quiet := released writer
        rw [writing] at quiet
        exact absurd trivial quiet
  | callRead _ => exact { sending with }
  | readAll _ _ _ => exact { sending with }
  | readPart _ _ _ => exact { sending with }

theorem of_reachable
    (reachable : (transport medium producers endMsg).Reachable state) :
    Sending state := by
  apply reachable.invariant
  · rintro _ rfl
    exact atStart
  · intro earlier action next _ taken sending
    exact sending.step (Move.of_step taken)

end Sending

/-! ## Work left -/

/-- Advancing steps a writer can still cause: for each byte it writes one
`write` and one `read` at most, and its two steps on the lock. -/
def WriterPoint.work : WriterPoint → Nat
  | .lock _ => 18
  | .write _ rest => 2 * rest.length + 1
  | .unlock => 1
  | .idle | .finished => 0

@[simp]
theorem WriterPoint.work_lock (data : Pointer) :
    (WriterPoint.lock data).work = 18 :=
  rfl

@[simp]
theorem WriterPoint.work_write (data : Pointer) (rest : List UInt8) :
    (WriterPoint.write data rest).work = 2 * rest.length + 1 :=
  rfl

@[simp]
theorem WriterPoint.work_unlock : WriterPoint.unlock.work = 1 :=
  rfl

@[simp]
theorem WriterPoint.work_idle : WriterPoint.idle.work = 0 :=
  rfl

@[simp]
theorem WriterPoint.work_finished : WriterPoint.finished.work = 0 :=
  rfl

@[simp]
theorem Writer.work_afterCall (writer : Writer producers) :
    writer.afterCall.work = 0 := by
  cases writer <;> rfl

/-- The call of the read function that a reader has left. -/
def ReaderPoint.work : ReaderPoint → Nat
  | .idle => 1
  | .read _ => 0

@[simp]
theorem ReaderPoint.work_idle : ReaderPoint.idle.work = 1 :=
  rfl

@[simp]
theorem ReaderPoint.work_read (data : Pointer) :
    (ReaderPoint.read data).work = 0 :=
  rfl

/-- Advancing steps that are left without another call of a writer. -/
def State.work (state : State producers) : Nat :=
  (∑ writer, (state.writer writer).work) + state.stream.length +
    state.reader.work

/-- The calls of the write function. -/
def State.calls (state : State producers) : Nat :=
  ∑ writer, (state.called writer).length

section Work

variable {state next : State producers} {action : Action producers}

/-- A writer that moves exchanges its work. -/
theorem sum_work_update (state : State producers) (writer : Writer producers)
    (point : WriterPoint) :
    (∑ other, (Function.update state.writer writer point other).work) +
        (state.writer writer).work =
      (∑ other, (state.writer other).work) + point.work :=
  ThreadFamily.sum_update state.writer writer point fun _ later => later.work

theorem work_callWrite {writer : Writer producers} {data : Pointer}
    (idle : state.writer writer = .idle) :
    (state.callWrite writer data).work = state.work + 18 := by
  have exchanged := sum_work_update state writer (.lock data)
  rw [idle, WriterPoint.work_idle, WriterPoint.work_lock] at exchanged
  simp only [State.work, State.callWrite, State.moveWriter]
  omega

theorem calls_callWrite (writer : Writer producers) (data : Pointer) :
    (state.callWrite writer data).calls = state.calls + 1 := by
  have longer : (state.called writer ++ [data]).length =
      1 + (state.called writer).length := by
    rw [List.length_append, List.length_singleton, Nat.add_comm]
  have grows : ∑ other, (Function.update state.called writer
      (state.called writer ++ [data]) other).length =
        1 + ∑ other, (state.called other).length :=
    ThreadFamily.sum_update_add
      (fun _ (pointers : List Pointer) => pointers.length) longer
  rw [Nat.add_comm]
  exact grows

/-- An advancing step leaves less work, and a call adds a little. -/
theorem work_le_of_move (sending : Sending state)
    (accepts_pos : ∀ {stored rest count}, medium.Accepts stored rest count →
      0 < rest → 0 < count)
    (move : Move medium endMsg state action next) :
    next.work + action.advances.toNat + 18 * state.calls ≤
      state.work + 18 * next.calls := by
  cases move with
  | call idle =>
      rw [work_callWrite idle, calls_callWrite, Action.advances]
      simp only [Bool.toNat_false]
      omega
  | @finish producerId idle =>
      have exchanged :=
        sum_work_update state (.producer producerId) .finished
      rw [idle, WriterPoint.work_idle, WriterPoint.work_finished] at exchanged
      simp only [State.work, State.moveWriter, State.calls, Action.advances,
        Bool.toNat_false]
      omega
  | producerCompleteCb idle _ =>
      rw [work_callWrite idle, calls_callWrite, Action.advances]
      simp only [Bool.toNat_false]
      omega
  | @lock writer data waiting _ =>
      have size : (pointerCodec.encode data).length = 8 :=
        pointerCodec.length_encode data
      have exchanged :=
        sum_work_update state writer (.write data (pointerCodec.encode data))
      rw [waiting, WriterPoint.work_lock, WriterPoint.work_write, size]
        at exchanged
      simp only [State.work, State.moveWriter, State.calls, Action.advances,
        Bool.toNat_true]
      omega
  | @appendPart writer data rest count writing accepted _ =>
      have positive := accepts_pos accepted (by omega)
      have exchanged :=
        sum_work_update state writer (.write data (rest.drop count))
      rw [writing, WriterPoint.work_write, WriterPoint.work_write,
        List.length_drop] at exchanged
      simp only [State.work, State.moveWriter, State.calls, Action.advances,
        Bool.toNat_true, List.length_append, List.length_take]
      omega
  | @appendLast writer data rest count writing _ _ =>
      have positive := (sending.rest_bounds _ _ _ writing).1
      have exchanged := sum_work_update state writer .unlock
      rw [writing, WriterPoint.work_write, WriterPoint.work_unlock]
        at exchanged
      simp only [State.work, State.moveWriter, State.calls, Action.advances,
        Bool.toNat_true, List.length_append]
      omega
  | @unlock writer unlocking =>
      have exchanged := sum_work_update state writer writer.afterCall
      rw [unlocking, Writer.work_afterCall, WriterPoint.work_unlock]
        at exchanged
      simp only [State.work, State.moveWriter, State.calls, Action.advances,
        Bool.toNat_true]
      omega
  | callRead idle =>
      simp [State.work, State.calls, Action.advances, idle]
  | @readAll _ count reading _ whole =>
      rw [List.length_take] at whole
      have some : (Action.read count : Action producers).advances = true := by
        simp only [Action.advances, decide_eq_true_eq]
        omega
      simp only [State.work, State.calls, some, reading, List.length_drop,
        Bool.toNat_true, ReaderPoint.work_idle, ReaderPoint.work_read]
      omega
  | @readPart _ _ count reading delivered _ =>
      have stored := medium.delivers_le delivered
      have bytes : (Action.read count : Action producers).advances.toNat ≤
          count := by
        cases count <;> simp [Action.advances]
      simp only [State.work, State.calls, reading, List.length_drop,
        ReaderPoint.work_read]
      omega

/-- The advancing steps of a run, and those left, are bounded by the calls. -/
theorem advances_add_work_le
    (accepts_pos : ∀ {stored rest count}, medium.Accepts stored rest count →
      0 < rest → 0 < count)
    {trace : List (State producers × Action producers)}
    (run : (transport medium producers endMsg).Run trace state) :
    (trace.countP fun entry => entry.2.advances) + state.work ≤
      18 * state.calls + 1 := by
  induction run with
  | start isInitial =>
      cases isInitial
      simp [State.work, State.calls, start, WriterPoint.work]
  | @step trace before after action run taken induction =>
      have sending := Sending.of_reachable ⟨trace, run⟩
      have less := work_le_of_move sending accepts_pos (Move.of_step taken)
      rw [List.countP_cons]
      cases advances : action.advances <;>
        simp only [advances, Bool.toNat_true, Bool.toNat_false] at less <;>
        simp only [if_true, Bool.false_eq_true, if_false] <;>
        omega

end Work

/-! ## No deadlock -/

/-- What a descriptor must do to keep messages flowing: take up bytes when it
is empty, and give some when it is not. -/
structure Medium.Flows (medium : Medium) : Prop where
  accepts : ∀ {rest}, 0 < rest → rest ≤ 8 →
    ∃ count, medium.Accepts 0 rest count
  delivers : ∀ {stored}, 0 < stored →
    ∃ count, 0 < count ∧ medium.Delivers stored count

section Flow

variable {state : State producers}

/-- Over such a descriptor nothing is stuck. -/
theorem canAdvance_of_sending (sending : Sending state) (flows : medium.Flows)
    (unsettled : ¬state.Settled) : CanAdvance medium endMsg state := by
  cases bytes : state.stream with
  | cons byte rest =>
      cases point : state.reader with
      | idle =>
          exact ⟨.callRead, rfl, _, by
            simp only [step, point, if_true]; rfl⟩
      | read data =>
          obtain ⟨count, positive, delivered⟩ := flows.delivers
            (List.length_pos_of_ne_nil (bytes ▸ List.cons_ne_nil byte rest))
          refine ⟨.read count, decide_eq_true (Nat.ne_of_gt positive), ?_⟩
          simp only [step, readStep, point, delivered, if_true]
          split <;> exact ⟨_, rfl⟩
  | nil =>
      have busy : ∃ writer, ¬(state.writer writer = .idle ∨
          state.writer writer = .finished) := by
        by_contra quiet
        push Not at quiet
        exact unsettled ⟨bytes, quiet⟩
      by_cases taken : state.locked = true
      · obtain ⟨holder, holding⟩ := sending.held taken
        cases point : state.writer holder with
        | write data left =>
            obtain ⟨positive, few⟩ :=
              sending.rest_bounds holder data left point
            obtain ⟨count, accepted⟩ := flows.accepts positive few
            refine ⟨.append holder count, rfl, ?_⟩
            simp only [step, appendStep, point, bytes, List.length_nil,
              accepted, if_true]
            split <;> exact ⟨_, rfl⟩
        | unlock =>
            exact ⟨.unlock holder, rfl, _, by
              simp only [step, unlockStep, point, if_true]; rfl⟩
        | idle => exact absurd holding (by rw [point]; exact id)
        | lock data => exact absurd holding (by rw [point]; exact id)
        | finished => exact absurd holding (by rw [point]; exact id)
      · obtain ⟨writer, inCall⟩ := busy
        have free := mt (sending.exclusive.locked_of_holding writer) taken
        cases point : state.writer writer with
        | lock data =>
            exact ⟨.lock writer, rfl, _, by
              simp only [step, lockStep, point, taken]; rfl⟩
        | write data left => exact absurd (by rw [point]; trivial) free
        | unlock => exact absurd (by rw [point]; trivial) free
        | idle => exact absurd (Or.inl point) inCall
        | finished => exact absurd (Or.inr point) inCall

end Flow

/-! ## Sockets and pipes -/

theorem socketpair_accepts_pos {stored rest count : Nat}
    (accepted : socketpair.Accepts stored rest count) (_ : 0 < rest) :
    0 < count :=
  accepted.1

theorem socketpair_flows : socketpair.Flows where
  accepts := fun {rest} positive _ => ⟨rest, positive, le_refl rest⟩
  delivers := by
    intro stored positive
    refine ⟨min 8 stored, by omega, le_refl _, ?_⟩
    omega

theorem pipe_accepts_pos {capacity stored rest count : Nat}
    (accepted : (pipe capacity).Accepts stored rest count)
    (positive : 0 < rest) : 0 < count :=
  accepted.1 ▸ positive

theorem pipe_flows {capacity : Nat} (holds : 8 ≤ capacity) :
    (pipe capacity).Flows where
  accepts := fun {rest} _ few => ⟨rest, rfl, by omega⟩
  delivers := fun {stored} positive => ⟨min 8 stored, by omega, rfl⟩

section Runs

variable {state : State producers} {capacity : Nat}

/-- Once a pipe has settled, everything written was returned, and everything
the writers were called with was written. -/
theorem returned_of_settled
    (reachable : (benchmarkPipe capacity producers endMsg).Reachable state)
    (settled : state.Settled) :
    state.returned = state.written.map Prod.snd ∧
      ∀ writer, pointersOf writer state.written = state.called writer := by
  obtain ⟨noBytes, quiet⟩ := settled
  constructor
  · obtain ⟨pending, part, _, stream, written⟩ :=
      (framed_of_reachable (wholeReads_of_reachable reachable)).framed
    rw [noBytes] at stream
    have none : pending = [] := by
      cases pending with
      | nil => rfl
      | cons data pending =>
          have length := congrArg List.length stream
          rw [FrameCodec.encodeAll_cons, List.length_append,
            List.length_append, pointerCodec.length_encode] at length
          have positive := pointerCodec.size_pos
          simp only [List.length_nil] at length
          omega
    rw [written, none, List.append_nil]
  · intro writer
    have order := (ordered_of_reachable reachable).program_order writer
    rcases quiet writer with point | point <;>
      rw [point, WriterPoint.inHand, List.append_nil] at order <;>
      exact order

/-- Some writer of a benchmark can call its write function at the start. -/
theorem exists_reachable_callWrite (medium : Medium) (producers : Nat)
    (endMsg : Pointer) :
    ∃ writer data, (transport medium producers endMsg).Reachable
      ((start producers).callWrite writer data) := by
  have initial : (transport medium producers endMsg).initial
      (start producers) := rfl
  cases producers with
  | zero =>
      have taken : (transport medium 0 endMsg).step (start 0)
          .producerCompleteCb = some ((start 0).callWrite .main endMsg) := by
        simp only [transport, step]
        exact if_pos ⟨rfl, fun producerId => producerId.elim0⟩
      exact ⟨_, _, (TransitionSystem.Reachable.of_initial initial).step taken⟩
  | succ producers =>
      have taken : (transport medium (producers + 1) endMsg).step
          (start (producers + 1)) (.call ⟨0, Nat.succ_pos producers⟩ endMsg) =
            some ((start (producers + 1)).callWrite
              (.producer ⟨0, Nat.succ_pos producers⟩) endMsg) := by
        simp only [transport, step]
        exact if_pos rfl
      exact ⟨_, _, (TransitionSystem.Reachable.of_initial initial).step taken⟩

/-- A pipe without room for a pointer gets stuck: the first writer waits in
`write` with the lock taken, and the reader has nothing to read. -/
theorem exists_stuck_of_small (endMsg : Pointer) (small : capacity < 8) :
    ∃ state : State producers,
      (benchmarkPipe capacity producers endMsg).Reachable state ∧
        state.locked = true ∧ ¬state.Settled ∧
          ¬CanAdvance (pipe capacity) endMsg state := by
  obtain ⟨writer, data, called⟩ :=
    exists_reachable_callWrite (pipe capacity) producers endMsg
  let locked : State producers :=
    { ((start producers).callWrite writer data).moveWriter writer
        (.write data (pointerCodec.encode data)) with
      locked := true }
  let stuck : State producers := { locked with reader := .read 0 }
  have locks : (benchmarkPipe capacity producers endMsg).step
      ((start producers).callWrite writer data) (.lock writer) =
        some locked := by
    have point : ((start producers).callWrite writer data).writer writer =
        .lock data := Function.update_self _ _ _
    simp only [benchmarkPipe, transport, step, lockStep, point]
    rfl
  have reads : (benchmarkPipe capacity producers endMsg).step locked
      .callRead = some stuck := by
    simp only [benchmarkPipe, transport, step]
    exact if_pos rfl
  have writing : stuck.writer writer =
      .write data (pointerCodec.encode data) := Function.update_self _ _ _
  have points : ∀ other, other ≠ writer → stuck.writer other = .idle := by
    intro other different
    change Function.update (Function.update _ _ _) _ _ other = _
    rw [Function.update_of_ne different, Function.update_of_ne different]
    rfl
  have size : (pointerCodec.encode data).length = 8 :=
    pointerCodec.length_encode data
  -- A `write` needs room for the whole pointer.
  have refused : ∀ other written rest count,
      stuck.writer other = .write written rest →
        ¬(pipe capacity).Accepts stuck.stream.length rest.length count := by
    rintro other written rest count point ⟨_, room⟩
    by_cases same : other = writer
    · rw [same, writing] at point
      cases point
      rw [size] at room
      omega
    · rw [points other same] at point
      cases point
  have lockedReachable : (benchmarkPipe capacity producers endMsg).Reachable
      locked := TransitionSystem.Reachable.step called locks
  refine ⟨stuck, lockedReachable.step reads, rfl, ?_, ?_⟩
  · rintro ⟨_, quiet⟩
    rcases quiet writer with point | point <;>
      rw [writing] at point <;> cases point
  · rintro ⟨action, advances, next, taken⟩
    cases Move.of_step taken with
    | call _ => cases advances
    | finish _ => cases advances
    | producerCompleteCb _ _ => cases advances
    | lock _ free => cases free
    | appendPart point accepted _ => exact refused _ _ _ _ point accepted
    | appendLast point accepted _ => exact refused _ _ _ _ point accepted
    | @unlock other point =>
        by_cases same : other = writer
        · rw [same, writing] at point
          cases point
        · rw [points other same] at point
          cases point
    | callRead point => cases point
    | readAll _ delivered _ =>
        rw [show _ = 0 from delivered] at advances
        cases advances
    | readPart _ delivered _ =>
        rw [show _ = 0 from delivered] at advances
        cases advances

/-- What a run has come to: its advancing steps are bounded by the calls, and
there is a next one as long as something is under way. -/
structure Progresses (medium : Medium) (endMsg : Pointer)
    (trace : List (State producers × Action producers))
    (state : State producers) : Prop where
  bounded : (trace.countP fun entry => entry.2.advances) ≤
    18 * state.calls + 1
  canAdvance : ¬state.Settled → CanAdvance medium endMsg state

/-- **Pipes deliver.**  Every run progresses to a state in which the reader
has returned everything the writers were called with, exactly when the pipe
has room for a pointer.  In a smaller pipe a writer waits in `write` with the
lock taken. -/
theorem benchmarkPipe_progresses_iff (capacity producers : Nat)
    (endMsg : Pointer) :
    ((∀ trace state,
      (benchmarkPipe capacity producers endMsg).Run trace state →
        Progresses (pipe capacity) endMsg trace state ∧
          (state.Settled → state.returned = state.written.map Prod.snd ∧
            ∀ writer, pointersOf writer state.written =
              state.called writer)) ↔
      8 ≤ capacity) ∧
    (capacity < 8 → ∃ state : State producers,
      (benchmarkPipe capacity producers endMsg).Reachable state ∧
        state.locked = true ∧ ¬state.Settled ∧
          ¬CanAdvance (pipe capacity) endMsg state) := by
  refine ⟨⟨?_, ?_⟩, exists_stuck_of_small endMsg⟩
  · intro progresses
    by_contra small
    obtain ⟨state, ⟨trace, run⟩, _, unsettled, cannot⟩ :
        ∃ state : State producers,
          (benchmarkPipe capacity producers endMsg).Reachable state ∧
            state.locked = true ∧ ¬state.Settled ∧
              ¬CanAdvance (pipe capacity) endMsg state :=
      exists_stuck_of_small endMsg (by omega)
    exact cannot ((progresses trace state run).1.canAdvance unsettled)
  · intro holds trace state run
    have sending := Sending.of_reachable ⟨trace, run⟩
    have counted := advances_add_work_le pipe_accepts_pos run
    exact ⟨⟨by omega, canAdvance_of_sending sending (pipe_flows holds)⟩,
      returned_of_settled ⟨trace, run⟩⟩

/-- **Sockets do not stall** either, whatever the lengths of the reads. -/
theorem benchmarkSocketpair_progresses
    {trace : List (State producers × Action producers)}
    (run : (benchmarkSocketpair producers endMsg).Run trace state) :
    Progresses socketpair endMsg trace state := by
  have sending := Sending.of_reachable ⟨trace, run⟩
  have counted := advances_add_work_le socketpair_accepts_pos run
  exact ⟨by omega, canAdvance_of_sending sending socketpair_flows⟩

theorem benchmarkSocketpair_progresses_two :
    ∃ (trace : List (State 2 × Action 2)) (state : State 2),
      (benchmarkSocketpair 2 7).Run trace state ∧
        state.returned = [6, 5, 7] ∧
        Progresses socketpair 7 trace state := by
  have initial : (benchmarkSocketpair 2 7).initial (start 2) := rfl
  obtain ⟨trace, run⟩ :=
    (TransitionSystem.Reachable.of_initial initial).execute
      (show (benchmarkSocketpair 2 7).execute (start 2) (endRun 0 1) = some _
        from rfl)
  exact ⟨trace, _, run, by decide, benchmarkSocketpair_progresses run⟩

end Runs

end PointerTransport

end LatencyBenchmark
