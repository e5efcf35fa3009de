import LatencyBenchmark.PointerTransport
import LatencyBenchmark.ThreadFamily

/-!
# What the pointer transports deliver

As long as every `read` returns eight bytes or none, the stream between the
threads is a sequence of whole pointers followed by the part of one write
that is under way, so that the reader returns the pointers in the order in
which they were written.  A pipe never returns anything else.  A socketpair
may, and the loop then discards the bytes of an incomplete read.
-/

namespace LatencyBenchmark

namespace PointerTransport

variable {producers : Nat} {medium : Medium} {endMsg : Pointer}

/-! ## What one step does -/

/-- The branches of `step`. -/
inductive Move (medium : Medium) (endMsg : Pointer)
    (state : State producers) :
    Action producers → State producers → Prop
  | call {producerId : Fin producers} {data : Pointer}
      (point : state.writer (.producer producerId) = .idle) :
      Move medium endMsg state (.call producerId data)
        (state.callWrite (.producer producerId) data)
  | finish {producerId : Fin producers}
      (point : state.writer (.producer producerId) = .idle) :
      Move medium endMsg state (.finish producerId)
        (state.moveWriter (.producer producerId) .finished)
  | producerCompleteCb (point : state.writer .main = .idle)
      (finished : ∀ producerId,
        state.writer (.producer producerId) = .finished) :
      Move medium endMsg state .producerCompleteCb
        (state.callWrite .main endMsg)
  | lock {writer : Writer producers} {data : Pointer}
      (point : state.writer writer = .lock data)
      (free : state.locked = false) :
      Move medium endMsg state (.lock writer)
        { state.moveWriter writer (.write data (pointerCodec.encode data)) with
          locked := true }
  | appendPart {writer : Writer producers} {data : Pointer}
      {rest : List UInt8} {count : Nat}
      (point : state.writer writer = .write data rest)
      (accepted : medium.Accepts state.stream.length rest.length count)
      (some : count < rest.length) :
      Move medium endMsg state (.append writer count)
        { state.moveWriter writer (.write data (rest.drop count)) with
          stream := state.stream ++ rest.take count }
  | appendLast {writer : Writer producers} {data : Pointer}
      {rest : List UInt8} {count : Nat}
      (point : state.writer writer = .write data rest)
      (accepted : medium.Accepts state.stream.length rest.length count)
      (all : rest.length ≤ count) :
      Move medium endMsg state (.append writer count)
        { state.moveWriter writer .unlock with
          stream := state.stream ++ rest
          written := state.written ++ [(writer, data)] }
  | unlock {writer : Writer producers}
      (point : state.writer writer = .unlock) :
      Move medium endMsg state (.unlock writer)
        { state.moveWriter writer writer.afterCall with locked := false }
  | callRead (point : state.reader = .idle) :
      Move medium endMsg state .callRead { state with reader := .read 0 }
  | readAll {data : Pointer} {count : Nat}
      (point : state.reader = .read data)
      (delivered : medium.Delivers state.stream.length count)
      (whole : (state.stream.take count).length = 8) :
      Move medium endMsg state (.read count)
        { state with
          stream := state.stream.drop count
          reader := .idle
          returned := state.returned ++
            [pointerCodec.decode (state.stream.take count)] }
  | readPart {data overwritten : Pointer} {count : Nat}
      (point : state.reader = .read data)
      (delivered : medium.Delivers state.stream.length count)
      (short : (state.stream.take count).length ≠ 8) :
      Move medium endMsg state (.read count)
        { state with
          stream := state.stream.drop count
          reader := .read overwritten }

variable {state next : State producers} {action : Action producers}

theorem Move.of_step (taken : step medium endMsg state action = some next) :
    Move medium endMsg state action next := by
  cases action with
  | call producerId data =>
      simp only [step] at taken
      split at taken
      · next point =>
          cases taken
          exact .call point
      · cases taken
  | finish producerId =>
      simp only [step] at taken
      split at taken
      · next point =>
          cases taken
          exact .finish point
      · cases taken
  | producerCompleteCb =>
      simp only [step] at taken
      split at taken
      · next enabled =>
          cases taken
          exact .producerCompleteCb enabled.1 enabled.2
      · cases taken
  | lock writer =>
      simp only [step, lockStep] at taken
      split at taken
      · next data point =>
          split at taken
          · cases taken
          · next free =>
              cases taken
              exact .lock point (Bool.not_eq_true _ ▸ free)
      all_goals cases taken
  | append writer count =>
      simp only [step, appendStep] at taken
      split at taken
      · next data rest point =>
          split at taken
          · next accepted =>
              split at taken
              · next all =>
                  cases taken
                  exact .appendLast point accepted all
              · next some =>
                  cases taken
                  exact .appendPart point accepted (Nat.lt_of_not_le some)
          · cases taken
      all_goals cases taken
  | unlock writer =>
      simp only [step, unlockStep] at taken
      split at taken
      · next point =>
          cases taken
          exact .unlock point
      · cases taken
  | callRead =>
      simp only [step] at taken
      split at taken
      · next point =>
          cases taken
          exact .callRead point
      · cases taken
  | read count =>
      simp only [step, readStep] at taken
      split at taken
      · next data point =>
          split at taken
          · next delivered =>
              split at taken
              · next whole =>
                  cases taken
                  have none : (pointerCodec.encode data).drop
                      (state.stream.take count).length = [] := by
                    apply List.drop_eq_nil_of_le
                    rw [pointerCodec.length_encode, whole]
                    exact le_refl 8
                  rw [none, List.append_nil]
                  exact .readAll point delivered whole
              · next short =>
                  cases taken
                  exact .readPart point delivered short
          · cases taken
      · cases taken

/-! ## One write at a time -/

/-- The writer holds the lock. -/
def WriterPoint.Holding : WriterPoint → Prop
  | .write _ _ | .unlock => True
  | .idle | .lock _ | .finished => False

/-- At most one writer holds the lock. -/
structure Exclusive (locked : Bool) (writer : Writer producers → WriterPoint) :
    Prop where
  locked_of_holding : ∀ id, (writer id).Holding → locked = true
  unique : ∀ first second,
    (writer first).Holding → (writer second).Holding → first = second

section Exclusive

variable {locked : Bool} {writer : Writer producers → WriterPoint}
variable {id : Writer producers} {point : WriterPoint}

theorem Exclusive.update (exclusive : Exclusive locked writer)
    (held : point.Holding → (writer id).Holding) :
    Exclusive locked (Function.update writer id point) := by
  have holding := ThreadFamily.forall_update
    (fun other (later : WriterPoint) => later.Holding → (writer other).Holding)
    (fun _ holding => holding) held
  constructor
  · intro other later
    exact exclusive.locked_of_holding other (holding other later)
  · intro first second firstLater secondLater
    exact exclusive.unique first second (holding first firstLater)
      (holding second secondLater)

/-- While the lock is free nobody holds it. -/
theorem Exclusive.not_holding (exclusive : Exclusive false writer)
    (other : Writer producers) : ¬(writer other).Holding := by
  intro holding
  cases exclusive.locked_of_holding other holding

/-- A writer other than the holder does not hold the lock. -/
theorem Exclusive.not_holding_of_ne (exclusive : Exclusive locked writer)
    (holding : (writer id).Holding) {other : Writer producers}
    (different : other ≠ id) : ¬(writer other).Holding :=
  fun also => different (exclusive.unique other id also holding)

theorem Exclusive.acquire (exclusive : Exclusive false writer) :
    Exclusive true (Function.update writer id point) := by
  have only := ThreadFamily.forall_update
    (fun other (later : WriterPoint) => later.Holding → other = id)
    (fun other holding => absurd holding (exclusive.not_holding other))
    (fun _ => rfl : point.Holding → id = id)
  constructor
  · exact fun _ _ => rfl
  · intro first second firstLater secondLater
    exact (only first firstLater).trans (only second secondLater).symm

theorem Exclusive.release (exclusive : Exclusive locked writer)
    (holding : (writer id).Holding) (released : ¬point.Holding) :
    Exclusive false (Function.update writer id point) := by
  have none : ∀ other,
      ¬(Function.update writer id point other).Holding := by
    intro other
    by_cases same : other = id
    · subst same
      rwa [Function.update_self]
    · rw [Function.update_of_ne same]
      exact exclusive.not_holding_of_ne holding same
  constructor
  · exact fun other later => absurd later (none other)
  · exact fun first _ later _ => absurd later (none first)

end Exclusive

/-- The part of a write under way that the stream already holds. -/
structure SentPart (writer : Writer producers → WriterPoint)
    (part : List UInt8) : Prop where
  of_write : ∀ id data rest, writer id = .write data rest →
    part ++ rest = pointerCodec.encode data ∧ rest ≠ []
  of_quiet : (∀ id data rest, writer id ≠ .write data rest) → part = []

section SentPart

variable {writer : Writer producers → WriterPoint} {part : List UInt8}
variable {id : Writer producers} {point : WriterPoint}

/-- Less than a whole pointer is under way. -/
theorem SentPart.length_lt (sent : SentPart writer part) :
    part.length < 8 := by
  by_cases quiet : ∀ id data rest, writer id ≠ .write data rest
  · rw [sent.of_quiet quiet]
    exact Nat.succ_pos 7
  · push Not at quiet
    obtain ⟨id, data, rest, writing⟩ := quiet
    obtain ⟨split, some⟩ := sent.of_write id data rest writing
    have length := congrArg List.length split
    rw [List.length_append, pointerCodec.length_encode] at length
    have restPos := List.length_pos_of_ne_nil some
    change part.length + rest.length = 8 at length
    omega

theorem SentPart.quiet (none : ∀ id data rest, writer id ≠ .write data rest) :
    SentPart writer [] :=
  ⟨fun id data rest writing => absurd writing (none id data rest),
    fun _ => rfl⟩

/-- A writer that is not in `write` before or after its move. -/
theorem SentPart.update (sent : SentPart writer part)
    (before : ∀ data rest, writer id ≠ .write data rest)
    (after : ∀ data rest, point ≠ .write data rest) :
    SentPart (Function.update writer id point) part := by
  constructor
  · intro other data rest writing
    by_cases same : other = id
    · subst same
      rw [Function.update_self] at writing
      exact absurd writing (after data rest)
    · rw [Function.update_of_ne same] at writing
      exact sent.of_write other data rest writing
  · intro quiet
    apply sent.of_quiet
    intro other data rest writing
    by_cases same : other = id
    · subst same
      exact before data rest writing
    · apply quiet other data rest
      rw [Function.update_of_ne same]
      exact writing

/-- The only writer in `write`, with the part of its bytes that is sent. -/
theorem SentPart.only {data : Pointer} {rest : List UInt8}
    (others : ∀ other, other ≠ id → ¬(writer other).Holding)
    (split : part ++ rest = pointerCodec.encode data) (some : rest ≠ []) :
    SentPart (Function.update writer id (.write data rest)) part := by
  constructor
  · intro other otherData otherRest writing
    by_cases same : other = id
    · subst same
      rw [Function.update_self] at writing
      cases writing
      exact ⟨split, some⟩
    · rw [Function.update_of_ne same] at writing
      have holding : (writer other).Holding := by
        rw [writing]
        trivial
      exact absurd holding (others other same)
  · intro quiet
    exact absurd (Function.update_self ..) (quiet id data rest)

/-- When the only writer in `write` is done, nobody is in `write`. -/
theorem SentPart.done
    (others : ∀ other, other ≠ id → ¬(writer other).Holding)
    (after : ∀ data rest, point ≠ .write data rest) :
    SentPart (Function.update writer id point) [] := by
  apply SentPart.quiet
  intro other data rest writing
  by_cases same : other = id
  · subst same
    rw [Function.update_self] at writing
    exact after data rest writing
  · rw [Function.update_of_ne same] at writing
    apply others other same
    rw [writing]
    trivial

end SentPart

/-! ## Framing -/

/-- Reads return eight bytes or none. -/
def WholeReads (_ : State producers) : Action producers → Prop
  | .read count => count = 0 ∨ count = 8
  | _ => True

instance (state : State producers) (action : Action producers) :
    Decidable (WholeReads state action) :=
  match action with
  | .read count => inferInstanceAs (Decidable (count = 0 ∨ count = 8))
  | .call _ _ | .finish _ | .producerCompleteCb | .lock _ | .append _ _
  | .unlock _ | .callRead => inferInstanceAs (Decidable True)

/-- The stream holds the pointers that were written and not returned yet, and
after them the part of one write that is under way. -/
structure Framed (state : State producers) : Prop where
  exclusive : Exclusive state.locked state.writer
  framed : ∃ pending part, SentPart state.writer part ∧
    state.stream = pointerCodec.encodeAll pending ++ part ∧
      state.written.map Prod.snd = state.returned ++ pending

theorem framed_start : Framed (start producers) where
  exclusive :=
    ⟨fun _ holding => holding.elim, fun _ _ holding => holding.elim⟩
  framed := by
    refine ⟨[], [], SentPart.quiet ?_, rfl, rfl⟩
    intro id data rest writing
    cases writing

/-- A writer moves without touching the stream or the lock. -/
theorem Framed.moveWriter (framing : Framed state) {id : Writer producers}
    {point : WriterPoint} (before : ¬(state.writer id).Holding)
    (after : ¬point.Holding) : Framed (state.moveWriter id point) := by
  obtain ⟨exclusive, pending, part, sent, stream, written⟩ := framing
  refine ⟨exclusive.update fun holding => absurd holding after,
    pending, part, sent.update ?_ ?_, stream, written⟩
  · intro data rest writing
    rw [writing] at before
    exact before trivial
  · rintro data rest rfl
    exact after trivial

theorem Framed.callWrite (framing : Framed state) {id : Writer producers}
    {data : Pointer} (point : state.writer id = .idle) :
    Framed (state.callWrite id data) := by
  have before : ¬(state.writer id).Holding := by
    rw [point]
    exact fun holding => holding
  have after : ¬(WriterPoint.lock data).Holding := fun holding => holding
  have moved := framing.moveWriter before after
  exact ⟨moved.exclusive, moved.framed⟩

/-- Every step that reads whole pointers or nothing keeps the framing. -/
theorem Framed.step (framing : Framed state)
    (whole : WholeReads state action)
    (move : Move medium endMsg state action next) : Framed next := by
  have kept := framing
  obtain ⟨exclusive, pending, part, sent, stream, written⟩ := framing
  cases move with
  | call point => exact kept.callWrite point
  | finish point =>
      apply kept.moveWriter
      · rw [point]
        exact id
      · exact id
  | producerCompleteCb point finished => exact kept.callWrite point
  | @lock writer data point free =>
      rw [free] at exclusive
      have none : part = [] := by
        apply sent.of_quiet
        intro other otherData rest writing
        apply exclusive.not_holding other
        rw [writing]
        trivial
      subst none
      refine ⟨exclusive.acquire, pending, [],
        SentPart.only (fun other _ => exclusive.not_holding other) rfl ?_,
          stream, written⟩
      exact List.ne_nil_of_length_pos
        ((pointerCodec.length_encode data).symm ▸ pointerCodec.size_pos)
  | @appendPart writer data rest count point accepted some =>
      have holding : (state.writer writer).Holding := by
        rw [point]
        trivial
      obtain ⟨split, _⟩ := sent.of_write writer data rest point
      refine ⟨exclusive.update fun _ => holding, pending,
        part ++ rest.take count,
        SentPart.only (fun _ => exclusive.not_holding_of_ne holding) ?_ ?_,
        ?_, written⟩
      · rw [List.append_assoc, List.take_append_drop, split]
      · rw [Ne, List.drop_eq_nil_iff]
        omega
      · rw [stream, List.append_assoc]
  | @appendLast writer data rest count point accepted all =>
      have holding : (state.writer writer).Holding := by
        rw [point]
        trivial
      obtain ⟨split, _⟩ := sent.of_write writer data rest point
      refine ⟨exclusive.update fun _ => holding, pending ++ [data], [],
        SentPart.done (fun _ => exclusive.not_holding_of_ne holding)
          (fun _ _ same => by cases same), ?_, ?_⟩
      · dsimp only
        rw [stream, List.append_assoc, split]
        simp
      · dsimp only
        rw [List.map_append, written, List.append_assoc]
        rfl
  | @unlock writer point =>
      have holding : (state.writer writer).Holding := by
        rw [point]
        trivial
      have released : ¬writer.afterCall.Holding := by
        cases writer <;> exact id
      refine ⟨exclusive.release holding released, pending, part,
        sent.update ?_ ?_, stream, written⟩
      · intro data rest writing
        rw [point] at writing
        cases writing
      · intro data rest same
        rw [same] at released
        exact released trivial
  | callRead point => exact ⟨exclusive, pending, part, sent, stream, written⟩
  | @readAll data count point delivered full =>
      have count_eq : count = 8 := by
        rcases whole with rfl | rfl
        · simp at full
        · rfl
      subst count_eq
      have stored : 8 ≤ state.stream.length := by
        rw [List.length_take] at full
        omega
      rw [stream] at stored
      obtain ⟨oldest, rest, rfl, taken, left⟩ :=
        pointerCodec.exists_of_size_le sent.length_lt stored
      refine ⟨exclusive, rest, part, sent, ?_, ?_⟩
      · dsimp only
        rw [stream]
        exact left
      · have decoded : pointerCodec.decode (state.stream.take 8) = oldest := by
          rw [stream]
          exact (congrArg _ taken).trans (pointerCodec.decode_encode oldest)
        dsimp only
        rw [decoded, written, List.append_assoc]
        rfl
  | @readPart data overwritten count point delivered short =>
      refine ⟨exclusive, pending, part, sent, ?_, written⟩
      dsimp only
      rcases whole with rfl | rfl
      · rw [List.drop_zero, stream]
      · have stored := medium.delivers_le delivered
        rw [List.length_take, Nat.min_eq_left stored] at short
        exact absurd rfl short

theorem framed_of_reachable
    (reachable : (transport medium producers endMsg).ReachableUnder
      WholeReads state) : Framed state := by
  apply reachable.invariant
  · rintro _ rfl
    exact framed_start
  · intro earlier action next _ whole taken framing
    exact framing.step whole (.of_step taken)

theorem Framed.returned_isPrefix (framing : Framed state) :
    state.returned <+: state.written.map Prod.snd := by
  obtain ⟨pending, _, _, _, written⟩ := framing.framed
  rw [written]
  exact List.prefix_append _ _

/-! ## Order of the writes -/

/-- The pointers a writer has written. -/
def pointersOf (writer : Writer producers)
    (written : List (Writer producers × Pointer)) : List Pointer :=
  (written.filter fun entry => entry.1 = writer).map Prod.snd

/-- The pointer a writer has been called with and has not written yet. -/
def WriterPoint.inHand : WriterPoint → List Pointer
  | .lock data | .write data _ => [data]
  | .idle | .unlock | .finished => []

/-- The calls the main thread has made when it is at a point. -/
def WriterPoint.mainCalls (endMsg : Pointer) : WriterPoint → List Pointer
  | .idle => []
  | .lock _ | .write _ _ | .unlock | .finished => [endMsg]

theorem WriterPoint.mainCalls_congr {first second : WriterPoint}
    (idle : first = .idle ↔ second = .idle) :
    first.mainCalls endMsg = second.mainCalls endMsg := by
  cases first <;> cases second <;> simp_all [mainCalls]

@[simp]
theorem pointersOf_append_self (writer : Writer producers)
    (written : List (Writer producers × Pointer)) (data : Pointer) :
    pointersOf writer (written ++ [(writer, data)]) =
      pointersOf writer written ++ [data] := by
  simp [pointersOf]

theorem pointersOf_append_of_ne {writer other : Writer producers}
    (written : List (Writer producers × Pointer)) (data : Pointer)
    (different : writer ≠ other) :
    pointersOf other (written ++ [(writer, data)]) =
      pointersOf other written := by
  simp [pointersOf, different]

theorem pointersOf_eq_nil_iff {writer : Writer producers}
    {written : List (Writer producers × Pointer)} :
    pointersOf writer written = [] ↔ ∀ entry ∈ written, entry.1 ≠ writer := by
  simp [pointersOf]

/-- Every writer writes what it was called with, in the order of its calls,
and the main thread calls once, after the producers have finished. -/
structure Ordered (endMsg : Pointer) (state : State producers) : Prop where
  program_order : ∀ writer, pointersOf writer state.written ++
    (state.writer writer).inHand = state.called writer
  main_waits : state.writer .main = .idle ∨ ∀ producerId,
    state.writer (.producer producerId) = .finished
  main_called : state.called .main =
    (state.writer .main).mainCalls endMsg
  main_last : state.written.Pairwise fun earlier _ => earlier.1 ≠ .main

theorem ordered_start : Ordered endMsg (start producers) where
  program_order := fun _ => rfl
  main_waits := Or.inl rfl
  main_called := rfl
  main_last := List.Pairwise.nil

/-- While a producer has not finished, the main thread has not started. -/
theorem Ordered.main_idle (ordered : Ordered endMsg state)
    {producerId : Fin producers}
    (running : state.writer (.producer producerId) ≠ .finished) :
    state.writer .main = .idle := by
  rcases ordered.main_waits with idle | finished
  · exact idle
  · exact absurd (finished producerId) running

/-- The main thread still waits, or the producers are still finished, after
another move of a writer that had not finished. -/
theorem Ordered.waits_update (ordered : Ordered endMsg state)
    {id : Writer producers} {point : WriterPoint}
    (running : state.writer id ≠ .finished)
    (starts : id = .main → point ≠ .idle → ∀ producerId,
      state.writer (.producer producerId) = .finished) :
    Function.update state.writer id point .main = .idle ∨ ∀ producerId,
      Function.update state.writer id point (.producer producerId) =
        .finished := by
  cases id with
  | producer moved =>
      left
      rw [Function.update_of_ne (by simp)]
      exact ordered.main_idle running
  | main =>
      rw [Function.update_self]
      by_cases idle : point = .idle
      · exact Or.inl idle
      · right
        intro producerId
        rw [Function.update_of_ne (by simp)]
        exact starts rfl idle producerId

/-- A writer moves between two calls' ends without completing a write. -/
theorem Ordered.advance (ordered : Ordered endMsg state)
    {id : Writer producers} {point : WriterPoint}
    (hand : point.inHand = (state.writer id).inHand)
    (running : state.writer id ≠ .finished)
    (idle : id = .main → (point = .idle ↔ state.writer .main = .idle)) :
    Ordered endMsg (state.moveWriter id point) := by
  have waits : ∀ later, id = .main → later = point → later ≠ .idle →
      ∀ producerId, state.writer (.producer producerId) = .finished := by
    rintro _ isMain rfl busy
    rcases ordered.main_waits with was | finished
    · exact absurd ((idle isMain).mpr was) busy
    · exact finished
  refine ⟨?_, ordered.waits_update running
    fun isMain => waits point isMain rfl, ?_, ordered.main_last⟩
  · exact ThreadFamily.forall_update
      (fun writer (point : WriterPoint) =>
        pointersOf writer state.written ++ point.inHand =
          state.called writer)
      ordered.program_order (hand ▸ ordered.program_order id)
  · have called := ordered.main_called
    dsimp only [State.moveWriter]
    by_cases isMain : id = .main
    · subst isMain
      rw [Function.update_self, called]
      exact (WriterPoint.mainCalls_congr (idle rfl)).symm
    · rw [Function.update_of_ne (Ne.symm isMain)]
      exact called

/-- A call of the write function begins. -/
theorem Ordered.callWrite (ordered : Ordered endMsg state)
    {id : Writer producers} {data : Pointer}
    (point : state.writer id = .idle)
    (starts : id = .main → data = endMsg ∧ ∀ producerId,
      state.writer (.producer producerId) = .finished) :
    Ordered endMsg (state.callWrite id data) := by
  have running : state.writer id ≠ .finished := by
    rw [point]
    exact WriterPoint.noConfusion
  refine ⟨?_, ordered.waits_update running
    fun isMain _ => (starts isMain).2, ?_, ordered.main_last⟩
  · intro writer
    dsimp only [State.callWrite, State.moveWriter]
    by_cases same : writer = id
    · subst same
      have order := ordered.program_order writer
      rw [point, WriterPoint.inHand, List.append_nil] at order
      rw [Function.update_self, Function.update_self, WriterPoint.inHand,
        order]
    · rw [Function.update_of_ne same, Function.update_of_ne same]
      exact ordered.program_order writer
  · have called := ordered.main_called
    dsimp only [State.callWrite, State.moveWriter]
    by_cases isMain : id = .main
    · subst isMain
      rw [point] at called
      rw [Function.update_self, Function.update_self, called,
        (starts rfl).1]
      rfl
    · rw [Function.update_of_ne (Ne.symm isMain),
        Function.update_of_ne (Ne.symm isMain)]
      exact called

/-- Before its only write the main thread has written nothing. -/
theorem Ordered.no_main (ordered : Ordered endMsg state)
    {id : Writer producers} {data : Pointer} {rest : List UInt8}
    (point : state.writer id = .write data rest) :
    ∀ entry ∈ state.written, entry.1 ≠ .main := by
  rw [← pointersOf_eq_nil_iff]
  have order := ordered.program_order .main
  rw [ordered.main_called] at order
  cases id with
  | producer producerId =>
      have running : state.writer (.producer producerId) ≠ .finished := by
        rw [point]
        exact WriterPoint.noConfusion
      rw [ordered.main_idle running] at order
      exact (List.append_eq_nil_iff.mp order).1
  | main =>
      rw [point] at order
      have lengths := congrArg List.length order
      rw [List.length_append] at lengths
      apply List.eq_nil_of_length_eq_zero
      change _ + 1 = 1 at lengths
      omega

/-- A write completes. -/
theorem Ordered.complete (ordered : Ordered endMsg state)
    {id : Writer producers} {data : Pointer} {rest stream : List UInt8}
    (point : state.writer id = .write data rest) :
    Ordered endMsg { state.moveWriter id .unlock with
      stream := stream
      written := state.written ++ [(id, data)] } := by
  have running : state.writer id ≠ .finished := by
    rw [point]
    exact WriterPoint.noConfusion
  have started : id = .main → ∀ producerId,
      state.writer (.producer producerId) = .finished := by
    rintro rfl
    rcases ordered.main_waits with idle | finished
    · rw [point] at idle
      cases idle
    · exact finished
  refine ⟨?_, ordered.waits_update running fun isMain _ => started isMain,
    ?_, ?_⟩
  · intro writer
    dsimp only [State.moveWriter]
    by_cases same : writer = id
    · subst same
      have order := ordered.program_order writer
      rw [point] at order
      rw [Function.update_self, pointersOf_append_self]
      exact (List.append_nil _).trans order
    · rw [Function.update_of_ne same,
        pointersOf_append_of_ne _ _ (Ne.symm same)]
      exact ordered.program_order writer
  · have called := ordered.main_called
    dsimp only [State.moveWriter]
    by_cases isMain : id = .main
    · subst isMain
      rw [point] at called
      rw [Function.update_self]
      exact called
    · rw [Function.update_of_ne (Ne.symm isMain)]
      exact called
  · dsimp only
    rw [List.pairwise_append]
    refine ⟨ordered.main_last, List.pairwise_singleton _ _, ?_⟩
    intro entry mem _ _
    exact ordered.no_main point entry mem

/-- Every step keeps the order of the writes. -/
theorem Ordered.step (ordered : Ordered endMsg state)
    (move : Move medium endMsg state action next) : Ordered endMsg next := by
  cases move with
  | call point => exact ordered.callWrite point (fun isMain => by cases isMain)
  | finish point =>
      apply ordered.advance
      · rw [point]
        rfl
      · rw [point]
        exact WriterPoint.noConfusion
      · exact fun isMain => by cases isMain
  | producerCompleteCb point finished =>
      exact ordered.callWrite point fun _ => ⟨rfl, finished⟩
  | @lock writer data point free =>
      have moved := ordered.advance
        (show (WriterPoint.write data (pointerCodec.encode data)).inHand =
          (state.writer writer).inHand by rw [point]; rfl)
        (by rw [point]; exact WriterPoint.noConfusion)
        (by rintro rfl; rw [point]; simp)
      exact ⟨moved.program_order, moved.main_waits, moved.main_called,
        moved.main_last⟩
  | @appendPart writer data rest count point accepted some =>
      have moved := ordered.advance
        (show (WriterPoint.write data (rest.drop count)).inHand =
          (state.writer writer).inHand by rw [point]; rfl)
        (by rw [point]; exact WriterPoint.noConfusion)
        (by rintro rfl; rw [point]; simp)
      exact ⟨moved.program_order, moved.main_waits, moved.main_called,
        moved.main_last⟩
  | appendLast point accepted all => exact ordered.complete point
  | @unlock writer point =>
      have moved := ordered.advance
        (show writer.afterCall.inHand = (state.writer writer).inHand by
          rw [point]; cases writer <;> rfl)
        (by rw [point]; exact WriterPoint.noConfusion)
        (by rintro rfl; rw [point]; simp [Writer.afterCall])
      exact ⟨moved.program_order, moved.main_waits, moved.main_called,
        moved.main_last⟩
  | callRead point =>
      exact ⟨ordered.program_order, ordered.main_waits, ordered.main_called,
        ordered.main_last⟩
  | readAll point delivered full =>
      exact ⟨ordered.program_order, ordered.main_waits, ordered.main_called,
        ordered.main_last⟩
  | readPart point delivered short =>
      exact ⟨ordered.program_order, ordered.main_waits, ordered.main_called,
        ordered.main_last⟩

theorem ordered_of_reachable
    (reachable : (transport medium producers endMsg).Reachable state) :
    Ordered endMsg state := by
  apply reachable.invariant
  · rintro _ rfl
    exact ordered_start
  · intro earlier action next _ taken ordered
    exact ordered.step (.of_step taken)

/-- Once the main thread has written, nothing follows, the pointer is that of
the end message and every producer has written all it was called with. -/
theorem Ordered.main_written (ordered : Ordered endMsg state)
    {before after : List (Writer producers × Pointer)} {data : Pointer}
    (written : state.written = before ++ (.main, data) :: after) :
    data = endMsg ∧ after = [] ∧ ∀ producerId,
      pointersOf (.producer producerId) before =
        state.called (.producer producerId) := by
  have last := ordered.main_last
  rw [written, List.pairwise_append, List.pairwise_cons] at last
  have none : after = [] := by
    apply List.eq_nil_iff_forall_not_mem.mpr
    intro entry mem
    exact last.2.1.1 entry mem rfl
  subst none
  have order := ordered.program_order .main
  rw [written, pointersOf_append_self, ordered.main_called] at order
  have called : (state.writer .main).mainCalls endMsg = [endMsg] := by
    cases point : state.writer .main with
    | idle =>
        rw [point] at order
        simp [WriterPoint.mainCalls] at order
    | lock _ | write _ _ | unlock | finished => rfl
  rw [called, List.append_assoc] at order
  have mem : data ∈ [endMsg] := by
    rw [← order]
    simp
  refine ⟨List.mem_singleton.mp mem, rfl, ?_⟩
  intro producerId
  have busy : state.writer .main ≠ .idle := by
    intro idle
    rw [idle] at called
    cases called
  have finished := (ordered.main_waits.resolve_left busy) producerId
  have own := ordered.program_order (.producer producerId)
  rw [written, pointersOf_append_of_ne _ _ (by simp), finished] at own
  exact (List.append_nil _).symm.trans own

/-! ## Pipes -/

/-- What the reader has returned, whatever the interleaving: a part of the
writes in their order, which keeps every producer's order and ends with the
end message. -/
structure KeepsMessages (endMsg : Pointer) (state : State producers) :
    Prop where
  in_order : state.returned <+: state.written.map Prod.snd
  program_order : ∀ producerId,
    pointersOf (.producer producerId) state.written <+:
      state.called (.producer producerId)
  end_last : ∀ before data after,
    state.written = before ++ (.main, data) :: after →
      data = endMsg ∧
        (∀ producerId, pointersOf (.producer producerId) before =
          state.called (.producer producerId)) ∧
        (before.length < state.returned.length →
          state.returned = before.map Prod.snd ++ [endMsg])

theorem KeepsMessages.of_framed (framing : Framed state)
    (ordered : Ordered endMsg state) : KeepsMessages endMsg state where
  in_order := framing.returned_isPrefix
  program_order := fun producerId =>
    ⟨_, ordered.program_order (.producer producerId)⟩
  end_last := by
    intro before data after written
    obtain ⟨rfl, rfl, all⟩ := ordered.main_written written
    refine ⟨rfl, all, fun returned => ?_⟩
    have inOrder := framing.returned_isPrefix
    rw [written, List.map_append] at inOrder
    apply inOrder.eq_of_length_le
    rw [List.length_append, List.length_map]
    exact returned

/-- A write on a pipe has appended all of its bytes or none. -/
def WholeWrites (state : State producers) : Prop :=
  ∀ writer data rest, state.writer writer = .write data rest →
    rest = pointerCodec.encode data

theorem WholeWrites.step {capacity : Nat} (whole : WholeWrites state)
    (move : Move (pipe capacity) endMsg state action next) :
    WholeWrites next := by
  have moved : ∀ id point, (∀ data rest, point = .write data rest →
      rest = pointerCodec.encode data) →
        WholeWrites (state.moveWriter id point) := by
    intro id point own writer
    exact ThreadFamily.forall_update
      (fun _ (point : WriterPoint) => ∀ data rest,
        point = .write data rest → rest = pointerCodec.encode data)
      whole own writer
  cases move with
  | call point | producerCompleteCb point | finish point =>
      exact moved _ _ fun _ _ same => by cases same
  | @lock writer data point free =>
      apply moved
      rintro _ _ same
      cases same
      rfl
  | appendPart point accepted some =>
      exact absurd accepted.1 (Nat.ne_of_lt some)
  | appendLast point accepted all =>
      exact moved _ _ fun _ _ same => by cases same
  | @unlock writer point =>
      apply moved
      intro data rest same
      cases writer <;> cases same
  | callRead | readAll | readPart => exact whole

/-- The bytes in a pipe are those of whole pointers. -/
theorem Framed.wholeRead (framing : Framed state)
    (whole : WholeWrites state) {count : Nat}
    (delivers : PipeDelivers state.stream.length count) :
    count = 0 ∨ count = 8 := by
  obtain ⟨pending, part, sent, stream, _⟩ := framing.framed
  have none : part = [] := by
    by_cases quiet : ∀ id data rest, state.writer id ≠ .write data rest
    · exact sent.of_quiet quiet
    · push Not at quiet
      obtain ⟨id, data, rest, writing⟩ := quiet
      obtain ⟨split, _⟩ := sent.of_write id data rest writing
      rw [whole id data rest writing] at split
      exact List.append_left_eq_self.mp split
  have length := pointerCodec.length_encodeAll pending
  unfold PipeDelivers at delivers
  rw [stream, none, List.append_nil, length] at delivers
  change count = min 8 (pending.length * 8) at delivers
  omega

theorem wholeWrites_of_reachable {capacity : Nat}
    (reachable : (benchmarkPipe capacity producers endMsg).Reachable state) :
    WholeWrites state := by
  apply reachable.invariant
  · rintro _ rfl writer data rest writing
    cases writing
  · intro earlier action next _ taken whole
    exact whole.step (.of_step taken)

theorem wholeReads_of_reachable {capacity : Nat}
    (reachable : (benchmarkPipe capacity producers endMsg).Reachable state) :
    (benchmarkPipe capacity producers endMsg).ReachableUnder WholeReads
      state := by
  apply reachable.reachableUnder
  intro earlier action next earlierReachable taken
  have framing := framed_of_reachable earlierReachable
  have whole := wholeWrites_of_reachable earlierReachable.reachable
  cases Move.of_step taken with
  | readAll point delivered full => exact framing.wholeRead whole delivered
  | readPart point delivered short => exact framing.wholeRead whole delivered
  | call | finish | producerCompleteCb | lock | appendPart | appendLast
  | unlock | callRead => trivial

/-- A pipe of any capacity keeps every message whole and in order. -/
theorem benchmarkPipe_keepsMessages {capacity : Nat}
    (reachable : (benchmarkPipe capacity producers endMsg).Reachable state) :
    KeepsMessages endMsg state :=
  .of_framed (framed_of_reachable (wholeReads_of_reachable reachable))
    (ordered_of_reachable reachable)

/-- Two producers write a pointer each, the main thread the end message, and
the reader returns all three. -/
def endRun (first second : Fin 2) : List (Action 2) :=
  [.call first 5, .call second 6, .lock (.producer second), .callRead,
    .read 0, .append (.producer second) 8, .read 8,
    .unlock (.producer second), .lock (.producer first),
    .append (.producer first) 8, .unlock (.producer first), .finish second,
    .finish first, .callRead, .producerCompleteCb, .lock .main,
    .append .main 8, .read 8, .callRead, .read 8, .unlock .main]

theorem benchmarkPipe_keepsMessages_two :
    ∃ state : State 2, (benchmarkPipe 16 2 7).Reachable state ∧
      state.returned = [6, 5, 7] ∧ state.written.map Prod.snd = [6, 5, 7] ∧
        KeepsMessages 7 state := by
  have initial : (benchmarkPipe 16 2 7).initial (start 2) := rfl
  have reachable := (TransitionSystem.Reachable.of_initial initial).execute
    (show (benchmarkPipe 16 2 7).execute (start 2) (endRun 0 1) = some _
      from rfl)
  exact ⟨_, reachable, by decide, by decide,
    benchmarkPipe_keepsMessages reachable⟩

/-! ## Socketpairs -/

/-- As long as every read returns eight bytes or none, a socketpair keeps the
pointers in order. -/
theorem benchmarkSocketpair_returned_isPrefix
    (reachable : (benchmarkSocketpair producers endMsg).ReachableUnder
      WholeReads state) :
    state.returned <+: state.written.map Prod.snd :=
  (framed_of_reachable reachable).returned_isPrefix

theorem benchmarkSocketpair_returned_isPrefix_two :
    ∃ state : State 2,
      (benchmarkSocketpair 2 7).ReachableUnder WholeReads state ∧
        state.returned = [6, 5, 7] ∧
        state.returned <+: state.written.map Prod.snd := by
  have initial : (benchmarkSocketpair 2 7).initial (start 2) := rfl
  have reachable :=
    (TransitionSystem.ReachableUnder.of_initial initial).executeUnder
      (show (benchmarkSocketpair 2 7).executeUnder WholeReads (start 2)
        (endRun 0 1) = some _ from rfl)
  exact ⟨_, reachable, by decide,
    benchmarkSocketpair_returned_isPrefix reachable⟩

/-- Two pointers are written and the first `read` returns three bytes, which
the loop discards. -/
def shortReadRun (producerId : Fin 1) : List (Action 1) :=
  [.callRead, .call producerId 0x0807060504030201,
    .lock (.producer producerId), .append (.producer producerId) 8,
    .unlock (.producer producerId), .read 3,
    .call producerId 0x1817161514131211, .lock (.producer producerId),
    .append (.producer producerId) 8, .read 8]

/-- The reader returns a pointer that nobody has written: the end of the
first one and the beginning of the second. -/
theorem shortRead_tears_pointer :
    ∃ state : State 1, (benchmarkSocketpair 1 7).Reachable state ∧
      state.returned = [0x1312110807060504] ∧
      ¬state.returned <+: state.written.map Prod.snd := by
  have initial : (benchmarkSocketpair 1 7).initial (start 1) := rfl
  have reachable := (TransitionSystem.Reachable.of_initial initial).execute
    (show (benchmarkSocketpair 1 7).execute (start 1) (shortReadRun 0) =
      some _ from rfl)
  exact ⟨_, reachable, by decide, by decide⟩

end PointerTransport

end LatencyBenchmark
