import LatencyBenchmark.TicketCasPublication
import Mathlib.Data.Int.Bitwise
import Mathlib.Logic.Function.Iterate

/-!
# The lock-free ring write against the locked one

`ThreadTransWriteFixture` assigns ring slots either inside a lock, one
`AsignInLock` after another, or lock-free: a thread writes the slot of its
ticket at once, out of order, and publishes the ticket in order.

Both are described by the set of tickets whose slot has been written.  A ring
is determined by that set and by its initial content, so once the lock-free
run has written exactly the tickets below the total, its ring is the one the
locked calls produce.
-/

namespace LatencyBenchmark

namespace TicketCas

variable {threads : Nat} {Address : Type*}

/-- `RING_CAPACITY`. -/
def ringCapacity : Nat :=
  4096

/-- `MUGGLE_IDX_IN_POW_OF_2_RING(i, cap)`, that is `i & (cap - 1)`. -/
def muggleIdxInPowOf2Ring (index : Int) (capacity : Nat) : Nat :=
  (Int.land index ((capacity : Int) - 1)).toNat

/-- The `data` pointers of `ring`. -/
abbrev Ring (Address : Type*) :=
  Nat → Address

/-- `ring[idx].data = &datas[idx]` at the slot of `pos`. -/
def assignSlot (datas : Nat → Address) (pos : Int) (ring : Ring Address) :
    Ring Address :=
  let idx := muggleIdxInPowOf2Ring pos ringCapacity
  Function.update ring idx (datas idx)

/-- `ThreadTransWriteFixture`, whose `CAS` body writes the slot of its ticket
before it enters the exchange loop. -/
def ThreadTransWriteFixture (datas : Nat → Address) :
    Fixture (Ring Address) where
  slotWrite := some (assignSlot datas)

/-- The fields of the fixture that `AsignInLock` reads and writes. -/
structure LockedState (Address : Type*) where
  ring : Ring Address
  cursor : Int

/-- `ThreadTransWriteFixture::AsignInLock`. -/
def asignInLock (datas : Nat → Address) (state : LockedState Address) :
    LockedState Address where
  ring := assignSlot datas state.cursor state.ring
  cursor := toInt32 (state.cursor + 1)

theorem muggleIdxInPowOf2Ring_eq_mod {index : Int} (nonneg : 0 ≤ index) :
    muggleIdxInPowOf2Ring index ringCapacity = (index % 4096).toNat := by
  obtain ⟨value, rfl⟩ := Int.eq_ofNat_of_zero_le nonneg
  have masked : value &&& 4095 = value % 4096 :=
    Nat.and_two_pow_sub_one_eq_mod value 12
  change (Int.land (value : Int) ((4095 : Nat) : Int)).toNat = _
  change (((value &&& 4095 : Nat) : Int)).toNat = _
  rw [masked]
  omega

/-- The ring after the slots of some tickets have been assigned, in whatever
order: those slots hold their address and the others their initial value. -/
structure HoldsSlotsOf (datas : Nat → Address) (initialRing : Ring Address)
    (written : Int → Prop) (ring : Ring Address) : Prop where
  assigned : ∀ ticket, written ticket →
    ring (muggleIdxInPowOf2Ring ticket ringCapacity) =
      datas (muggleIdxInPowOf2Ring ticket ringCapacity)
  untouched : ∀ slot,
    (∀ ticket, written ticket →
      muggleIdxInPowOf2Ring ticket ringCapacity ≠ slot) →
    ring slot = initialRing slot

/-- Two rings that hold the slots of the same tickets are equal. -/
theorem HoldsSlotsOf.unique {datas : Nat → Address}
    {initialRing first second : Ring Address} {written : Int → Prop}
    (holdsFirst : HoldsSlotsOf datas initialRing written first)
    (holdsSecond : HoldsSlotsOf datas initialRing written second) :
    first = second := by
  funext slot
  by_cases hit : ∃ ticket, written ticket ∧
      muggleIdxInPowOf2Ring ticket ringCapacity = slot
  · obtain ⟨ticket, wrote, rfl⟩ := hit
    rw [holdsFirst.assigned ticket wrote, holdsSecond.assigned ticket wrote]
  · have missed : ∀ ticket, written ticket →
        muggleIdxInPowOf2Ring ticket ringCapacity ≠ slot := by
      intro ticket wrote same
      exact hit ⟨ticket, wrote, same⟩
    rw [holdsFirst.untouched slot missed, holdsSecond.untouched slot missed]

/-- Assigning the slot of one more ticket. -/
theorem HoldsSlotsOf.assignSlot {datas : Nat → Address}
    {initialRing ring : Ring Address} {written wider : Int → Prop} {pos : Int}
    (holds : HoldsSlotsOf datas initialRing written ring)
    (widens : ∀ ticket, wider ticket ↔ written ticket ∨ ticket = pos) :
    HoldsSlotsOf datas initialRing wider
      (TicketCas.assignSlot datas pos ring) := by
  constructor
  · intro ticket wrote
    by_cases same : muggleIdxInPowOf2Ring ticket ringCapacity =
        muggleIdxInPowOf2Ring pos ringCapacity
    · simp [TicketCas.assignSlot, same]
    · have older : written ticket := by
        rcases (widens ticket).mp wrote with older | rfl
        · exact older
        · exact (same rfl).elim
      simp only [TicketCas.assignSlot, Function.update_of_ne same]
      exact holds.assigned ticket older
  · intro slot missed
    have different : slot ≠ muggleIdxInPowOf2Ring pos ringCapacity := by
      rintro rfl
      exact missed pos ((widens pos).mpr (Or.inr rfl)) rfl
    simp only [TicketCas.assignSlot, Function.update_of_ne different]
    apply holds.untouched
    intro ticket wrote
    exact missed ticket ((widens ticket).mpr (Or.inl wrote))

/-- `count` calls of `AsignInLock` one after another. -/
theorem asignInLock_iterate (datas : Nat → Address)
    (initialRing : Ring Address) {count : Nat} (few : count < 2 ^ 31) :
    ((asignInLock datas)^[count] ⟨initialRing, 0⟩).cursor = count ∧
      HoldsSlotsOf datas initialRing
        (fun ticket => 0 ≤ ticket ∧ ticket < count)
        ((asignInLock datas)^[count] ⟨initialRing, 0⟩).ring := by
  induction count with
  | zero =>
      refine ⟨rfl, ?_, ?_⟩
      · intro ticket inRange
        omega
      · intro slot _
        rfl
  | succ count induction =>
      obtain ⟨cursorEq, holds⟩ := induction (by omega)
      rw [Function.iterate_succ_apply']
      constructor
      · change toInt32 (_ + 1) = _
        rw [cursorEq]
        push_cast
        apply toInt32_eq_self <;> omega
      · change HoldsSlotsOf datas initialRing _
          (TicketCas.assignSlot datas _ _)
        rw [cursorEq]
        apply holds.assignSlot
        intro ticket
        push_cast
        omega

/-- A ticket was drawn and its slot has been written. -/
def Written (state : State threads (Ring Address)) (ticket : Int) : Prop :=
  0 ≤ ticket ∧ ticket < state.next ∧
    ∀ index, (state.thread index).point ≠ .slotWrite ticket

/-- A step that neither draws a ticket nor writes a slot leaves the written
tickets as they are. -/
theorem written_moveTo {state : State threads (Ring Address)}
    {index : Fin threads} {point : ProgramPoint}
    (before : ∀ ticket, (state.thread index).point ≠ .slotWrite ticket)
    (after : ∀ ticket, point ≠ .slotWrite ticket) (ticket : Int) :
    Written (state.moveTo index point) ticket ↔ Written state ticket := by
  have points : (∀ other,
      ((state.moveTo index point).thread other).point ≠ .slotWrite ticket) ↔
      ∀ other, (state.thread other).point ≠ .slotWrite ticket := by
    refine forall_congr' fun other => ?_
    by_cases same : other = index
    · subst same
      simp [State.moveTo, before ticket, after ticket]
    · simp [State.moveTo, Function.update_of_ne same]
  exact and_congr_right fun _ => and_congr_right fun _ => points

theorem written_fetchAdd {datas : Nat → Address} {total : Nat}
    {state : State threads (Ring Address)} {index : Fin threads}
    (invariant : Invariant total state) (few : total < 2 ^ 31)
    (point : (state.thread index).point = .fetchAdd)
    (positive : 0 < (state.thread index).remaining) (ticket : Int) :
    Written (state.fetchAdd (ThreadTransWriteFixture datas) index) ticket ↔
      Written state ticket := by
  have nextValue : (state.fetchAdd (ThreadTransWriteFixture datas) index).next
      = state.next + 1 := invariant.next_succ few positive
  have pointNew : ((state.fetchAdd (ThreadTransWriteFixture datas)
      index).thread index).point = .slotWrite state.next := by
    simp [State.fetchAdd, ThreadTransWriteFixture]
  have pointOther : ∀ other, other ≠ index →
      (state.fetchAdd (ThreadTransWriteFixture datas) index).thread other =
        state.thread other := by
    intro other different
    simp [State.fetchAdd, Function.update_of_ne different]
  constructor
  · rintro ⟨nonneg, before, notPending⟩
    have older : ticket ≠ state.next := by
      rintro rfl
      exact notPending index pointNew
    refine ⟨nonneg, by omega, ?_⟩
    intro other
    by_cases same : other = index
    · simp [same, point]
    · rw [← pointOther other same]
      exact notPending other
  · rintro ⟨nonneg, before, notPending⟩
    refine ⟨nonneg, by omega, ?_⟩
    intro other
    by_cases same : other = index
    · rw [same, pointNew]
      intro equal
      cases equal
      exact lt_irrefl _ before
    · rw [pointOther other same]
      exact notPending other

theorem written_slotWrite {datas : Nat → Address} {total : Nat}
    {state : State threads (Ring Address)} {index : Fin threads} {pos : Int}
    (invariant : Invariant total state)
    (point : (state.thread index).point = .slotWrite pos) (ticket : Int) :
    Written { state.moveTo index (.exchange pos pos) with
        memory := assignSlot datas pos state.memory } ticket ↔
      Written state ticket ∨ ticket = pos := by
  have holding : state.Holds index pos := by
    simp [State.Holds, point, ProgramPoint.ticket]
  have bounds := invariant.holder_bounds index pos holding
  have cursorNonneg := invariant.cursor_nonneg
  constructor
  · rintro ⟨nonneg, before, notPending⟩
    by_cases same : ticket = pos
    · exact Or.inr same
    · refine Or.inl ⟨nonneg, before, ?_⟩
      intro other
      by_cases atIndex : other = index
      · rw [atIndex, point]
        intro equal
        cases equal
        exact same rfl
      · have there := notPending other
        simpa [State.moveTo, Function.update_of_ne atIndex] using there
  · rintro (⟨nonneg, before, notPending⟩ | rfl)
    · refine ⟨nonneg, before, ?_⟩
      intro other
      by_cases atIndex : other = index
      · simp [State.moveTo, atIndex]
      · simpa [State.moveTo, Function.update_of_ne atIndex] using
          notPending other
    · refine ⟨by omega, bounds.2, ?_⟩
      intro other
      by_cases atIndex : other = index
      · simp [State.moveTo, atIndex]
      · simp only [State.moveTo, Function.update_of_ne atIndex]
        intro pending
        have held : state.Holds other ticket := by
          simp [State.Holds, pending, ProgramPoint.ticket]
        exact atIndex (invariant.holder_unique other index ticket held holding)

/-- One step of the ring benchmark keeps the ring in line with the set of
written tickets. -/
theorem HoldsSlotsOf.step {datas : Nat → Address}
    {initialRing : Ring Address} {total : Nat}
    {state next : State threads (Ring Address)} {action : Action threads}
    (holds : HoldsSlotsOf datas initialRing (Written state) state.memory)
    (invariant : Invariant total state) (few : total < 2 ^ 31)
    (taken : TicketCas.step (ThreadTransWriteFixture datas) state action =
      some next) :
    HoldsSlotsOf datas initialRing (Written next) next.memory := by
  have keep : ∀ {point : ProgramPoint} {index : Fin threads},
      (∀ ticket, (state.thread index).point ≠ .slotWrite ticket) →
        (∀ ticket, point ≠ .slotWrite ticket) →
          HoldsSlotsOf datas initialRing
            (Written (state.moveTo index point)) state.memory := by
    intro point index before after
    have same : Written (state.moveTo index point) = Written state :=
      funext fun ticket => propext (written_moveTo before after ticket)
    rw [same]
    exact holds
  rcases step_cases taken with
    ⟨index, _, point, positive, rfl⟩ |
    ⟨index, pos, write, _, point, slot, rfl⟩ |
    ⟨index, pos, curPos, spurious, _, point, rfl⟩ |
    ⟨index, pos, _, point, rfl⟩
  · have same : Written
        (state.fetchAdd (ThreadTransWriteFixture datas) index) =
          Written state :=
      funext fun ticket =>
        propext (written_fetchAdd invariant few point positive ticket)
    rw [same]
    exact holds
  · cases slot
    exact holds.assignSlot (written_slotWrite invariant point)
  · have current := invariant.expected_eq index pos curPos point
    subst current
    rcases exchange_cases state index curPos spurious with
      ⟨_, outcome⟩ | ⟨_, _, outcome⟩ | ⟨_, _, outcome⟩ <;> rw [outcome]
    · exact keep (by simp [point]) (by simp)
    · exact keep (by simp [point]) (by simp)
    · exact keep (by simp [point]) (by simp)
  · exact keep (by simp [point]) (by simp)

/-- The ring of every reachable state holds exactly the written slots. -/
theorem holdsSlotsOf_of_reachable {datas : Nat → Address}
    {initialRing : Ring Address} {iterations : Fin threads → Nat}
    {state : State threads (Ring Address)}
    (few : ∑ index, iterations index < 2 ^ 31)
    (reachable : (system (ThreadTransWriteFixture datas) iterations
      initialRing).Reachable state) :
    HoldsSlotsOf datas initialRing (Written state) state.memory := by
  apply reachable.invariant
  · intro initial isInitial
    cases isInitial
    refine ⟨?_, fun _ _ => rfl⟩
    rintro ticket ⟨nonneg, before, _⟩
    simp only [start] at before
    omega
  · intro before action after reached taken holds
    exact holds.step (invariant_of_reachable few reached) few taken

/-- Every ticket the cursor has passed has its slot written. -/
theorem written_of_lt_cursor {total : Nat}
    {state : State threads (Ring Address)} (invariant : Invariant total state)
    {ticket : Int} (nonneg : 0 ≤ ticket) (passed : ticket < state.cursor) :
    Written state ticket := by
  refine ⟨nonneg, lt_of_lt_of_le passed invariant.cursor_le_next, ?_⟩
  intro index pending
  have held : state.Holds index ticket := by
    simp [State.Holds, pending, ProgramPoint.ticket]
  have bounds := invariant.holder_bounds index ticket held
  omega

/-- The step thread `index` takes next, with an exchange that fails only on a
real mismatch. -/
def ownAction (state : State threads (Ring Address)) (index : Fin threads) :
    Action threads :=
  match (state.thread index).point with
  | .fetchAdd => .fetchAdd index
  | .slotWrite _ => .slotWrite index
  | .exchange _ _ => .exchange index false
  | .yield _ => .yield index

/-- Run thread `index` alone for a number of its own steps. -/
def runAlone (fixture : Fixture (Ring Address)) (index : Fin threads) :
    Nat → State threads (Ring Address) → Option (State threads (Ring Address))
  | 0, state => some state
  | steps + 1, state =>
      (step fixture state (ownAction state index)).bind
        (runAlone fixture index steps)

/-- The cursor or `next` grew, or the thread completed its pending slot
write. -/
def Progress (datas : Nat → Address) (index : Fin threads)
    (before after : State threads (Ring Address)) : Prop :=
  before.cursor < after.cursor ∨ before.next < after.next ∨
    ∃ pos, (before.thread index).point = .slotWrite pos ∧
      (after.thread index).point = .exchange pos pos ∧
        after.memory (muggleIdxInPowOf2Ring pos ringCapacity) =
          datas (muggleIdxInPowOf2Ring pos ringCapacity)

/-- A thread whose ticket the cursor has reached publishes it, running
alone. -/
theorem exchange_progress (datas : Nat → Address) {total : Nat}
    {state : State threads (Ring Address)} {index : Fin threads}
    (invariant : Invariant total state) (few : total < 2 ^ 31)
    (point : (state.thread index).point =
      .exchange state.cursor state.cursor) :
    ∃ after, step (ThreadTransWriteFixture datas) state
        (.exchange index false) = some after ∧
      state.cursor < after.cursor := by
  have holding : state.Holds index state.cursor := by
    simp [State.Holds, point, ProgramPoint.ticket]
  have bounds := invariant.holder_bounds index state.cursor holding
  have cursorNonneg := invariant.cursor_nonneg
  have budget := invariant.next_add_remaining
  have exact : toInt32 (state.cursor + 1) = state.cursor + 1 := by
    apply toInt32_eq_self <;> omega
  refine ⟨state.exchange index state.cursor state.cursor false, ?_, ?_⟩
  · simp [step, point]
  · simp only [State.exchange, cmpExchWeak, and_self, if_true, exact]
    omega

/-- The holder of the ticket at the cursor is never blocked. -/
theorem holder_progresses {datas : Nat → Address} {total : Nat}
    {state : State threads (Ring Address)} {holder : Fin threads}
    (invariant : Invariant total state) (few : total < 2 ^ 31)
    (held : state.Holds holder state.cursor) :
    ∃ steps ≤ 2, ∃ after,
      runAlone (ThreadTransWriteFixture datas) holder steps state =
        some after ∧ Progress datas holder state after := by
  cases point : (state.thread holder).point with
  | fetchAdd => exact absurd point held.point_ne_fetchAdd
  | slotWrite pos =>
      refine ⟨1, by omega,
        { state.moveTo holder (.exchange pos pos) with
          memory := assignSlot datas pos state.memory },
        ?_, Or.inr (Or.inr ⟨pos, point, ?_, ?_⟩)⟩
      · simp [runAlone, ownAction, point, step, ThreadTransWriteFixture]
      · simp [State.moveTo]
      · simp [assignSlot]
  | exchange pos curPos =>
      have current := invariant.expected_eq holder pos curPos point
      have atCursor : pos = state.cursor := by
        simpa [State.Holds, point, ProgramPoint.ticket] using held
      subst current
      subst atCursor
      obtain ⟨after, taken, grows⟩ :=
        exchange_progress datas invariant few point
      refine ⟨1, by omega, after, ?_, Or.inl grows⟩
      simp [runAlone, ownAction, point, taken]
  | yield pos =>
      have atCursor : pos = state.cursor := by
        simpa [State.Holds, point, ProgramPoint.ticket] using held
      subst atCursor
      let spun := state.moveTo holder (.exchange state.cursor state.cursor)
      have again : (spun.thread holder).point =
          .exchange spun.cursor spun.cursor := by
        simp [spun, State.moveTo]
      have spunInvariant : Invariant total spun := by
        refine invariant.moveTo ?_ ?_ state.memory
        · simp [point, ProgramPoint.ticket]
        · intro ticket expected same
          cases same
          rfl
      obtain ⟨after, taken, grows⟩ :=
        exchange_progress datas spunInvariant few again
      refine ⟨2, le_refl 2, after, ?_, Or.inl grows⟩
      have yielded : step (ThreadTransWriteFixture datas) state
          (.yield holder) = some spun := by
        simp [step, point, spun]
      simp [runAlone, ownAction, point, yielded, again, taken]

/-- Without outstanding tickets every thread is before a draw. -/
theorem point_eq_fetchAdd {total : Nat}
    {state : State threads (Ring Address)}
    (invariant : Invariant total state)
    (nonePending : ¬state.cursor < state.next) (index : Fin threads) :
    (state.thread index).point = .fetchAdd := by
  cases point : (state.thread index).point with
  | fetchAdd => rfl
  | slotWrite pos | exchange pos _ | yield pos =>
      have bounds := invariant.holder_bounds index pos
        (by simp [State.Holds, point, ProgramPoint.ticket])
      omega

/-- Whenever a thread is unfinished, some unfinished thread makes progress
within two of its own steps. -/
theorem exists_progress {datas : Nat → Address} {total : Nat}
    {state : State threads (Ring Address)}
    (invariant : Invariant total state) (few : total < 2 ^ 31)
    (honest : HonestInvariant state)
    (unfinished : ∃ index, ¬ (state.thread index).Finished) :
    ∃ index, ¬ (state.thread index).Finished ∧ ∃ steps ≤ 2, ∃ after,
      runAlone (ThreadTransWriteFixture datas) index steps state =
        some after ∧ Progress datas index state after := by
  by_cases pending : state.cursor < state.next
  · obtain ⟨holder, held⟩ :=
      honest.pending_held state.cursor (le_refl _) pending
    refine ⟨holder, ?_, holder_progresses invariant few held⟩
    rintro ⟨finished, _⟩
    exact held.point_ne_fetchAdd finished
  · -- No ticket is outstanding, so the unfinished thread draws one.
    obtain ⟨index, notFinished⟩ := unfinished
    have atFetch := point_eq_fetchAdd invariant pending index
    have positive : 0 < (state.thread index).remaining := by
      by_contra none
      exact notFinished ⟨atFetch, by omega⟩
    refine ⟨index, notFinished, 1, by omega,
      state.fetchAdd (ThreadTransWriteFixture datas) index, ?_,
      Or.inr (Or.inl ?_)⟩
    · simp [runAlone, ownAction, atFetch, step, positive]
    · change state.next < toInt32 (state.next + 1)
      rw [invariant.next_succ few positive]
      omega

/-- When all threads are finished every ticket was drawn and published. -/
theorem next_eq_cursor_eq_total {total : Nat}
    {state : State threads (Ring Address)}
    (invariant : Invariant total state) (honest : HonestInvariant state)
    (finished : ∀ index, (state.thread index).Finished) :
    state.next = total ∧ state.cursor = total := by
  have noneRemaining : state.remainingTotal = 0 :=
    Finset.sum_eq_zero fun index _ => (finished index).2
  have budget := invariant.next_add_remaining
  have cursorLeNext := invariant.cursor_le_next
  have nonePending : ¬ state.cursor < state.next := by
    intro pending
    obtain ⟨holder, held⟩ :=
      honest.pending_held state.cursor (le_refl _) pending
    exact held.point_ne_fetchAdd (finished holder).1
  constructor <;> omega

/-- The lock-free ring write, under exchanges that fail only on a real
mismatch.  Tickets are distinct, the cursor stays at or below `next` and only
passes written slots; some unfinished thread can always make progress on its
own; and once all threads are finished the cursor and the ring are those of
as many calls of `AsignInLock`. -/
theorem ringWrite_agrees_with_asignInLock (datas : Nat → Address)
    (initialRing : Ring Address) (iterations : Fin threads → Nat)
    (few : ∑ index, iterations index < 2 ^ 31)
    {state : State threads (Ring Address)}
    (reachable : (system (ThreadTransWriteFixture datas) iterations
      initialRing).ReachableUnder ExchangesHonestly state) :
    (state.cursor ≤ state.next ∧
      (state.handedOut.map Prod.snd).Nodup ∧
        ∀ ticket, 0 ≤ ticket → ticket < state.cursor →
          state.memory (ticket % 4096).toNat =
            datas (ticket % 4096).toNat) ∧
    ((∃ index, ¬ (state.thread index).Finished) →
      ∃ index, ¬ (state.thread index).Finished ∧ ∃ steps ≤ 2, ∃ after,
        runAlone (ThreadTransWriteFixture datas) index steps state =
          some after ∧ Progress datas index state after) ∧
    ((∀ index, (state.thread index).Finished) →
      state.next = (∑ index, iterations index : Nat) ∧
        state.cursor = (∑ index, iterations index : Nat) ∧
          LockedState.mk state.memory state.cursor =
            (asignInLock datas)^[∑ index, iterations index]
              ⟨initialRing, 0⟩) := by
  have invariant := invariant_of_reachable few reachable.reachable
  have honest := honestInvariant_of_reachableUnder few reachable
  have holds := holdsSlotsOf_of_reachable few reachable.reachable
  refine ⟨⟨invariant.cursor_le_next, invariant.handedOut_nodup, ?_⟩,
    exists_progress invariant few honest, ?_⟩
  · intro ticket nonneg passed
    rw [← muggleIdxInPowOf2Ring_eq_mod nonneg]
    exact holds.assigned ticket (written_of_lt_cursor invariant nonneg passed)
  · intro finished
    obtain ⟨nextEq, cursorEq⟩ :=
      next_eq_cursor_eq_total invariant honest finished
    obtain ⟨lockedCursor, lockedRing⟩ :=
      asignInLock_iterate datas initialRing few
    refine ⟨nextEq, cursorEq, ?_⟩
    have allWritten : Written state = fun ticket : Int =>
        0 ≤ ticket ∧ ticket < (∑ index, iterations index : Nat) := by
      funext ticket
      apply propext
      constructor
      · rintro ⟨nonneg, before, _⟩
        omega
      · rintro ⟨nonneg, before⟩
        exact written_of_lt_cursor invariant nonneg (by omega)
    rw [allWritten] at holds
    have sameRing := holds.unique lockedRing
    rw [sameRing, cursorEq, ← lockedCursor]

/-- Thread 1 writes the slot of the later ticket first, fails to move the
cursor, and moves it after thread 0. -/
def mismatchRun (first second : Fin 2) : List (Action 2) :=
  [.fetchAdd first, .fetchAdd second, .slotWrite second,
    .exchange second false, .slotWrite first, .exchange first false,
    .yield second, .exchange second false]

theorem exists_mismatch :
    ∃ state : State 2 (Ring Nat),
      (system (ThreadTransWriteFixture id) (fun _ : Fin 2 => 1)
        (fun _ => 0)).ReachableUnder ExchangesHonestly state ∧
      state.moved = [(1, 1, 2), (0, 0, 1)] ∧
        ∀ index, (state.thread index).Finished := by
  have honest : ∀ action ∈ mismatchRun 0 1,
      ∀ index, action ≠ .exchange index true := by decide
  have initial : (system (ThreadTransWriteFixture id) (fun _ : Fin 2 => 1)
      (fun _ => 0)).initial (start (fun _ => 1) fun _ => 0) := rfl
  have reachable :=
    (TransitionSystem.ReachableUnder.of_initial initial).execute
      (fun action mem => exchangesHonestly_of_ne (honest action mem))
      (show (system (ThreadTransWriteFixture id) (fun _ : Fin 2 => 1)
        (fun _ => 0)).execute (start (fun _ => 1) fun _ => 0)
          (mismatchRun 0 1) = some _ from rfl)
  exact ⟨_, reachable, rfl,
    Fin.forall_fin_two.mpr ⟨⟨rfl, rfl⟩, ⟨rfl, rfl⟩⟩⟩

/-- The theorem on two threads that run their iterations to the end. -/
theorem ringWrite_agrees_with_asignInLock_mismatch :
    ∃ state : State 2 (Ring Nat),
      (system (ThreadTransWriteFixture id) (fun _ : Fin 2 => 1)
        (fun _ => 0)).ReachableUnder ExchangesHonestly state ∧
      state.moved = [(1, 1, 2), (0, 0, 1)] ∧
      state.next = 2 ∧ state.cursor = 2 ∧
        LockedState.mk state.memory state.cursor =
          (asignInLock id)^[2] ⟨fun _ => 0, 0⟩ := by
  obtain ⟨state, reachable, moved, finished⟩ := exists_mismatch
  have agrees := ringWrite_agrees_with_asignInLock id (fun _ => 0)
    (fun _ : Fin 2 => 1) (by decide) reachable
  exact ⟨state, reachable, moved, agrees.2.2 finished⟩

end TicketCas

end LatencyBenchmark
