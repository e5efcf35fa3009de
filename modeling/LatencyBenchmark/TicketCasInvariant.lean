import LatencyBenchmark.TicketCas
import Mathlib.Tactic.Linarith

/-!
# Tickets handed out and the cursor

Facts that hold in every interleaving of the `CAS` benchmarks, spurious
failures included: tickets are drawn once each and in order, a thread inside
its loop holds a ticket the cursor has not passed, and the cursor never
overtakes `next`.
-/

namespace LatencyBenchmark

namespace TicketCas

variable {threads : Nat} {Memory : Type*}

/-- What one step can do. -/
theorem step_cases {fixture : Fixture Memory}
    {state next : State threads Memory} {action : Action threads}
    (taken : step fixture state action = some next) :
    (∃ index, action = .fetchAdd index ∧
      (state.thread index).point = .fetchAdd ∧
        0 < (state.thread index).remaining ∧
          next = state.fetchAdd fixture index) ∨
    (∃ index pos write, action = .slotWrite index ∧
      (state.thread index).point = .slotWrite pos ∧
        fixture.slotWrite = some write ∧
          next = { state.moveTo index (.exchange pos pos) with
            memory := write pos state.memory }) ∨
    (∃ index pos curPos spurious, action = .exchange index spurious ∧
      (state.thread index).point = .exchange pos curPos ∧
        next = state.exchange index pos curPos spurious) ∨
    (∃ index pos, action = .yield index ∧
      (state.thread index).point = .yield pos ∧
        next = state.moveTo index (.exchange pos pos)) := by
  cases action with
  | fetchAdd index =>
      left
      unfold step at taken
      cases point : (state.thread index).point <;>
        simp only [point] at taken <;> try contradiction
      split at taken
      · next positive =>
          exact ⟨index, rfl, point, positive, (Option.some.inj taken).symm⟩
      · contradiction
  | slotWrite index =>
      right; left
      unfold step at taken
      cases point : (state.thread index).point <;>
        cases slot : fixture.slotWrite <;>
          simp only [point, slot] at taken <;> try contradiction
      next pos write =>
        exact ⟨index, pos, write, rfl, point, rfl,
          (Option.some.inj taken).symm⟩
  | exchange index spurious =>
      right; right; left
      unfold step at taken
      cases point : (state.thread index).point <;>
        simp only [point] at taken <;> try contradiction
      next pos curPos =>
        exact ⟨index, pos, curPos, spurious, rfl, point,
          (Option.some.inj taken).symm⟩
  | yield index =>
      right; right; right
      unfold step at taken
      cases point : (state.thread index).point <;>
        simp only [point] at taken <;> try contradiction
      next pos =>
        exact ⟨index, pos, rfl, point, (Option.some.inj taken).symm⟩

/-- Iterations the threads have not begun. -/
def State.remainingTotal (state : State threads Memory) : Nat :=
  ∑ index, (state.thread index).remaining

/-- Thread `index` is inside the body for ticket `pos`. -/
def State.Holds (state : State threads Memory) (index : Fin threads)
    (pos : Int) : Prop :=
  (state.thread index).point.ticket = some pos

/-- A thread that holds a ticket has drawn it. -/
theorem State.Holds.point_ne_fetchAdd {state : State threads Memory}
    {index : Fin threads} {pos : Int} (held : state.Holds index pos) :
    (state.thread index).point ≠ .fetchAdd := by
  intro atFetch
  simp [State.Holds, atFetch, ProgramPoint.ticket] at held

/-- What holds in every interleaving of `total` loop bodies. -/
structure Invariant (total : Nat) (state : State threads Memory) :
    Prop where
  cursor_nonneg : 0 ≤ state.cursor
  cursor_le_next : state.cursor ≤ state.next
  next_add_remaining : state.next + state.remainingTotal = total
  expected_eq : ∀ index pos curPos,
    (state.thread index).point = .exchange pos curPos → curPos = pos
  holder_bounds : ∀ index pos, state.Holds index pos →
    state.cursor ≤ pos ∧ pos < state.next
  holder_unique : ∀ first second pos, state.Holds first pos →
    state.Holds second pos → first = second
  handedOut_bounds : ∀ entry ∈ state.handedOut,
    0 ≤ entry.2 ∧ entry.2 < state.next
  handedOut_nodup : (state.handedOut.map Prod.snd).Nodup
  left_bounds : ∀ entry ∈ state.left, entry.2 < state.next
  left_not_held : ∀ entry ∈ state.left, ∀ index,
    ¬ state.Holds index entry.2
  moved_bounds : ∀ entry ∈ state.moved, entry.2.1 < state.cursor

theorem holds_update {state : State threads Memory} {index other : Fin threads}
    {thread : BenchmarkThread} {pos : Int} :
    (Function.update state.thread index thread other).point.ticket =
        some pos ↔
      (other = index ∧ thread.point.ticket = some pos) ∨
        (other ≠ index ∧ state.Holds other pos) := by
  by_cases same : other = index
  · subst same
    simp
  · simp [same, State.Holds]

/-- With an up-to-date `cur_pos`, the exchange either spins on a cursor that
has not arrived, fails spuriously and leaves the loop, or moves the cursor
and leaves the loop. -/
theorem exchange_cases (state : State threads Memory) (index : Fin threads)
    (pos : Int) (spurious : Bool) :
    (state.cursor ≠ pos ∧
      state.exchange index pos pos spurious =
        state.moveTo index (.yield pos)) ∨
    (state.cursor = pos ∧ spurious = true ∧
      state.exchange index pos pos spurious =
        { state.moveTo index .fetchAdd with
          left := (index, pos) :: state.left }) ∨
    (state.cursor = pos ∧ spurious = false ∧
      state.exchange index pos pos spurious =
        { state.moveTo index .fetchAdd with
          cursor := toInt32 (pos + 1)
          left := (index, pos) :: state.left
          moved := (index, pos, toInt32 (pos + 1)) :: state.moved }) := by
  by_cases arrived : state.cursor = pos
  · subst arrived
    cases spurious <;> simp [State.exchange, cmpExchWeak, State.moveTo]
  · simp [State.exchange, cmpExchWeak, State.moveTo, arrived]

/-- The initial state of the benchmark. -/
theorem invariant_start (iterations : Fin threads → Nat) (memory : Memory) :
    Invariant (∑ index, iterations index) (start iterations memory) where
  cursor_nonneg := le_refl 0
  cursor_le_next := le_refl 0
  next_add_remaining := by simp [start, State.remainingTotal]
  expected_eq := by simp [start]
  holder_bounds := by simp [start, State.Holds, ProgramPoint.ticket]
  holder_unique := by simp [start, State.Holds, ProgramPoint.ticket]
  handedOut_bounds := by simp [start]
  handedOut_nodup := by simp [start]
  left_bounds := by simp [start]
  left_not_held := by simp [start]
  moved_bounds := by simp [start]

theorem remainingTotal_update (state : State threads Memory)
    (index : Fin threads) (thread : BenchmarkThread) :
    (∑ other, (Function.update state.thread index thread other).remaining) +
        (state.thread index).remaining =
      state.remainingTotal + thread.remaining :=
  ThreadFamily.sum_update state.thread index thread
    fun _ local_ => local_.remaining

/-- A thread that can draw a ticket finds `next` below the total, so adding
one does not wrap. -/
theorem Invariant.next_succ {total : Nat} {state : State threads Memory}
    {index : Fin threads} (invariant : Invariant total state)
    (few : total < 2 ^ 31) (positive : 0 < (state.thread index).remaining) :
    toInt32 (state.next + 1) = state.next + 1 := by
  have cursorNonneg := invariant.cursor_nonneg
  have cursorLeNext := invariant.cursor_le_next
  have budget := invariant.next_add_remaining
  have share : (state.thread index).remaining ≤ state.remainingTotal :=
    Finset.single_le_sum (f := fun other => (state.thread other).remaining)
      (fun _ _ => Nat.zero_le _) (Finset.mem_univ index)
  apply toInt32_eq_self <;> omega

/-- Drawing a ticket. -/
theorem Invariant.fetchAdd {fixture : Fixture Memory} {total : Nat}
    {state : State threads Memory} {index : Fin threads}
    (invariant : Invariant total state) (few : total < 2 ^ 31)
    (point : (state.thread index).point = .fetchAdd)
    (positive : 0 < (state.thread index).remaining) :
    Invariant total (state.fetchAdd fixture index) := by
  have cursorNonneg := invariant.cursor_nonneg
  have cursorLeNext := invariant.cursor_le_next
  have budget := invariant.next_add_remaining
  have remaining := remainingTotal_update state index
    ((state.fetchAdd fixture index).thread index)
  simp only [State.fetchAdd, Function.update_self] at remaining
  have exact := invariant.next_succ few positive
  have holds : ∀ other pos, (state.fetchAdd fixture index).Holds other pos ↔
      (other = index ∧ state.next = pos) ∨
        (other ≠ index ∧ state.Holds other pos) := by
    intro other pos
    unfold State.Holds State.fetchAdd
    simp only [holds_update]
    cases fixture.slotWrite <;> simp [ProgramPoint.ticket, State.Holds]
  refine
    { cursor_nonneg := cursorNonneg
      cursor_le_next := ?_
      next_add_remaining := ?_
      expected_eq := ?_
      holder_bounds := ?_
      holder_unique := ?_
      handedOut_bounds := ?_
      handedOut_nodup := ?_
      left_bounds := ?_
      left_not_held := ?_
      moved_bounds := invariant.moved_bounds }
  · change state.cursor ≤ toInt32 (state.next + 1)
    omega
  · change toInt32 (state.next + 1) +
      ((∑ other, ((state.fetchAdd fixture index).thread
        other).remaining : Nat) : Int) = total
    simp only [State.fetchAdd]
    rw [exact]
    omega
  · intro other pos curPos atExchange
    by_cases same : other = index
    · subst same
      simp only [State.fetchAdd, Function.update_self] at atExchange
      cases slot : fixture.slotWrite <;> simp [slot] at atExchange
      omega
    · simp only [State.fetchAdd, Function.update_of_ne same] at atExchange
      exact invariant.expected_eq other pos curPos atExchange
  · intro other pos holding
    change state.cursor ≤ pos ∧ pos < toInt32 (state.next + 1)
    rcases (holds other pos).mp holding with ⟨_, rfl⟩ | ⟨_, holding⟩
    · omega
    · have bounds := invariant.holder_bounds other pos holding
      omega
  · intro first second pos holdsFirst holdsSecond
    rcases (holds first pos).mp holdsFirst with
      ⟨firstSame, sameFirst⟩ | ⟨_, heldFirst⟩ <;>
        rcases (holds second pos).mp holdsSecond with
          ⟨secondSame, sameSecond⟩ | ⟨_, heldSecond⟩
    · exact firstSame.trans secondSame.symm
    · have bounds := invariant.holder_bounds _ _ heldSecond
      omega
    · have bounds := invariant.holder_bounds _ _ heldFirst
      omega
    · exact invariant.holder_unique _ _ _ heldFirst heldSecond
  · intro entry mem
    change 0 ≤ entry.2 ∧ entry.2 < toInt32 (state.next + 1)
    rcases List.mem_cons.mp mem with rfl | mem
    · constructor <;> simp only <;> omega
    · have bounds := invariant.handedOut_bounds entry mem
      omega
  · change ((index, state.next) :: state.handedOut).map Prod.snd |>.Nodup
    rw [List.map_cons, List.nodup_cons]
    refine ⟨?_, invariant.handedOut_nodup⟩
    intro repeated
    obtain ⟨entry, mem, same⟩ := List.mem_map.mp repeated
    have bounds := invariant.handedOut_bounds entry mem
    simp only at same
    omega
  · intro entry mem
    change entry.2 < toInt32 (state.next + 1)
    have bounds := invariant.left_bounds entry mem
    omega
  · intro entry mem other holding
    rcases (holds other entry.2).mp holding with ⟨_, same⟩ | ⟨_, holding⟩
    · have bounds := invariant.left_bounds entry mem
      omega
    · exact invariant.left_not_held entry mem other holding

/-- Moving on inside the body, with the same ticket and any store. -/
theorem Invariant.moveTo {total : Nat} {state : State threads Memory}
    {index : Fin threads} {point : ProgramPoint}
    (invariant : Invariant total state)
    (sameTicket : point.ticket = (state.thread index).point.ticket)
    (expected : ∀ pos curPos, point = .exchange pos curPos → curPos = pos)
    (memory : Memory) :
    Invariant total { state.moveTo index point with memory := memory } := by
  have holds : ∀ other pos,
      State.Holds { state.moveTo index point with memory := memory }
        other pos ↔ state.Holds other pos := by
    intro other pos
    unfold State.Holds State.moveTo
    simp only [holds_update, sameTicket]
    by_cases same : other = index
    · subst same
      simp
    · simp [same, State.Holds]
  refine
    { cursor_nonneg := invariant.cursor_nonneg
      cursor_le_next := invariant.cursor_le_next
      next_add_remaining := ?_
      expected_eq := ?_
      holder_bounds := ?_
      holder_unique := ?_
      handedOut_bounds := invariant.handedOut_bounds
      handedOut_nodup := invariant.handedOut_nodup
      left_bounds := invariant.left_bounds
      left_not_held := ?_
      moved_bounds := invariant.moved_bounds }
  · have remaining := remainingTotal_update state index
      { state.thread index with point := point }
    have budget := invariant.next_add_remaining
    simp only [State.remainingTotal, State.moveTo] at remaining budget ⊢
    omega
  · intro other pos curPos atExchange
    by_cases same : other = index
    · subst same
      simp only [State.moveTo, Function.update_self] at atExchange
      exact expected pos curPos atExchange
    · simp only [State.moveTo, Function.update_of_ne same] at atExchange
      exact invariant.expected_eq other pos curPos atExchange
  · intro other pos holding
    exact invariant.holder_bounds other pos ((holds other pos).mp holding)
  · intro first second pos holdsFirst holdsSecond
    exact invariant.holder_unique first second pos
      ((holds first pos).mp holdsFirst) ((holds second pos).mp holdsSecond)
  · intro entry mem other holding
    exact invariant.left_not_held entry mem other
      ((holds other entry.2).mp holding)

/-- Leaving the loop for a ticket, after an exchange that moved the cursor or
after one that failed spuriously. -/
theorem Invariant.leave {total : Nat} {state : State threads Memory}
    {index : Fin threads} {pos cursor : Int}
    {moved : List (Fin threads × Int × Int)}
    (invariant : Invariant total state) (holding : state.Holds index pos)
    (atCursor : state.cursor = pos) (notBack : state.cursor ≤ cursor)
    (oneStep : cursor ≤ pos + 1)
    (movedBounds : ∀ entry ∈ moved, entry.2.1 < cursor) :
    Invariant total
      { state.moveTo index .fetchAdd with
        cursor := cursor
        left := (index, pos) :: state.left
        moved := moved } := by
  have cursorNonneg := invariant.cursor_nonneg
  have bounds := invariant.holder_bounds index pos holding
  have holds : ∀ other ticket, State.Holds
      { state.moveTo index .fetchAdd with
        cursor := cursor
        left := (index, pos) :: state.left
        moved := moved } other ticket ↔
      other ≠ index ∧ state.Holds other ticket := by
    intro other ticket
    unfold State.Holds State.moveTo
    simp only [holds_update]
    simp [ProgramPoint.ticket, State.Holds]
  refine
    { cursor_nonneg := ?_
      cursor_le_next := ?_
      next_add_remaining := ?_
      expected_eq := ?_
      holder_bounds := ?_
      holder_unique := ?_
      handedOut_bounds := invariant.handedOut_bounds
      handedOut_nodup := invariant.handedOut_nodup
      left_bounds := ?_
      left_not_held := ?_
      moved_bounds := movedBounds }
  · change 0 ≤ cursor
    omega
  · change cursor ≤ state.next
    omega
  · have remaining := remainingTotal_update state index
      { state.thread index with point := .fetchAdd }
    have budget := invariant.next_add_remaining
    simp only [State.remainingTotal, State.moveTo] at remaining budget ⊢
    omega
  · intro other ticket curPos atExchange
    by_cases same : other = index
    · subst same
      simp [State.moveTo] at atExchange
    · simp only [State.moveTo, Function.update_of_ne same] at atExchange
      exact invariant.expected_eq other ticket curPos atExchange
  · intro other ticket stillHolding
    obtain ⟨different, held⟩ := (holds other ticket).mp stillHolding
    have heldBounds := invariant.holder_bounds other ticket held
    -- Only the thread that leaves held the ticket at the cursor.
    have notCursor : ticket ≠ pos := by
      rintro rfl
      exact different (invariant.holder_unique other index ticket held holding)
    change cursor ≤ ticket ∧ ticket < state.next
    omega
  · intro first second ticket holdsFirst holdsSecond
    exact invariant.holder_unique first second ticket
      ((holds first ticket).mp holdsFirst).2
      ((holds second ticket).mp holdsSecond).2
  · intro entry mem
    rcases List.mem_cons.mp mem with rfl | mem
    · exact bounds.2
    · exact invariant.left_bounds entry mem
  · intro entry mem other stillHolding
    obtain ⟨different, held⟩ := (holds other entry.2).mp stillHolding
    rcases List.mem_cons.mp mem with rfl | mem
    · exact different (invariant.holder_unique other index pos held holding)
    · exact invariant.left_not_held entry mem other held

/-- Every step keeps the invariant. -/
theorem Invariant.step {fixture : Fixture Memory} {total : Nat}
    {state next : State threads Memory} {action : Action threads}
    (invariant : Invariant total state) (few : total < 2 ^ 31)
    (taken : TicketCas.step fixture state action = some next) :
    Invariant total next := by
  rcases step_cases taken with
    ⟨index, _, point, positive, rfl⟩ |
    ⟨index, pos, write, _, point, _, rfl⟩ |
    ⟨index, pos, curPos, spurious, _, point, rfl⟩ |
    ⟨index, pos, _, point, rfl⟩
  · exact invariant.fetchAdd few point positive
  · refine invariant.moveTo ?_ ?_ _
    · simp [point, ProgramPoint.ticket]
    · intro ticket expected same
      cases same
      rfl
  · have current := invariant.expected_eq index pos curPos point
    subst current
    have holding : state.Holds index curPos := by
      simp [State.Holds, point, ProgramPoint.ticket]
    have bounds := invariant.holder_bounds index curPos holding
    have cursorNonneg := invariant.cursor_nonneg
    have budget := invariant.next_add_remaining
    have exact : toInt32 (curPos + 1) = curPos + 1 := by
      apply toInt32_eq_self <;> omega
    rcases exchange_cases state index curPos spurious with
      ⟨_, outcome⟩ | ⟨arrived, _, outcome⟩ | ⟨arrived, _, outcome⟩ <;>
        rw [outcome]
    · refine invariant.moveTo ?_ ?_ state.memory
      · simp [point, ProgramPoint.ticket]
      · intro ticket expected same
        cases same
    · have oneStep : state.cursor ≤ curPos + 1 := by omega
      exact invariant.leave holding arrived (le_refl _) oneStep
        invariant.moved_bounds
    · apply invariant.leave holding arrived (by omega) (by omega)
      intro entry mem
      rcases List.mem_cons.mp mem with rfl | mem
      · simp only
        omega
      · have earlier := invariant.moved_bounds entry mem
        omega
  · refine invariant.moveTo ?_ ?_ state.memory
    · simp [point, ProgramPoint.ticket]
    · intro ticket expected same
      cases same
      rfl

/-- The invariant of every interleaving, with or without spurious failures. -/
theorem invariant_of_reachable {fixture : Fixture Memory}
    {iterations : Fin threads → Nat} {memory : Memory}
    {state : State threads Memory}
    (few : ∑ index, iterations index < 2 ^ 31)
    (reachable : (system fixture iterations memory).Reachable state) :
    Invariant (∑ index, iterations index) state := by
  apply reachable.invariant
  · intro initial isInitial
    exact isInitial ▸ invariant_start iterations memory
  · intro before action after _ taken invariant
    exact invariant.step few taken

end TicketCas

end LatencyBenchmark
