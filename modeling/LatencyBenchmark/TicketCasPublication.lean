import LatencyBenchmark.TicketCasInvariant

/-!
# Who publishes a ticket

The loop `while (!cas(cursor, cur_pos, pos + 1) && cur_pos != pos)` is meant
to be left only after the thread's own exchange moved the cursor past its
ticket.  A spurious failure breaks this: it writes the cursor, equal to
`pos`, back into `cur_pos`, so the loop is left with nothing published and
the ticket at the cursor has no holder any more.

The theorem of this file makes that exact.  A run publishes every ticket in
all its states precisely when none of its exchanges fails spuriously.
-/

namespace LatencyBenchmark

namespace TicketCas

variable {threads : Nat} {Memory : Type*}

/-- Every thread that left the loop for a ticket has itself moved the cursor
from the ticket to its successor, the cursor is past the ticket, and as long
as some thread is still inside its loop the ticket at the cursor has a
holder that can publish it. -/
structure PublishesEveryTicket (state : State threads Memory) : Prop where
  moved_of_left : ∀ index pos, (index, pos) ∈ state.left →
    (index, pos, pos + 1) ∈ state.moved
  cursor_gt_of_left : ∀ index pos, (index, pos) ∈ state.left →
    pos < state.cursor
  cursor_held : ∀ index pos, state.Holds index pos →
    ∃ holder, state.Holds holder state.cursor

/-- What additionally holds without spurious failures: all tickets from the
cursor on are held. -/
structure HonestInvariant (state : State threads Memory) : Prop where
  moved_of_left : ∀ index pos, (index, pos) ∈ state.left →
    (index, pos, pos + 1) ∈ state.moved
  pending_held : ∀ pos, state.cursor ≤ pos → pos < state.next →
    ∃ index, state.Holds index pos

theorem honestInvariant_start (iterations : Fin threads → Nat)
    (memory : Memory) : HonestInvariant (start iterations memory) where
  moved_of_left := by simp [start]
  pending_held := by
    intro pos notBefore before
    simp only [start] at notBefore before
    omega

theorem HonestInvariant.fetchAdd {fixture : Fixture Memory} {total : Nat}
    {state : State threads Memory} {index : Fin threads}
    (honest : HonestInvariant state) (invariant : Invariant total state)
    (few : total < 2 ^ 31)
    (point : (state.thread index).point = .fetchAdd)
    (positive : 0 < (state.thread index).remaining) :
    HonestInvariant (state.fetchAdd fixture index) := by
  have nextValue : (state.fetchAdd fixture index).next = state.next + 1 :=
    invariant.next_succ few positive
  refine ⟨honest.moved_of_left, ?_⟩
  intro pos notBefore before
  rw [nextValue] at before
  by_cases new : pos = state.next
  · refine ⟨index, ?_⟩
    subst new
    cases slot : fixture.slotWrite <;>
      simp [State.Holds, State.fetchAdd, slot, ProgramPoint.ticket]
  · have older : pos < state.next := by omega
    obtain ⟨holder, held⟩ := honest.pending_held pos notBefore older
    have different : holder ≠ index := by
      rintro rfl
      exact held.point_ne_fetchAdd point
    refine ⟨holder, ?_⟩
    simpa [State.Holds, State.fetchAdd, Function.update_of_ne different]
      using held

theorem HonestInvariant.moveTo {state : State threads Memory}
    {index : Fin threads} {point : ProgramPoint}
    (honest : HonestInvariant state)
    (sameTicket : point.ticket = (state.thread index).point.ticket)
    (memory : Memory) :
    HonestInvariant { state.moveTo index point with memory := memory } := by
  refine ⟨honest.moved_of_left, ?_⟩
  intro pos notBefore before
  obtain ⟨holder, held⟩ := honest.pending_held pos notBefore before
  refine ⟨holder, ?_⟩
  unfold State.Holds State.moveTo
  simp only [holds_update, sameTicket]
  by_cases same : holder = index
  · subst same
    exact Or.inl ⟨rfl, held⟩
  · exact Or.inr ⟨same, held⟩

/-- An honest step keeps the honest invariant. -/
theorem HonestInvariant.step {fixture : Fixture Memory} {total : Nat}
    {state next : State threads Memory} {action : Action threads}
    (honest : HonestInvariant state) (invariant : Invariant total state)
    (few : total < 2 ^ 31) (exchanges : ExchangesHonestly state action)
    (taken : TicketCas.step fixture state action = some next) :
    HonestInvariant next := by
  rcases step_cases taken with
    ⟨index, _, point, positive, rfl⟩ |
    ⟨index, pos, write, _, point, _, rfl⟩ |
    ⟨index, pos, curPos, spurious, rfl, point, rfl⟩ |
    ⟨index, pos, _, point, rfl⟩
  · exact honest.fetchAdd invariant few point positive
  · exact honest.moveTo (by simp [point, ProgramPoint.ticket]) _
  · have current := invariant.expected_eq index pos curPos point
    subst current
    have holding : state.Holds index curPos := by
      simp [State.Holds, point, ProgramPoint.ticket]
    rcases exchange_cases state index curPos spurious with
      ⟨_, outcome⟩ | ⟨arrived, failed, outcome⟩ | ⟨arrived, _, outcome⟩
    · rw [outcome]
      exact honest.moveTo (by simp [point, ProgramPoint.ticket]) state.memory
    · subst failed
      exact (exchanges ⟨curPos, by rw [point, arrived]⟩).elim
    · rw [outcome]
      have bounds := invariant.holder_bounds index curPos holding
      have cursorNonneg := invariant.cursor_nonneg
      have budget := invariant.next_add_remaining
      have exact : toInt32 (curPos + 1) = curPos + 1 := by
        apply toInt32_eq_self <;> omega
      refine ⟨?_, ?_⟩
      · intro other ticket mem
        rcases List.mem_cons.mp mem with same | mem
        · cases same
          simp [exact]
        · exact List.mem_cons_of_mem _ (honest.moved_of_left other ticket mem)
      · intro ticket notBefore before
        simp only [exact] at notBefore
        have later : state.cursor ≤ ticket := by omega
        obtain ⟨holder, held⟩ := honest.pending_held ticket later before
        have different : holder ≠ index := by
          rintro rfl
          have same : curPos = ticket :=
            Option.some.inj (holding.symm.trans held)
          omega
        refine ⟨holder, ?_⟩
        unfold State.Holds State.moveTo
        simp only [holds_update]
        exact Or.inr ⟨different, held⟩
  · exact honest.moveTo (by simp [point, ProgramPoint.ticket]) state.memory

/-- The honest invariant of runs without spurious failures. -/
theorem honestInvariant_of_reachableUnder {fixture : Fixture Memory}
    {iterations : Fin threads → Nat} {memory : Memory}
    {state : State threads Memory}
    (few : ∑ index, iterations index < 2 ^ 31)
    (reachable : (system fixture iterations memory).ReachableUnder
      ExchangesHonestly state) :
    HonestInvariant state := by
  apply reachable.invariant
  · intro initial isInitial
    exact isInitial ▸ honestInvariant_start iterations memory
  · intro before action after reached exchanges taken honest
    exact honest.step (invariant_of_reachable few reached.reachable) few
      exchanges taken

/-- In runs without spurious failures every ticket is published by the thread
that drew it. -/
theorem publishesEveryTicket_of_reachableUnder {fixture : Fixture Memory}
    {iterations : Fin threads → Nat} {memory : Memory}
    {state : State threads Memory}
    (few : ∑ index, iterations index < 2 ^ 31)
    (reachable : (system fixture iterations memory).ReachableUnder
      ExchangesHonestly state) :
    PublishesEveryTicket state := by
  have invariant := invariant_of_reachable few reachable.reachable
  have honest := honestInvariant_of_reachableUnder few reachable
  refine ⟨honest.moved_of_left, ?_, ?_⟩
  · intro index pos mem
    by_contra notPast
    obtain ⟨holder, held⟩ := honest.pending_held pos (by omega)
      (invariant.left_bounds _ mem)
    exact invariant.left_not_held _ mem holder held
  · intro index pos holding
    have bounds := invariant.holder_bounds index pos holding
    exact honest.pending_held state.cursor (le_refl _) (by omega)

/-- After a spurious failure the thread has left the loop for a ticket it did
not publish. -/
theorem not_publishesEveryTicket_of_spuriousFailure
    {fixture : Fixture Memory} {total : Nat}
    {state next : State threads Memory} {action : Action threads}
    (invariant : Invariant total state)
    (failure : SpuriousFailure state action)
    (taken : TicketCas.step fixture state action = some next) :
    ¬ PublishesEveryTicket next := by
  rcases step_cases taken with
    ⟨index, rfl, _⟩ | ⟨index, _, _, rfl, _⟩ |
    ⟨index, pos, curPos, spurious, rfl, point, rfl⟩ | ⟨index, _, rfl, _⟩
  · exact failure.elim
  · exact failure.elim
  · cases spurious with
    | false => exact failure.elim
    | true =>
        obtain ⟨ticket, atCursor⟩ := failure
        rw [point] at atCursor
        cases atCursor
        have current := invariant.expected_eq index pos state.cursor point
        subst current
        rcases exchange_cases state index state.cursor true with
          ⟨elsewhere, _⟩ | ⟨_, _, outcome⟩ | ⟨_, impossible, _⟩
        · exact (elsewhere rfl).elim
        · rw [outcome]
          intro publishes
          have past := publishes.cursor_gt_of_left index state.cursor
            List.mem_cons_self
          exact lt_irrefl _ past
        · cases impossible
  · exact failure.elim

/-- A run of a `CAS` benchmark publishes every ticket in all the states it
passes through exactly when no exchange of it fails spuriously. -/
theorem publishesEveryTicket_iff_exchangesHonestly
    (fixture : Fixture Memory) (iterations : Fin threads → Nat)
    (memory : Memory) (few : ∑ index, iterations index < 2 ^ 31)
    {trace : List (State threads Memory × Action threads)}
    {state : State threads Memory}
    (run : (system fixture iterations memory).Run trace state) :
    (∀ passed ∈ TransitionSystem.visited trace state,
      PublishesEveryTicket passed) ↔
      TransitionSystem.Meets ExchangesHonestly trace := by
  constructor
  · intro publishes
    induction run with
    | start isInitial => exact TransitionSystem.meets_nil
    | @step trace before after action run taken induction =>
        rw [TransitionSystem.visited_cons] at publishes
        refine TransitionSystem.meets_cons.mpr ⟨?_, ?_⟩
        · intro failure
          have invariant := invariant_of_reachable few ⟨_, run⟩
          exact not_publishesEveryTicket_of_spuriousFailure invariant failure
            taken (publishes after List.mem_cons_self)
        · exact induction fun passed mem =>
            publishes passed (List.mem_cons_of_mem _ mem)
  · intro meets passed mem
    exact publishesEveryTicket_of_reachableUnder few
      (run.reachableUnder_of_mem_visited meets mem)

theorem meets_of_honest {trace : List (State threads Memory × Action threads)}
    (honest : ∀ action ∈ trace.map Prod.snd,
      ∀ index, action ≠ .exchange index true) :
    TransitionSystem.Meets ExchangesHonestly trace := fun _ mem =>
  exchangesHonestly_of_ne (honest _ (List.mem_map_of_mem mem)) _

/-- The theorem on a run of two threads.  Thread 1 draws the later ticket and
finds the cursor at the earlier one, so its exchange fails and it tries again
after thread 0. -/
theorem publishesEveryTicket_iff_exchangesHonestly_mismatch :
    ∃ trace state,
      (system MuggleAtomicFixture (fun _ : Fin 2 => 1) ()).Run trace state ∧
      trace.map Prod.snd = [.exchange 1 false, .yield 1, .exchange 0 false,
        .exchange 1 false, .fetchAdd 1, .fetchAdd 0] ∧
      state.moved = [(1, 1, 2), (0, 0, 1)] ∧
      TransitionSystem.Meets ExchangesHonestly trace ∧
      ∀ passed ∈ TransitionSystem.visited trace state,
        PublishesEveryTicket passed := by
  have run : (system MuggleAtomicFixture (fun _ : Fin 2 => 1) ()).Run
      [(_, .exchange 1 false), (_, .yield 1), (_, .exchange 0 false),
        (_, .exchange 1 false), (_, .fetchAdd 1), (_, .fetchAdd 0)] _ :=
    .step (.step (.step (.step (.step (.step (.start rfl) rfl) rfl) rfl) rfl)
      rfl) rfl
  have honest : ∀ action ∈ ([.exchange 1 false, .yield 1, .exchange 0 false,
      .exchange 1 false, .fetchAdd 1, .fetchAdd 0] : List (Action 2)),
      ∀ index, action ≠ .exchange index true := by decide
  have published := publishesEveryTicket_iff_exchangesHonestly
    MuggleAtomicFixture (fun _ => 1) () (by decide) run
  exact ⟨_, _, run, rfl, rfl, meets_of_honest honest,
    published.mpr (meets_of_honest honest)⟩

/-- Two threads draw tickets 0 and 1 and the first exchange of thread 0 fails
spuriously: thread 0 is gone, the cursor stays at 0 and thread 1 waits for
it. -/
theorem spuriousFailure_abandons_ticket :
    ¬ ∀ state,
      (system MuggleAtomicFixture (fun _ : Fin 2 => 1) ()).Reachable state →
        PublishesEveryTicket state := by
  intro everyRun
  have run : (system MuggleAtomicFixture (fun _ : Fin 2 => 1) ()).Run
      [(_, Action.exchange 0 true), (_, Action.fetchAdd 1),
        (_, Action.fetchAdd 0)] _ :=
    .step (.step (.step (.start rfl) rfl) rfl) rfl
  have publishes := everyRun _ ⟨_, run⟩
  have past := publishes.cursor_gt_of_left 0 0 List.mem_cons_self
  exact absurd past (by decide)

end TicketCas

end LatencyBenchmark
