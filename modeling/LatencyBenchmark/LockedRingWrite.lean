import LatencyBenchmark.CriticalSection
import LatencyBenchmark.RingWrite

/-!
# The ring write inside a lock

The `SpinLock`, `Mutex` and `Sync` benchmarks of `ThreadTransWriteFixture`
call `AsignInLock` under a lock, `Single` calls it in one thread.  The call is
four accesses of the fixture: the cursor is read for the slot, the slot is
written, the cursor is read again and its successor stored.

Interleaved threads leave what the calls leave one after another, and the
lock-free `CAS` benchmark of the same fixture ends in the same state.
-/

namespace LatencyBenchmark

namespace LockedRingWrite

open CriticalSection TicketCas

variable {Address : Type*}

/-- The variables of `AsignInLock`: `idx`, and the `cursor` it adds one to. -/
structure AsignVars where
  idx : Nat
  loaded : Int
  deriving DecidableEq, Repr

/-- `AsignInLock` between lock and unlock. -/
def asignStatements (datas : Nat → Address) :
    CriticalSection (LockedState Address) AsignVars where
  vars := ⟨0, 0⟩
  statements :=
    -- int idx = MUGGLE_IDX_IN_POW_OF_2_RING(cursor, RING_CAPACITY);
    [fun (fixture, vars) => (fixture,
        { vars with
          idx := muggleIdxInPowOf2Ring fixture.cursor ringCapacity }),
      -- ring[idx].data = &datas[idx];
      fun (fixture, vars) =>
        ({ fixture with
          ring := Function.update fixture.ring vars.idx (datas vars.idx) },
          vars),
      -- muggle_atomic_store(&cursor, cursor + 1, release);
      fun (fixture, vars) => (fixture, { vars with loaded := fixture.cursor }),
      fun (fixture, vars) =>
        ({ fixture with cursor := toInt32 (vars.loaded + 1) }, vars)]

/-- The locked benchmarks: thread `index` runs `iterations index` times
through the loop body, and `SetUp` has left the cursor at zero. -/
def lockedRingWrite {threads : Nat} (datas : Nat → Address)
    (initialRing : TicketCas.Ring Address) (iterations : Fin threads → Nat) :
    TransitionSystem
      (CriticalSection.State (Fin threads) (LockedState Address) AsignVars)
      (CriticalSection.Action (Fin threads)) :=
  CriticalSection.system (repeated (asignStatements datas) iterations)
    ⟨initialRing, 0⟩

variable {datas : Nat → Address} {initialRing : TicketCas.Ring Address}
variable {threads : Nat} {iterations : Fin threads → Nat}

@[simp]
theorem asignStatements_effect (datas : Nat → Address) :
    (asignStatements datas).effect = asignInLock datas :=
  rfl

/-- Every slot below the cursor holds the address of its datum. -/
def Published (datas : Nat → Address) (fixture : LockedState Address) :
    Prop :=
  ∀ ticket, 0 ≤ ticket → ticket < fixture.cursor →
    fixture.ring (ticket % 4096).toNat = datas (ticket % 4096).toNat

/-- Wherever `AsignInLock` is interrupted, it has changed nothing, or assigned
the slot of the cursor, or been executed whole. -/
theorem asignStatements_prefix {fixture after : LockedState Address}
    {done rest : List (Statement (LockedState Address) AsignVars)}
    {vars : AsignVars}
    (split : (asignStatements datas).statements = done ++ rest)
    (reached : runStatements done (fixture, (asignStatements datas).vars) =
      (after, vars)) :
    after = fixture ∨
      after = ⟨assignSlot datas fixture.cursor fixture.ring,
        fixture.cursor⟩ ∨
      after = asignInLock datas fixture := by
  have value := (congrArg Prod.fst reached).symm
  rcases done with _ | ⟨first, _ | ⟨second, _ | ⟨third, _ | ⟨fourth, _ | _⟩⟩⟩⟩
    <;> simp only [asignStatements, List.nil_append, List.cons_append,
      List.cons.injEq, List.nil_eq, reduceCtorEq, and_false] at split
  · exact Or.inl value
  · obtain ⟨rfl, _⟩ := split
    exact Or.inl value
  · obtain ⟨rfl, rfl, _⟩ := split
    exact Or.inr (Or.inl value)
  · obtain ⟨rfl, rfl, rfl, _⟩ := split
    exact Or.inr (Or.inl value)
  · obtain ⟨rfl, rfl, rfl, rfl, _⟩ := split
    exact Or.inr (Or.inr value)

/-- A fixture that holds the slots of all tickets below its cursor, and
perhaps more, is published. -/
theorem published_of_holdsSlotsOf {fixture : LockedState Address}
    {written : Int → Prop}
    (holds : HoldsSlotsOf datas initialRing written fixture.ring)
    (covers : ∀ ticket, 0 ≤ ticket → ticket < fixture.cursor →
      written ticket) : Published datas fixture := by
  intro ticket nonneg below
  rw [← muggleIdxInPowOf2Ring_eq_mod nonneg]
  exact holds.assigned ticket (covers ticket nonneg below)

/-- After any number of calls and a part of the next one the slots below the
cursor are written, since the cursor is stored after the slot. -/
theorem published_of_prefix {count : Nat} (few : count + 1 < 2 ^ 31)
    {after : LockedState Address}
    {done rest : List (Statement (LockedState Address) AsignVars)}
    {vars : AsignVars}
    (split : (asignStatements datas).statements = done ++ rest)
    (reached : runStatements done
      ((asignInLock datas)^[count] ⟨initialRing, 0⟩,
        (asignStatements datas).vars) = (after, vars)) :
    Published datas after := by
  obtain ⟨cursorEq, holds⟩ :=
    asignInLock_iterate datas initialRing (by omega : count < 2 ^ 31)
  rcases asignStatements_prefix split reached with rfl | rfl | rfl
  · apply published_of_holdsSlotsOf holds
    intro ticket nonneg below
    omega
  · apply published_of_holdsSlotsOf
      (holds.assignSlot fun ticket => Iff.rfl)
    intro ticket nonneg below
    exact Or.inl ⟨nonneg, by simp only at below; omega⟩
  · obtain ⟨nextEq, nextHolds⟩ := asignInLock_iterate datas initialRing few
    rw [Function.iterate_succ_apply'] at nextEq nextHolds
    apply published_of_holdsSlotsOf nextHolds
    intro ticket nonneg below
    omega

/-- Every reachable state is published, within a call as between calls. -/
theorem published_of_invariant
    {state : CriticalSection.State (Fin threads) (LockedState Address)
      AsignVars}
    (invariant : CriticalSection.Invariant
      (repeated (asignStatements datas) iterations) ⟨initialRing, 0⟩ state)
    (few : ∑ index, iterations index < 2 ^ 31) :
    Published datas state.shared := by
  have total := order_length_add invariant
  by_cases taken : ∃ index, state.Inside index
  · obtain ⟨index, rest, vars, place⟩ := taken
    obtain ⟨completed, done, length, split, reached⟩ :=
      inside_continues_iterate invariant place
    exact published_of_prefix (by omega) split reached
  · have serial := shared_eq_iterate invariant (not_exists.mp taken)
    rw [asignStatements_effect] at serial
    obtain ⟨cursorEq, holds⟩ := asignInLock_iterate datas initialRing
      (by omega : state.order.length < 2 ^ 31)
    rw [← serial] at cursorEq holds
    apply published_of_holdsSlotsOf holds
    intro ticket nonneg below
    omega

/-- The lock-free benchmark ends in the state of as many calls of
`AsignInLock`. -/
theorem cas_eq_asignInLock_iterate {casThreads : Nat}
    {casIterations : Fin casThreads → Nat}
    {state : TicketCas.State casThreads (TicketCas.Ring Address)}
    (few : ∑ index, casIterations index < 2 ^ 31)
    (reachable : (TicketCas.system (ThreadTransWriteFixture datas)
      casIterations initialRing).ReachableUnder ExchangesHonestly state)
    (finished : ∀ index, (state.thread index).Finished) :
    LockedState.mk state.memory state.cursor =
      (asignInLock datas)^[∑ index, casIterations index]
        ⟨initialRing, 0⟩ := by
  have invariant := TicketCas.invariant_of_reachable few reachable.reachable
  have honest := honestInvariant_of_reachableUnder few reachable
  have holds := holdsSlotsOf_of_reachable few reachable.reachable
  obtain ⟨nextEq, cursorEq⟩ :=
    next_eq_cursor_eq_total invariant honest finished
  obtain ⟨lockedCursor, lockedRing⟩ :=
    asignInLock_iterate datas initialRing few
  have allWritten : Written state = fun ticket : Int =>
      0 ≤ ticket ∧ ticket < (∑ index, casIterations index : Nat) := by
    funext ticket
    refine propext ⟨fun written => ⟨written.1, nextEq ▸ written.2.1⟩, ?_⟩
    rintro ⟨nonneg, below⟩
    exact written_of_lt_cursor invariant nonneg (cursorEq ▸ below)
  rw [allWritten] at holds
  rw [holds.unique lockedRing, cursorEq, ← lockedCursor]

/-- `Single`: one thread that calls `AsignInLock` without a lock. -/
def single (datas : Nat → Address) (initialRing : TicketCas.Ring Address)
    (iterations : Nat) : LockedState Address :=
  (asignInLock datas)^[iterations] ⟨initialRing, 0⟩

/-- The locked ring write in every interleaving.  No two threads are inside
`AsignInLock`, the slots below the cursor are written at every moment, the
benchmark neither deadlocks nor runs for ever, and it ends in the state in
which `Single` ends after as many calls; so does the lock-free benchmark, on
any number of threads that share the same total. -/
theorem lockedRingWrite_agrees_with_single_and_cas {casThreads : Nat}
    (datas : Nat → Address) (initialRing : TicketCas.Ring Address)
    (iterations : Fin threads → Nat) (casIterations : Fin casThreads → Nat)
    (few : ∑ index, iterations index < 2 ^ 31)
    (sameTotal : ∑ index, casIterations index = ∑ index, iterations index)
    {trace : List (CriticalSection.State (Fin threads) (LockedState Address)
      AsignVars × CriticalSection.Action (Fin threads))}
    {state : CriticalSection.State (Fin threads) (LockedState Address)
      AsignVars}
    (run : (lockedRingWrite datas initialRing iterations).Run trace state) :
    (∀ first second, state.Inside first → state.Inside second →
      first = second) ∧
    Published datas state.shared ∧
    ((∃ index, ¬state.Finished index) →
      ∃ action next, CriticalSection.step state action = some next) ∧
    trace.length ≤ (∑ index, iterations index) * 6 ∧
    ((∀ index, state.Finished index) →
      state.shared = single datas initialRing (∑ index, iterations index) ∧
        ∀ cas : TicketCas.State casThreads (TicketCas.Ring Address),
          (TicketCas.system (ThreadTransWriteFixture datas) casIterations
            initialRing).ReachableUnder ExchangesHonestly cas →
          (∀ index, (cas.thread index).Finished) →
            LockedState.mk cas.memory cas.cursor = state.shared) := by
  have invariant := CriticalSection.invariant_of_reachable ⟨trace, run⟩
  refine ⟨fun _ _ => invariant.exclusive, published_of_invariant invariant few,
    exists_step invariant, run_length_le run, fun finished => ?_⟩
  have shared := shared_eq_iterate_of_finished invariant finished
  rw [asignStatements_effect] at shared
  refine ⟨shared, fun cas reachable casFinished => ?_⟩
  rw [shared, ← sameTotal]
  exact cas_eq_asignInLock_iterate (by omega) reachable casFinished

/-- The theorem on two locked threads and two lock-free ones. -/
theorem lockedRingWrite_agrees_with_single_and_cas_two :
    ∃ state : CriticalSection.State (Fin 2) (LockedState Nat) AsignVars,
      (lockedRingWrite id (fun _ => 0) fun _ : Fin 2 => 1).Reachable state ∧
      (∀ index, state.Finished index) ∧ Published id state.shared ∧
      state.shared = single id (fun _ => 0) 2 ∧
      ∃ cas : TicketCas.State 2 (TicketCas.Ring Nat),
        (TicketCas.system (ThreadTransWriteFixture id) (fun _ : Fin 2 => 1)
          (fun _ => 0)).ReachableUnder ExchangesHonestly cas ∧
        LockedState.mk cas.memory cas.cursor = state.shared := by
  obtain ⟨last, ⟨trace, run⟩, finished⟩ := exists_finished
    (TransitionSystem.Reachable.of_initial
      (rfl : (lockedRingWrite id (fun _ => 0)
        (fun _ : Fin 2 => 1)).initial _))
  obtain ⟨cas, reachable, _, casFinished⟩ := exists_mismatch
  have agrees := lockedRingWrite_agrees_with_single_and_cas id (fun _ => 0)
    (fun _ : Fin 2 => 1) (fun _ : Fin 2 => 1) (by decide) rfl run
  obtain ⟨shared, sameAsCas⟩ := agrees.2.2.2.2 finished
  exact ⟨last, ⟨trace, run⟩, finished, agrees.2.1, shared, cas, reachable,
    sameAsCas cas reachable casFinished⟩

end LockedRingWrite

end LatencyBenchmark
