import LatencyBenchmark.CriticalSection
import LatencyBenchmark.MachineInteger

/-!
# Counters incremented under a lock

The `LockUnLock` benchmarks of `StdMutexFixture`, `MuggleSyncFixture` and
`MuggleSpinLockFixture` and `run_lock` of the loop-increment program have one
loop body: lock, increment a shared counter, unlock.  The increment is a load
and a store, so two threads inside it together would lose one.

They differ in the width of the counter.  `run_lock` reads its counter once
more after the loop, without the lock, and prints it.
-/

namespace LatencyBenchmark

namespace LockedCounter

open CriticalSection

/-- The shared counter: how its type represents a sum, and the first value it
cannot hold. -/
structure Counter where
  represent : Int → Int
  limit : Nat
  represent_eq_self : ∀ value : Nat, value < limit →
    represent value = value

/-- `int ival` of the `LockUnLock` fixtures. -/
def ival : Counter where
  represent := toInt32
  limit := 2 ^ 31
  represent_eq_self := fun _ _ => toInt32_eq_self (by omega) (by omega)

/-- `volatile int64_t g_v_tmp` of the loop-increment program. -/
def gVTmp : Counter where
  represent := toInt64
  limit := 2 ^ 63
  represent_eq_self := fun _ _ => toInt64_eq_self (by omega) (by omega)

/-- `ival++` between lock and unlock: the counter is loaded into a variable
and the successor of the variable is stored. -/
def increment (counter : Counter) : CriticalSection Int Int where
  vars := 0
  statements :=
    [fun (value, _) => (value, value),
      fun (_, loaded) => (counter.represent (loaded + 1), loaded)]

/-- `LockUnLock`, or `run_lock`: thread `index` increments the counter
`iterations index` times. -/
def lockUnLock {threads : Nat} (counter : Counter)
    (iterations : Fin threads → Nat) :
    TransitionSystem (State (Fin threads) Int Int) (Action (Fin threads)) :=
  system (repeated (increment counter) iterations) 0

/-- `cnt` of `main`. -/
def cnt : Int :=
  1000000 * 2

/-- The loop of `run_lock(cnt)`, `for (int64_t i = 0; i < cnt; ++i)`. -/
def runLock (count : Int) : Nat :=
  count.toNat

/-- The two threads of `main` with the arguments `l` and `m`. -/
def twoThreads : Fin 2 → Nat :=
  fun _ => runLock (cnt.tdiv 2)

variable {threads : Nat} {counter : Counter} {iterations : Fin threads → Nat}
variable {state : State (Fin threads) Int Int}

@[simp]
theorem increment_effect (counter : Counter) (value : Int) :
    (increment counter).effect value = counter.represent (value + 1) :=
  rfl

/-- Whole increments count. -/
theorem increment_iterate {count : Nat} (few : count < counter.limit) :
    (increment counter).effect^[count] 0 = count := by
  induction count with
  | zero => rfl
  | succ count induction =>
      rw [Function.iterate_succ_apply', induction (by omega),
        increment_effect]
      exact_mod_cast counter.represent_eq_self (count + 1) few

/-- The counter lags behind the increments begun by the one that is loaded
but not stored. -/
theorem value_bounds
    (invariant : Invariant (repeated (increment counter) iterations) 0 state)
    (few : ∑ index, iterations index < counter.limit) :
    (∃ index, state.Inside index ∧
        state.shared + 1 = (state.order.length : Int)) ∨
      state.shared = (state.order.length : Int) := by
  have total := order_length_add invariant
  by_cases taken : ∃ index, state.Inside index
  · obtain ⟨index, rest, vars, place⟩ := taken
    obtain ⟨completed, done, length, statements, reached⟩ :=
      inside_continues_iterate invariant place
    rw [increment_iterate (by omega)] at reached
    rw [length]
    push_cast
    -- The statements executed are none, the load, or the load and the store.
    rcases done with _ | ⟨load, _ | ⟨store, _ | ⟨_, _⟩⟩⟩ <;>
      simp only [increment, List.nil_append, List.cons_append,
        List.cons.injEq, List.nil_eq, reduceCtorEq, and_false] at statements
    · have value := congrArg Prod.fst reached
      exact .inl ⟨index, ⟨rest, vars, place⟩, by
        simp [runStatements] at value; omega⟩
    · obtain ⟨rfl, _⟩ := statements
      have value := congrArg Prod.fst reached
      exact .inl ⟨index, ⟨rest, vars, place⟩, by
        simp [runStatements] at value; omega⟩
    · obtain ⟨rfl, rfl, _⟩ := statements
      have value := congrArg Prod.fst reached
      have exact := counter.represent_eq_self (completed + 1) (by omega)
      push_cast at exact
      simp only [runStatements, List.foldl, exact] at value
      exact .inr value.symm
  · right
    rw [shared_eq_iterate invariant (not_exists.mp taken),
      increment_iterate (by omega)]

/-- A thread that has left its loop finds all its own increments in the
counter, whoever is incrementing meanwhile. -/
theorem iterations_le_value
    (invariant : Invariant (repeated (increment counter) iterations) 0 state)
    (few : ∑ index, iterations index < counter.limit) {index : Fin threads}
    (finished : state.Finished index) :
    (iterations index : Int) ≤ state.shared := by
  have own := length_enteredBy invariant index
  rw [finished.2, List.length_nil, Nat.add_zero] at own
  rcases value_bounds invariant few with ⟨other, inside, value⟩ | value
  · have different : other ≠ index := by
      rintro rfl
      obtain ⟨rest, vars, place⟩ := inside
      rw [finished.1] at place
      cases place
    have fewer := length_enteredBy_lt invariant inside different
    omega
  · have fewer : (state.enteredBy index).length ≤ state.order.length := by
      rw [State.enteredBy, List.length_map]
      exact List.length_filter_le _ _
    omega

/-- No increment is lost.  Two threads are never between lock and unlock
together.  While the increments fit the counter, what a thread reads after its
loop, and `run_lock` prints, counts all its own increments and at most those
of all threads, and once all threads have left their loops the counter is the
number of increments.  A thread that has not finished is never blocked for
good: some thread can step, and no run has more than four steps for every
increment. -/
theorem lockUnLock_counts (counter : Counter) (iterations : Fin threads → Nat)
    {trace : List (State (Fin threads) Int Int × Action (Fin threads))}
    {state : State (Fin threads) Int Int}
    (run : (lockUnLock counter iterations).Run trace state) :
    (∀ first second, state.Inside first → state.Inside second →
      first = second) ∧
    (∑ index, iterations index < counter.limit →
      (∀ index, state.Finished index →
        (iterations index : Int) ≤ state.shared ∧
          state.shared ≤ (∑ other, iterations other : Nat)) ∧
      ((∀ index, state.Finished index) →
        state.shared = (∑ index, iterations index : Nat))) ∧
    ((∃ index, ¬state.Finished index) →
      ∃ action next, step state action = some next) ∧
    trace.length ≤ (∑ index, iterations index) * 4 := by
  have invariant := invariant_of_reachable ⟨trace, run⟩
  have total := order_length_add invariant
  refine ⟨fun _ _ => invariant.exclusive,
    fun few => ⟨fun index finished => ⟨?_, ?_⟩, fun finished => ?_⟩,
    exists_step invariant, run_length_le run⟩
  · exact iterations_le_value invariant few finished
  · rcases value_bounds invariant few with ⟨_, _, value⟩ | value <;> omega
  · rw [shared_eq_iterate_of_finished invariant finished,
      increment_iterate few]

/-- The theorem on the two threads of `main`. -/
theorem lockUnLock_counts_twoThreads :
    ∃ last, (lockUnLock gVTmp twoThreads).Reachable last ∧
      (∀ index, last.Finished index) ∧ last.shared = 2000000 := by
  obtain ⟨last, ⟨trace, run⟩, finished⟩ := exists_finished
    (TransitionSystem.Reachable.of_initial
      (rfl : (lockUnLock gVTmp twoThreads).initial _))
  have total : ∑ index, twoThreads index = 2000000 := by decide
  have few : ∑ index, twoThreads index < gVTmp.limit := by
    rw [total]
    decide
  refine ⟨last, ⟨trace, run⟩, finished, ?_⟩
  have value :=
    ((lockUnLock_counts gVTmp twoThreads run).2.1 few).2 finished
  rw [value, total]
  rfl

end LockedCounter

end LatencyBenchmark
