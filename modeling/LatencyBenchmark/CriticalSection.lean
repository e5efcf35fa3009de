import LatencyBenchmark.ThreadFamily
import LatencyBenchmark.TransitionSystem
import Mathlib.Algebra.BigOperators.Ring.Finset
import Mathlib.Logic.Function.Iterate

/-!
# Critical sections under one lock

A thread takes a lock, executes a list of statements on the shared state and
on its own variables, and releases the lock.  Statements are single atomic
accesses, and the statements of a thread that does not hold the lock are
nowhere checked: that they never run is a theorem.

Every interleaving is serialisable.  While nobody holds the lock, the shared
state is the result of the sections entered so far, run whole and in the order
in which the lock was taken; while a thread holds it, the statements it has
executed continue the result of the sections before.
-/

namespace LatencyBenchmark

/-- One atomic access of the shared state by a thread with some variables. -/
abbrev Statement (Shared Vars : Type*) :=
  Shared × Vars → Shared × Vars

/-- The statements between a lock and its unlock, and the variables they start
with. -/
structure CriticalSection (Shared Vars : Type*) where
  vars : Vars
  statements : List (Statement Shared Vars)

namespace CriticalSection

variable {Shared Vars Thread : Type*}

/-- Statements one after another. -/
def runStatements (statements : List (Statement Shared Vars))
    (memory : Shared × Vars) : Shared × Vars :=
  statements.foldl (fun memory statement => statement memory) memory

/-- What the whole section does to the shared state. -/
def effect (body : CriticalSection Shared Vars) (shared : Shared) : Shared :=
  (runStatements body.statements (shared, body.vars)).1

/-- Whole sections one after another, oldest first. -/
def serial (shared : Shared)
    (order : List (Thread × CriticalSection Shared Vars)) : Shared :=
  order.foldl (fun shared entry => entry.2.effect shared) shared

theorem runStatements_concat (done : List (Statement Shared Vars))
    (last : Statement Shared Vars) (memory : Shared × Vars) :
    runStatements (done ++ [last]) memory =
      last (runStatements done memory) := by
  simp [runStatements]

theorem serial_concat (shared : Shared)
    (order : List (Thread × CriticalSection Shared Vars)) (index : Thread)
    (body : CriticalSection Shared Vars) :
    serial shared (order ++ [(index, body)]) =
      body.effect (serial shared order) := by
  simp [serial]

/-- Sections that all do the same have only their number to say. -/
theorem serial_eq_iterate {body : CriticalSection Shared Vars}
    (shared : Shared) {order : List (Thread × CriticalSection Shared Vars)}
    (same : ∀ entry ∈ order, entry.2 = body) :
    serial shared order = body.effect^[order.length] shared := by
  induction order generalizing shared with
  | nil => rfl
  | cons entry order induction =>
      have first := same entry List.mem_cons_self
      have rest := induction (entry.2.effect shared)
        fun other mem => same other (List.mem_cons_of_mem _ mem)
      rw [List.length_cons, Function.iterate_succ_apply, ← first]
      rw [← first] at rest
      exact rest

/-- Where a thread is. -/
inductive Place (Shared Vars : Type*) where
  /-- Before the lock, or done with all its sections. -/
  | outside
  /-- Inside a section, before the remaining statements. -/
  | inside (rest : List (Statement Shared Vars)) (vars : Vars)

/-- One thread: its place and the sections it has not entered. -/
structure LockingThread (Shared Vars : Type*) where
  place : Place Shared Vars
  program : List (CriticalSection Shared Vars)

/-- Global state.  `order` is a history variable: the sections entered so far
with the thread that entered them, oldest first. -/
structure State (Thread Shared Vars : Type*) where
  shared : Shared
  locked : Bool
  thread : Thread → LockingThread Shared Vars
  order : List (Thread × CriticalSection Shared Vars)

/-- The atomic steps of a thread. -/
inductive Action (Thread : Type*) where
  | lock (index : Thread)
  | statement (index : Thread)
  | unlock (index : Thread)
  deriving DecidableEq, Repr

namespace State

variable [DecidableEq Thread]

/-- The lock is granted and the section entered. -/
def lock (state : State Thread Shared Vars) (index : Thread)
    (body : CriticalSection Shared Vars)
    (program : List (CriticalSection Shared Vars)) :
    State Thread Shared Vars where
  shared := state.shared
  locked := true
  thread := Function.update state.thread index
    ⟨.inside body.statements body.vars, program⟩
  order := state.order ++ [(index, body)]

/-- One statement of the section is executed. -/
def statement (state : State Thread Shared Vars) (index : Thread)
    (first : Statement Shared Vars) (rest : List (Statement Shared Vars))
    (vars : Vars) : State Thread Shared Vars where
  shared := (first (state.shared, vars)).1
  locked := state.locked
  thread := Function.update state.thread index
    ⟨.inside rest (first (state.shared, vars)).2,
      (state.thread index).program⟩
  order := state.order

/-- The section is left. -/
def unlock (state : State Thread Shared Vars) (index : Thread) :
    State Thread Shared Vars where
  shared := state.shared
  locked := false
  thread := Function.update state.thread index
    ⟨.outside, (state.thread index).program⟩
  order := state.order

/-- The thread is between its lock and its unlock. -/
def Inside (state : State Thread Shared Vars) (index : Thread) : Prop :=
  ∃ rest vars, (state.thread index).place = .inside rest vars

/-- The thread has left all its sections. -/
def Finished (state : State Thread Shared Vars) (index : Thread) : Prop :=
  (state.thread index).place = .outside ∧ (state.thread index).program = []

/-- The sections a thread has entered, oldest first. -/
def enteredBy (state : State Thread Shared Vars) (index : Thread) :
    List (CriticalSection Shared Vars) :=
  (state.order.filter (·.1 = index)).map Prod.snd

end State

variable [DecidableEq Thread]

/-- One step.  The lock is granted only while it is free; a thread inside a
section executes its statements and unlocks without looking at the lock. -/
def step (state : State Thread Shared Vars) :
    Action Thread → Option (State Thread Shared Vars)
  | .lock index =>
      match (state.thread index).place, (state.thread index).program with
      | .outside, body :: program =>
          if state.locked = false then
            some (state.lock index body program)
          else
            none
      | _, _ => none
  | .statement index =>
      match (state.thread index).place with
      | .inside (first :: rest) vars =>
          some (state.statement index first rest vars)
      | _ => none
  | .unlock index =>
      match (state.thread index).place with
      | .inside [] _ => some (state.unlock index)
      | _ => none

/-- Nobody holds the lock and every thread is before its first section. -/
def start (programs : Thread → List (CriticalSection Shared Vars))
    (shared : Shared) : State Thread Shared Vars where
  shared := shared
  locked := false
  thread := fun index => ⟨.outside, programs index⟩
  order := []

/-- Threads that run their sections under one lock. -/
def system (programs : Thread → List (CriticalSection Shared Vars))
    (shared : Shared) :
    TransitionSystem (State Thread Shared Vars) (Action Thread) where
  initial := fun state => state = start programs shared
  step := step

/-- What one step can do. -/
theorem step_cases {state next : State Thread Shared Vars}
    {action : Action Thread} (taken : step state action = some next) :
    (∃ index body program, action = .lock index ∧
      state.thread index = ⟨.outside, body :: program⟩ ∧
        state.locked = false ∧ next = state.lock index body program) ∨
    (∃ index first rest vars, action = .statement index ∧
      (state.thread index).place = .inside (first :: rest) vars ∧
        next = state.statement index first rest vars) ∨
    (∃ index vars, action = .unlock index ∧
      (state.thread index).place = .inside [] vars ∧
        next = state.unlock index) := by
  cases action with
  | lock index =>
      left
      rcases equal : state.thread index with ⟨_ | _, _ | ⟨body, program⟩⟩ <;>
        simp only [step, equal] at taken <;> try contradiction
      next =>
        split at taken
        · next free =>
            exact ⟨index, body, program, rfl, equal, free,
              (Option.some.inj taken).symm⟩
        · contradiction
  | statement index =>
      right; left
      rcases place : (state.thread index).place with _ | ⟨_ | _, vars⟩ <;>
        simp only [step, place] at taken <;> try contradiction
      next first rest =>
        exact ⟨index, first, rest, vars, rfl, place,
          (Option.some.inj taken).symm⟩
  | unlock index =>
      right; right
      rcases place : (state.thread index).place with _ | ⟨_ | _, vars⟩ <;>
        simp only [step, place] at taken <;> try contradiction
      exact ⟨index, vars, rfl, place, (Option.some.inj taken).symm⟩

/-! ## Serialisability -/

/-- The lock, the order in which it was taken and the shared state. -/
structure Invariant (programs : Thread → List (CriticalSection Shared Vars))
    (shared : Shared) (state : State Thread Shared Vars) : Prop where
  /-- The lock is taken exactly while some thread is inside a section. -/
  locked_iff : state.locked = true ↔ ∃ index, state.Inside index
  /-- The thread inside a section is the last that took the lock, and what it
  has executed continues the sections before its own. -/
  holder : ∀ index rest vars,
    (state.thread index).place = .inside rest vars →
      ∃ earlier body done, state.order = earlier ++ [(index, body)] ∧
        body.statements = done ++ rest ∧
          runStatements done (serial shared earlier, body.vars) =
            (state.shared, vars)
  /-- Between sections the shared state is a serial result. -/
  free : (∀ index, ¬state.Inside index) →
    state.shared = serial shared state.order
  /-- Every thread enters its sections in its own order. -/
  entered : ∀ index,
    state.enteredBy index ++ (state.thread index).program = programs index

namespace Invariant

variable {programs : Thread → List (CriticalSection Shared Vars)}
variable {shared : Shared} {state next : State Thread Shared Vars}

theorem atStart : Invariant programs shared (start programs shared) where
  locked_iff := by simp [start, State.Inside]
  holder := by
    intro index rest vars inside
    cases inside
  free := fun _ => rfl
  entered := fun _ => rfl

/-- Two threads are never inside their sections together. -/
theorem exclusive (invariant : Invariant programs shared state)
    {first second : Thread} (insideFirst : state.Inside first)
    (insideSecond : state.Inside second) : first = second := by
  obtain ⟨rest, vars, placeFirst⟩ := insideFirst
  obtain ⟨otherRest, otherVars, placeSecond⟩ := insideSecond
  obtain ⟨earlier, body, _, order, _⟩ :=
    invariant.holder first rest vars placeFirst
  obtain ⟨otherEarlier, otherBody, _, otherOrder, _⟩ :=
    invariant.holder second otherRest otherVars placeSecond
  rw [order] at otherOrder
  have lastEntry := (List.append_inj' otherOrder rfl).2
  exact congrArg Prod.fst (List.singleton_inj.mp lastEntry)

/-- Without a thread inside, no place of a thread is inside. -/
theorem not_inside_of_unlocked (invariant : Invariant programs shared state)
    (unlocked : state.locked = false) (index : Thread) :
    ¬state.Inside index := by
  intro inside
  have locked := invariant.locked_iff.mpr ⟨index, inside⟩
  rw [unlocked] at locked
  cases locked

theorem lock {index : Thread} {body : CriticalSection Shared Vars}
    {program : List (CriticalSection Shared Vars)}
    (invariant : Invariant programs shared state)
    (place : state.thread index = ⟨.outside, body :: program⟩)
    (unlocked : state.locked = false) :
    Invariant programs shared (state.lock index body program) where
  locked_iff := by
    refine ⟨fun _ => ⟨index, body.statements, body.vars, ?_⟩, fun _ => rfl⟩
    simp [State.lock]
  holder := by
    intro other rest vars inside
    by_cases same : other = index
    · subst same
      simp only [State.lock, Function.update_self] at inside
      cases inside
      refine ⟨state.order, body, [], rfl, rfl, ?_⟩
      rw [← invariant.free (invariant.not_inside_of_unlocked unlocked)]
      rfl
    · simp only [State.lock, Function.update_of_ne same] at inside
      exact absurd ⟨rest, vars, inside⟩
        (invariant.not_inside_of_unlocked unlocked other)
  free := by
    intro nobody
    apply absurd _ (nobody index)
    exact ⟨body.statements, body.vars, by simp [State.lock]⟩
  entered := by
    intro other
    have before := invariant.entered other
    by_cases same : other = index
    · subst same
      simpa [State.enteredBy, State.lock, place] using before
    · have different : index ≠ other := fun equal => same equal.symm
      simpa [State.enteredBy, State.lock, Function.update_of_ne same,
        different] using before

theorem statement {index : Thread} {first : Statement Shared Vars}
    {rest : List (Statement Shared Vars)} {vars : Vars}
    (invariant : Invariant programs shared state)
    (place : (state.thread index).place = .inside (first :: rest) vars) :
    Invariant programs shared (state.statement index first rest vars) where
  locked_iff := by
    have locked := invariant.locked_iff.mpr ⟨index, _, _, place⟩
    refine ⟨fun _ => ⟨index, rest, (first (state.shared, vars)).2, ?_⟩,
      fun _ => locked⟩
    simp [State.statement]
  holder := by
    intro other otherRest otherVars inside
    by_cases same : other = index
    · subst same
      simp only [State.statement, Function.update_self] at inside
      cases inside
      obtain ⟨earlier, body, done, order, statements, reached⟩ :=
        invariant.holder other (first :: rest) vars place
      refine ⟨earlier, body, done ++ [first], order, by simp [statements], ?_⟩
      rw [runStatements_concat, reached]
      rfl
    · simp only [State.statement, Function.update_of_ne same] at inside
      exact absurd
        (invariant.exclusive ⟨_, _, inside⟩ ⟨_, _, place⟩) same
  free := by
    intro nobody
    apply absurd _ (nobody index)
    exact ⟨rest, (first (state.shared, vars)).2, by simp [State.statement]⟩
  entered := by
    intro other
    have before := invariant.entered other
    by_cases same : other = index
    · subst same
      simpa [State.enteredBy, State.statement] using before
    · simpa [State.enteredBy, State.statement, Function.update_of_ne same]
        using before

theorem unlock {index : Thread} {vars : Vars}
    (invariant : Invariant programs shared state)
    (place : (state.thread index).place = .inside [] vars) :
    Invariant programs shared (state.unlock index) := by
  have nobody : ∀ other, ¬(state.unlock index).Inside other := by
    rintro other ⟨rest, otherVars, inside⟩
    by_cases same : other = index
    · subst same
      simp [State.unlock] at inside
    · simp only [State.unlock, Function.update_of_ne same] at inside
      exact same (invariant.exclusive ⟨_, _, inside⟩ ⟨_, _, place⟩)
  refine ⟨?_, ?_, ?_, ?_⟩
  · simp only [State.unlock, Bool.false_eq_true, false_iff]
    rintro ⟨other, inside⟩
    exact nobody other inside
  · intro other rest otherVars inside
    exact absurd ⟨rest, otherVars, inside⟩ (nobody other)
  · intro _
    obtain ⟨earlier, body, done, order, statements, reached⟩ :=
      invariant.holder index [] vars place
    have whole : body.statements = done := by simpa using statements
    change state.shared = serial shared state.order
    rw [order, serial_concat, effect, whole, reached]
  · intro other
    have before := invariant.entered other
    by_cases same : other = index
    · subst same
      simpa [State.enteredBy, State.unlock] using before
    · simpa [State.enteredBy, State.unlock, Function.update_of_ne same]
        using before

theorem step {action : Action Thread}
    (invariant : Invariant programs shared state)
    (taken : CriticalSection.step state action = some next) :
    Invariant programs shared next := by
  obtain ⟨index, body, program, rfl, place, unlocked, rfl⟩ |
    ⟨index, first, rest, vars, rfl, place, rfl⟩ |
    ⟨index, vars, rfl, place, rfl⟩ := step_cases taken
  · exact invariant.lock place unlocked
  · exact invariant.statement place
  · exact invariant.unlock place

end Invariant

/-- **Serialisability.** -/
theorem invariant_of_reachable
    {programs : Thread → List (CriticalSection Shared Vars)}
    {shared : Shared} {state : State Thread Shared Vars}
    (reachable : (system programs shared).Reachable state) :
    Invariant programs shared state := by
  apply reachable.invariant
  · rintro _ rfl
    exact .atStart
  · intro _ _ _ _ taken invariant
    exact invariant.step taken

/-- The thread inside its section entered the last one, so the others have
entered fewer than all. -/
theorem length_enteredBy_lt
    {programs : Thread → List (CriticalSection Shared Vars)}
    {shared : Shared} {state : State Thread Shared Vars}
    (invariant : Invariant programs shared state) {index other : Thread}
    (inside : state.Inside other) (different : other ≠ index) :
    (state.enteredBy index).length < state.order.length := by
  obtain ⟨rest, vars, place⟩ := inside
  obtain ⟨earlier, body, _, order, _⟩ :=
    invariant.holder other rest vars place
  have fewer := List.length_filter_le
    (fun entry => decide (entry.1 = index)) earlier
  simp only [State.enteredBy, order, List.filter_append, List.length_map,
    List.length_append, List.filter_cons, different, decide_false,
    List.filter_nil, List.length_singleton]
  simpa using Nat.lt_succ_of_le fewer

/-! ## Progress -/

/-- Steps a thread has left to take. -/
def LockingThread.stepsLeft (thread : LockingThread Shared Vars) : Nat :=
  (match thread.place with
    | .outside => 0
    | .inside rest _ => rest.length + 1) +
  (thread.program.map fun body => body.statements.length + 2).sum

/-- Whenever a thread has not finished, the lock is free and that thread can
take it, or the thread inside its section can go on. -/
theorem exists_step {programs : Thread → List (CriticalSection Shared Vars)}
    {shared : Shared} {state : State Thread Shared Vars}
    (invariant : Invariant programs shared state)
    (unfinished : ∃ index, ¬state.Finished index) :
    ∃ action next, step state action = some next := by
  by_cases taken : ∃ index, state.Inside index
  · obtain ⟨index, rest, vars, place⟩ := taken
    cases rest with
    | nil => exact ⟨.unlock index, state.unlock index, by simp [step, place]⟩
    | cons first rest =>
        refine ⟨.statement index, state.statement index first rest vars, ?_⟩
        simp [step, place]
  · have unlocked : state.locked = false := by
      by_contra locked
      exact taken (invariant.locked_iff.mp (by simpa using locked))
    obtain ⟨index, notFinished⟩ := unfinished
    rcases equal : state.thread index with ⟨place, program⟩
    cases place with
    | inside rest vars =>
        exact absurd ⟨index, rest, vars, by simp [equal]⟩ taken
    | outside =>
        cases program with
        | nil => exact absurd (by simp [State.Finished, equal]) notFinished
        | cons body program =>
            refine ⟨.lock index, state.lock index body program, ?_⟩
            simp [step, equal, unlocked]

section Counting

variable [Fintype Thread]

/-- Steps all threads have left to take. -/
def State.stepsLeft (state : State Thread Shared Vars) : Nat :=
  ∑ index, (state.thread index).stepsLeft

/-- Every step is one of those that were left. -/
theorem step_stepsLeft {state next : State Thread Shared Vars}
    {action : Action Thread} (taken : step state action = some next) :
    next.stepsLeft < state.stepsLeft := by
  have exchanged := fun index value =>
    ThreadFamily.sum_update state.thread index value
      fun _ thread => thread.stepsLeft
  obtain ⟨index, body, program, _, place, _, rfl⟩ |
    ⟨index, first, rest, vars, _, place, rfl⟩ |
    ⟨index, vars, _, place, rfl⟩ := step_cases taken
  · have sums := exchanged index ⟨.inside body.statements body.vars, program⟩
    simp only [LockingThread.stepsLeft, place, List.map_cons,
      List.sum_cons] at sums
    simp only [State.stepsLeft, State.lock, LockingThread.stepsLeft]
    omega
  · have sums := exchanged index
      ⟨.inside rest (first (state.shared, vars)).2,
        (state.thread index).program⟩
    simp only [LockingThread.stepsLeft, place, List.length_cons] at sums
    simp only [State.stepsLeft, State.statement, LockingThread.stepsLeft]
    omega
  · have sums := exchanged index ⟨.outside, (state.thread index).program⟩
    simp only [LockingThread.stepsLeft, place, List.length_nil] at sums
    simp only [State.stepsLeft, State.unlock, LockingThread.stepsLeft]
    omega

/-- Every section taken was taken by some thread. -/
theorem sum_length_enteredBy (state : State Thread Shared Vars) :
    ∑ index, (state.enteredBy index).length = state.order.length := by
  have entries : ∀ order : List (Thread × CriticalSection Shared Vars),
      ∑ index, (order.filter (·.1 = index)).length = order.length := by
    intro order
    induction order with
    | nil => simp
    | cons entry order induction =>
        have split : ∀ index,
            ((entry :: order).filter (·.1 = index)).length =
              (order.filter (·.1 = index)).length +
                if entry.1 = index then 1 else 0 := by
          intro index
          by_cases own : entry.1 = index <;> simp [own]
        simp only [split, Finset.sum_add_distrib, induction,
          Finset.sum_ite_eq, Finset.mem_univ, if_true, List.length_cons]
  simpa [State.enteredBy] using entries state.order

end Counting

/-! ## Threads that repeat one section -/

section Repeated

variable {body : CriticalSection Shared Vars} {iterations : Thread → Nat}
variable {shared : Shared} {state : State Thread Shared Vars}

/-- Every thread runs the same section, each its own number of times. -/
def repeated (body : CriticalSection Shared Vars)
    (iterations : Thread → Nat) (index : Thread) :
    List (CriticalSection Shared Vars) :=
  List.replicate (iterations index) body

/-- A thread has entered as many sections as it has not left to enter. -/
theorem length_enteredBy
    (invariant : Invariant (repeated body iterations) shared state)
    (index : Thread) :
    (state.enteredBy index).length + (state.thread index).program.length =
      iterations index := by
  have lengths := congrArg List.length (invariant.entered index)
  simpa [repeated] using lengths

/-- Only the repeated section is ever entered. -/
theorem entered_eq
    (invariant : Invariant (repeated body iterations) shared state)
    {entry : Thread × CriticalSection Shared Vars}
    (mem : entry ∈ state.order) : entry.2 = body := by
  have own : entry.2 ∈ state.enteredBy entry.1 := by
    simp only [State.enteredBy, List.mem_map, List.mem_filter]
    exact ⟨entry, ⟨mem, by simp⟩, rfl⟩
  have planned : entry.2 ∈ repeated body iterations entry.1 := by
    rw [← invariant.entered entry.1]
    exact List.mem_append_left _ own
  exact List.eq_of_mem_replicate planned

/-- Between sections the shared state is the section iterated. -/
theorem shared_eq_iterate
    (invariant : Invariant (repeated body iterations) shared state)
    (nobody : ∀ index, ¬state.Inside index) :
    state.shared = body.effect^[state.order.length] shared := by
  rw [invariant.free nobody]
  exact serial_eq_iterate shared fun _ mem => entered_eq invariant mem

/-- Inside a section the statements executed continue the section iterated. -/
theorem inside_continues_iterate
    (invariant : Invariant (repeated body iterations) shared state)
    {index : Thread} {rest : List (Statement Shared Vars)} {vars : Vars}
    (place : (state.thread index).place = .inside rest vars) :
    ∃ completed done, state.order.length = completed + 1 ∧
      body.statements = done ++ rest ∧
        runStatements done (body.effect^[completed] shared, body.vars) =
          (state.shared, vars) := by
  obtain ⟨earlier, entered, done, order, statements, reached⟩ :=
    invariant.holder index rest vars place
  have mem : (index, entered) ∈ state.order := by simp [order]
  obtain rfl : entered = body := entered_eq invariant mem
  refine ⟨earlier.length, done, by simp [order], statements, ?_⟩
  rw [← reached, serial_eq_iterate shared fun entry mem =>
    entered_eq invariant (order ▸ List.mem_append_left _ mem)]

variable [Fintype Thread]

/-- Sections entered and sections not yet entered add up. -/
theorem order_length_add
    (invariant : Invariant (repeated body iterations) shared state) :
    state.order.length + ∑ index, (state.thread index).program.length =
      ∑ index, iterations index := by
  rw [← sum_length_enteredBy, ← Finset.sum_add_distrib]
  exact Finset.sum_congr rfl fun index _ => length_enteredBy invariant index

/-- When all threads have finished, the shared state is the section iterated
once for every iteration of every thread. -/
theorem shared_eq_iterate_of_finished
    (invariant : Invariant (repeated body iterations) shared state)
    (finished : ∀ index, state.Finished index) :
    state.shared = body.effect^[∑ index, iterations index] shared := by
  have nobody : ∀ index, ¬state.Inside index := by
    rintro index ⟨rest, vars, place⟩
    rw [(finished index).1] at place
    cases place
  have noneLeft : ∑ index, (state.thread index).program.length = 0 :=
    Finset.sum_eq_zero fun index _ => by simp [(finished index).2]
  have total := order_length_add invariant
  rw [noneLeft, Nat.add_zero] at total
  rw [shared_eq_iterate invariant nobody, total]

omit [DecidableEq Thread] in
/-- Initially every thread has all its sections to run. -/
theorem stepsLeft_start :
    (start (repeated body iterations) shared).stepsLeft =
      (∑ index, iterations index) * (body.statements.length + 2) := by
  simp [State.stepsLeft, start, LockingThread.stepsLeft, repeated,
    Finset.sum_mul]

/-- No run takes more steps than the sections have. -/
theorem run_length_le {trace : List (State Thread Shared Vars × Action Thread)}
    (run : (system (repeated body iterations) shared).Run trace state) :
    trace.length ≤
      (∑ index, iterations index) * (body.statements.length + 2) := by
  have everyStep : TransitionSystem.Meets (fun _ _ => True) trace :=
    fun _ _ => trivial
  obtain ⟨_, rfl, bound⟩ := run.length_add_measure_le State.stepsLeft
    (fun _ _ _ _ _ taken => step_stepsLeft taken) everyStep
  rw [stepsLeft_start] at bound
  omega

/-- Every run can be continued until all threads have finished. -/
theorem exists_finished
    (reachable : (system (repeated body iterations) shared).Reachable state) :
    ∃ last, (system (repeated body iterations) shared).Reachable last ∧
      ∀ index, last.Finished index := by
  have everyStep : (system (repeated body iterations) shared).ReachableUnder
      (fun _ _ => True) state :=
    reachable.reachableUnder fun _ _ _ _ _ => trivial
  obtain ⟨last, reached, stuck⟩ := everyStep.exists_final State.stepsLeft
    fun _ _ _ _ _ taken => step_stepsLeft taken
  refine ⟨last, reached.reachable, fun index => ?_⟩
  by_contra unfinished
  obtain ⟨action, next, taken⟩ :=
    exists_step (invariant_of_reachable reached.reachable)
      ⟨index, unfinished⟩
  exact stuck ⟨action, trivial, next, taken⟩

end Repeated

end CriticalSection

end LatencyBenchmark
