import Mathlib.Logic.Relation
import Mathlib.Data.List.Basic

/-!
# Labelled transition systems and their runs

Every concurrent benchmark of the repository is a family of threads whose
atomic steps interleave.  This file gives the common vocabulary: a system is
a set of initial states and a partial step function indexed by an action, a
run records the state and the action of every step it took, and the two
proof rules used throughout are an induction over runs and a bound on their
length by a decreasing measure.

Nothing here mentions a particular program.
-/

namespace LatencyBenchmark

/-- A labelled transition system.  An action determines the successor state,
so all nondeterminism of a program lies in the choice of the action. -/
structure TransitionSystem (State Action : Type*) where
  initial : State → Prop
  step : State → Action → Option State

namespace TransitionSystem

variable {State Action : Type*}

/-- The runs of a system, newest step first.  Each entry is the state before
the step together with the action taken in it. -/
inductive Run (system : TransitionSystem State Action) :
    List (State × Action) → State → Prop
  | start {state : State} (isInitial : system.initial state) :
      Run system [] state
  | step {trace : List (State × Action)} {state next : State}
      {action : Action} (run : Run system trace state)
      (taken : system.step state action = some next) :
      Run system ((state, action) :: trace) next

/-- Every step of a trace meets a condition on the state before it and on
the action taken. -/
def Meets (permitted : State → Action → Prop)
    (trace : List (State × Action)) : Prop :=
  ∀ entry ∈ trace, permitted entry.1 entry.2

/-- The states a run passes through, its last state included. -/
def visited (trace : List (State × Action)) (state : State) : List State :=
  state :: trace.map Prod.fst

/-- States reached by runs whose steps all meet a condition. -/
def ReachableUnder (system : TransitionSystem State Action)
    (permitted : State → Action → Prop) (state : State) : Prop :=
  ∃ trace, system.Run trace state ∧ Meets permitted trace

/-- States reached by some run. -/
def Reachable (system : TransitionSystem State Action)
    (state : State) : Prop :=
  ∃ trace, system.Run trace state

/-- Some permitted action can be taken. -/
def CanStepUnder (system : TransitionSystem State Action)
    (permitted : State → Action → Prop) (state : State) : Prop :=
  ∃ action, permitted state action ∧
    ∃ next, system.step state action = some next

/-- Take the listed actions one after another. -/
def execute (system : TransitionSystem State Action) :
    State → List Action → Option State
  | state, [] => some state
  | state, action :: actions =>
      (system.step state action).bind fun next =>
        execute system next actions

/-- Take the listed actions one after another, as long as each meets a
condition. -/
def executeUnder (system : TransitionSystem State Action)
    (permitted : State → Action → Prop)
    [∀ state action, Decidable (permitted state action)] :
    State → List Action → Option State
  | state, [] => some state
  | state, action :: actions =>
      if permitted state action then
        (system.step state action).bind fun next =>
          executeUnder system permitted next actions
      else
        none

variable {system : TransitionSystem State Action}
variable {permitted : State → Action → Prop}

@[simp]
theorem meets_nil : Meets permitted ([] : List (State × Action)) := by
  simp [Meets]

@[simp]
theorem meets_cons {entry : State × Action} {trace : List (State × Action)} :
    Meets permitted (entry :: trace) ↔
      permitted entry.1 entry.2 ∧ Meets permitted trace := by
  simp [Meets]

@[simp]
theorem visited_nil (state : State) :
    visited ([] : List (State × Action)) state = [state] :=
  rfl

@[simp]
theorem visited_cons (entry : State × Action)
    (trace : List (State × Action)) (state : State) :
    visited (entry :: trace) state = state :: visited trace entry.1 :=
  rfl

theorem Reachable.of_initial {state : State}
    (isInitial : system.initial state) : system.Reachable state :=
  ⟨[], .start isInitial⟩

theorem Reachable.step {state next : State} {action : Action}
    (reachable : system.Reachable state)
    (taken : system.step state action = some next) :
    system.Reachable next := by
  obtain ⟨trace, run⟩ := reachable
  exact ⟨_, run.step taken⟩

theorem ReachableUnder.of_initial {state : State}
    (isInitial : system.initial state) :
    system.ReachableUnder permitted state :=
  ⟨[], .start isInitial, meets_nil⟩

theorem ReachableUnder.step {state next : State} {action : Action}
    (reachable : system.ReachableUnder permitted state)
    (allowed : permitted state action)
    (taken : system.step state action = some next) :
    system.ReachableUnder permitted next := by
  obtain ⟨trace, run, meets⟩ := reachable
  exact ⟨_, run.step taken, meets_cons.mpr ⟨allowed, meets⟩⟩

theorem ReachableUnder.reachable {state : State}
    (reachable : system.ReachableUnder permitted state) :
    system.Reachable state := by
  obtain ⟨trace, run, _⟩ := reachable
  exact ⟨trace, run⟩

/-- **Invariant rule.**  What holds initially and is preserved by every
permitted step holds in every state reached by permitted steps.  The
preservation obligation may use that its source state is itself reached that
way, hence every invariant proved before. -/
theorem ReachableUnder.invariant {property : State → Prop}
    (atStart : ∀ state, system.initial state → property state)
    (preserved : ∀ state action next,
      system.ReachableUnder permitted state → permitted state action →
        system.step state action = some next →
          property state → property next)
    {state : State} (reachable : system.ReachableUnder permitted state) :
    property state := by
  obtain ⟨trace, run, meets⟩ := reachable
  induction run with
  | start isInitial => exact atStart _ isInitial
  | step run taken induction =>
      obtain ⟨allowed, earlier⟩ := meets_cons.mp meets
      exact preserved _ _ _ ⟨_, run, earlier⟩ allowed taken (induction earlier)

/-- When every step that can be taken meets a condition, so does every
run. -/
theorem Reachable.reachableUnder
    (allowed : ∀ state action next,
      system.ReachableUnder permitted state →
        system.step state action = some next → permitted state action)
    {state : State} (reachable : system.Reachable state) :
    system.ReachableUnder permitted state := by
  obtain ⟨trace, run⟩ := reachable
  induction run with
  | start isInitial => exact .of_initial isInitial
  | step run taken induction =>
      exact induction.step (allowed _ _ _ induction taken) taken

/-- **Invariant rule** over all runs. -/
theorem Reachable.invariant {property : State → Prop}
    (atStart : ∀ state, system.initial state → property state)
    (preserved : ∀ state action next, system.Reachable state →
      system.step state action = some next →
        property state → property next)
    {state : State} (reachable : system.Reachable state) :
    property state := by
  obtain ⟨trace, run⟩ := reachable
  induction run with
  | start isInitial => exact atStart _ isInitial
  | step run taken induction => exact preserved _ _ _ ⟨_, run⟩ taken induction

/-- Every state a run passes through is reached by a part of it, hence by
steps that meet whatever all its steps meet. -/
theorem Run.reachableUnder_of_mem_visited {trace : List (State × Action)}
    {state earlier : State} (run : system.Run trace state)
    (meets : Meets permitted trace) (mem : earlier ∈ visited trace state) :
    system.ReachableUnder permitted earlier := by
  induction run with
  | start isInitial =>
      rw [visited_nil, List.mem_singleton] at mem
      exact mem ▸ .of_initial isInitial
  | step run taken induction =>
      rw [visited_cons, List.mem_cons] at mem
      rcases mem with rfl | mem
      · exact ⟨_, run.step taken, meets⟩
      · exact induction (meets_cons.mp meets).2 mem

/-- **Bound rule.**  A measure that every permitted step decreases bounds the
length of every permitted run by its value in the initial state. -/
theorem Run.length_add_measure_le {trace : List (State × Action)}
    {state : State} (measure : State → Nat)
    (decreases : ∀ state action next,
      system.ReachableUnder permitted state → permitted state action →
        system.step state action = some next → measure next < measure state)
    (run : system.Run trace state) (meets : Meets permitted trace) :
    ∃ start, system.initial start ∧
      trace.length + measure state ≤ measure start := by
  induction run with
  | start isInitial => exact ⟨_, isInitial, by simp⟩
  | step run taken induction =>
      obtain ⟨allowed, earlier⟩ := meets_cons.mp meets
      obtain ⟨start, isInitial, bound⟩ := induction earlier
      have drops := decreases _ _ _ ⟨_, run, earlier⟩ allowed taken
      refine ⟨start, isInitial, ?_⟩
      rw [List.length_cons]
      omega

/-- **Completion rule.**  Under such a measure every reached state leads to
one without a permitted step. -/
theorem ReachableUnder.exists_final (measure : State → Nat)
    (decreases : ∀ state action next,
      system.ReachableUnder permitted state → permitted state action →
        system.step state action = some next → measure next < measure state)
    {state : State} (reachable : system.ReachableUnder permitted state) :
    ∃ last, system.ReachableUnder permitted last ∧
      ¬system.CanStepUnder permitted last := by
  induction bound : measure state using Nat.strongRecOn
    generalizing state with
  | ind value induction =>
      by_cases canStep : system.CanStepUnder permitted state
      · obtain ⟨action, allowed, next, taken⟩ := canStep
        have drops := decreases state action next reachable allowed taken
        exact induction _ (bound ▸ drops) (reachable.step allowed taken) rfl
      · exact ⟨state, reachable, canStep⟩

@[simp]
theorem execute_nil (state : State) :
    system.execute state [] = some state :=
  rfl

theorem execute_cons (state : State) (action : Action)
    (actions : List Action) :
    system.execute state (action :: actions) =
      (system.step state action).bind fun next =>
        system.execute next actions :=
  rfl

/-- Executing actions from a reachable state stays within the reachable
states. -/
theorem Reachable.execute {state last : State} {actions : List Action}
    (reachable : system.Reachable state)
    (executed : system.execute state actions = some last) :
    system.Reachable last := by
  induction actions generalizing state with
  | nil =>
      rw [execute_nil, Option.some.injEq] at executed
      exact executed ▸ reachable
  | cons action actions induction =>
      rw [execute_cons, Option.bind_eq_some_iff] at executed
      obtain ⟨next, taken, rest⟩ := executed
      exact induction (reachable.step taken) rest

/-- A state reached by permitted actions stays so along actions that are
permitted everywhere. -/
theorem ReachableUnder.execute {state last : State} {actions : List Action}
    (reachable : system.ReachableUnder permitted state)
    (allowed : ∀ action ∈ actions, ∀ before, permitted before action)
    (executed : system.execute state actions = some last) :
    system.ReachableUnder permitted last := by
  induction actions generalizing state with
  | nil =>
      have same : state = last := Option.some.inj executed
      exact same ▸ reachable
  | cons action actions induction =>
      rw [execute_cons, Option.bind_eq_some_iff] at executed
      obtain ⟨next, taken, rest⟩ := executed
      exact induction
        (reachable.step (allowed action List.mem_cons_self state) taken)
        (fun other mem => allowed other (List.mem_cons_of_mem _ mem)) rest

/-- A state reached by permitted actions stays so along permitted ones. -/
theorem ReachableUnder.executeUnder
    [∀ state action, Decidable (permitted state action)]
    {state last : State} {actions : List Action}
    (reachable : system.ReachableUnder permitted state)
    (executed : system.executeUnder permitted state actions = some last) :
    system.ReachableUnder permitted last := by
  induction actions generalizing state with
  | nil =>
      have same : state = last := Option.some.inj executed
      exact same ▸ reachable
  | cons action actions induction =>
      unfold TransitionSystem.executeUnder at executed
      split at executed
      · next allowed =>
          rw [Option.bind_eq_some_iff] at executed
          obtain ⟨next, taken, rest⟩ := executed
          exact induction (reachable.step allowed taken) rest
      · cases executed

end TransitionSystem

end LatencyBenchmark
