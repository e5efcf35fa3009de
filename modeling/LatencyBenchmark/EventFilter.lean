import Mathlib.Data.List.Basic
import Mathlib.Data.List.Induction

/-!
# Leaving out events

A machine handles events one after the other.  Leaving some of the events out
does not show in a view of its state exactly when none of them, when it
arrives, changes the view, provided that equal views stay equal under every
event.
-/

namespace LatencyBenchmark

namespace EventFilter

variable {State Event View : Type*} {step : State → Event → State}
  {view : State → View} {start : State} {kept : Event → Bool}

/-- At every moment the view is as if only the kept events had arrived. -/
def SameView (step : State → Event → State) (view : State → View)
    (start : State) (kept : Event → Bool) (events : List Event) : Prop :=
  ∀ before after, events = before ++ after →
    view (before.foldl step start) =
      view ((before.filter kept).foldl step start)

/-- No event that is left out changes the view when it arrives. -/
def Unchanged (step : State → Event → State) (view : State → View)
    (start : State) (kept : Event → Bool) (events : List Event) : Prop :=
  ∀ before event after, events = before ++ event :: after →
    kept event = false →
      view (step (before.foldl step start) event) =
        view (before.foldl step start)

theorem SameView.unchanged {events : List Event}
    (same : SameView step view start kept events) :
    Unchanged step view start kept events := by
  intro before event after split leftOut
  have early := same before (event :: after) split
  have late := same (before ++ [event]) after (by simp [split])
  rw [List.filter_append, List.filter_cons_of_neg (by simp [leftOut]),
    List.filter_nil, List.append_nil, ← early, List.foldl_append] at late
  exact late

theorem Unchanged.sameView {events : List Event}
    (respects : ∀ first second event, view first = view second →
      view (step first event) = view (step second event))
    (unchanged : Unchanged step view start kept events) :
    SameView step view start kept events := by
  intro before
  induction before using List.reverseRecOn with
  | nil => exact fun _ _ => rfl
  | append_singleton before event induction =>
      intro after split
      have longer : events = before ++ event :: after := by simp [split]
      have earlier := induction (event :: after) longer
      rw [List.foldl_append, List.filter_append, List.foldl_append]
      change view (step (before.foldl step start) event) = _
      by_cases keep : kept event = true
      · rw [List.filter_cons_of_pos keep]
        exact respects _ _ event earlier
      · rw [List.filter_cons_of_neg keep]
        rw [unchanged before event after longer (by simpa using keep)]
        exact earlier

end EventFilter

end LatencyBenchmark
