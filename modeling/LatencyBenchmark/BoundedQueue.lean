import Mathlib.Data.List.Basic

/-!
# Bounded queues

A first-in first-out queue whose length never exceeds its capacity.  Putting
into a full queue and taking from an empty one block, so both operations
return an option.
-/

namespace LatencyBenchmark

/-- A queue, oldest element first, with its bound. -/
@[ext]
structure BoundedQueue (Element : Type*) (capacity : Nat) where
  items : List Element
  bounded : items.length ≤ capacity

namespace BoundedQueue

variable {Element : Type*} {capacity : Nat}

def empty : BoundedQueue Element capacity where
  items := []
  bounded := Nat.zero_le capacity

/-- Add an element at the end, unless the queue is full. -/
def put (queue : BoundedQueue Element capacity) (element : Element) :
    Option (BoundedQueue Element capacity) :=
  if room : queue.items.length < capacity then
    some ⟨queue.items ++ [element], by
      rw [List.length_append, List.length_singleton]
      omega⟩
  else
    none

/-- Remove the oldest element, unless the queue is empty. -/
def take (queue : BoundedQueue Element capacity) :
    Option (Element × BoundedQueue Element capacity) :=
  match queue with
  | ⟨[], _⟩ => none
  | ⟨element :: rest, bounded⟩ =>
      some (element, ⟨rest, by
        rw [List.length_cons] at bounded
        omega⟩)

@[simp]
theorem items_empty :
    (empty : BoundedQueue Element capacity).items = [] :=
  rfl

theorem put_eq_some_iff {queue next : BoundedQueue Element capacity}
    {element : Element} :
    queue.put element = some next ↔
      queue.items.length < capacity ∧
        next.items = queue.items ++ [element] := by
  unfold put
  split
  · next room => simp [BoundedQueue.ext_iff, room, eq_comm]
  · next full => simp [full]

theorem take_eq_some_iff {queue next : BoundedQueue Element capacity}
    {element : Element} :
    queue.take = some (element, next) ↔
      queue.items = element :: next.items := by
  obtain ⟨items, bounded⟩ := queue
  cases items with
  | nil => simp [take]
  | cons first rest => simp [take, BoundedQueue.ext_iff]

/-- Only a full queue refuses an element. -/
theorem put_eq_none_iff {queue : BoundedQueue Element capacity}
    {element : Element} :
    queue.put element = none ↔ capacity ≤ queue.items.length := by
  unfold put
  split
  · next room => simp [room]
  · next full => simpa using full

/-- Only an empty queue yields no element. -/
theorem take_eq_none_iff {queue : BoundedQueue Element capacity} :
    queue.take = none ↔ queue.items = [] := by
  obtain ⟨items, bounded⟩ := queue
  cases items with
  | nil => simp [take]
  | cons first rest => simp [take]

end BoundedQueue

end LatencyBenchmark
