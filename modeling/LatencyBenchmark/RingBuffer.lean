import Mathlib.Data.Nat.ModEq
import Mathlib.Logic.Function.Basic

/-!
# Ring buffers

A ring buffer numbers its entries in the order of the writes.  A reader asks
for the entry of a position, at most the next one to be written, and waits
while there is none.  A writer never waits: an entry is overwritten by the one
a capacity later.

What a reader relies on is stated of any type with these operations.  An array
of slots with a cursor has it.
-/

namespace LatencyBenchmark

/-- The operations of a ring buffer.  A read that has to wait returns `none`. -/
structure RingBuffer (Ring Entry : Type*) where
  init : (capacity : Nat) → Ring
  write : Ring → Entry → Ring
  read : Ring → (pos : Int) → Option (Entry × Ring)

namespace RingBuffer

variable {Ring Entry : Type*}

/-- What a reader relies on.  `Holds` relates a ring to the entries written to
it, oldest first.  A read takes nothing away, so every reader finds every
entry; it waits exactly while its position is the next to be written, and it
finds the entry of its position until more than `capacity` are written from
there on.  Nothing is said of positions beyond the next. -/
structure Keeps (buffer : RingBuffer Ring Entry) (capacity limit : Nat)
    (Holds : Ring → List Entry → Prop) : Prop where
  holds_init : Holds (buffer.init capacity) []
  holds_write : ∀ {ring entries}, Holds ring entries →
    entries.length + 1 < limit →
      ∀ entry, Holds (buffer.write ring entry) (entries ++ [entry])
  holds_read : ∀ {ring entries}, Holds ring entries →
    ∀ {pos entry after}, buffer.read ring pos = some (entry, after) →
      Holds after entries
  answers : ∀ {ring entries}, Holds ring entries →
    ∀ {pos : Nat}, pos < entries.length → (buffer.read ring pos).isSome
  finds : ∀ {ring entries}, Holds ring entries →
    ∀ {pos : Nat}, pos ≤ entries.length → entries.length ≤ pos + capacity →
      (buffer.read ring pos).map Prod.fst = entries[pos]?

theorem Keeps.getElem?_of_read {buffer : RingBuffer Ring Entry}
    {capacity limit : Nat} {Holds : Ring → List Entry → Prop}
    (keeps : buffer.Keeps capacity limit Holds) {ring after : Ring}
    {entries : List Entry} (holds : Holds ring entries) {pos : Nat}
    (reached : pos ≤ entries.length) (near : entries.length ≤ pos + capacity)
    {entry : Entry} (found : buffer.read ring pos = some (entry, after)) :
    entries[pos]? = some entry := by
  rw [← keeps.finds holds reached near, found]
  rfl

/-! ## Slots -/

/-- An array of slots and the number of entries written to it. -/
structure Slots (Entry : Type*) where
  capacity : Nat
  slot : Nat → Option Entry
  cursor : Nat

def slots (Entry : Type*) : RingBuffer (Slots Entry) Entry where
  init := fun capacity => ⟨capacity, fun _ => none, 0⟩
  write := fun ring entry =>
    { ring with
      slot := Function.update ring.slot (ring.cursor % ring.capacity)
        (some entry)
      cursor := ring.cursor + 1 }
  read := fun ring pos =>
    if 0 ≤ pos ∧ pos < ring.cursor then
      (ring.slot (pos.toNat % ring.capacity)).map fun entry => (entry, ring)
    else
      none

/-- Every slot holds the last entry written to it. -/
structure Slots.Holds (capacity : Nat) (ring : Slots Entry)
    (entries : List Entry) : Prop where
  capacity_eq : ring.capacity = capacity
  cursor_eq : ring.cursor = entries.length
  written : ∀ pos < entries.length, (ring.slot (pos % capacity)).isSome
  last : ∀ pos < entries.length, entries.length ≤ pos + capacity →
    ring.slot (pos % capacity) = entries[pos]?

namespace Slots.Holds

variable {capacity : Nat} {ring : Slots Entry} {entries : List Entry}

theorem mod_ne {pos length : Nat} (before : pos < length)
    (near : length < pos + capacity) : pos % capacity ≠ length % capacity := by
  intro same
  have divides := (Nat.modEq_iff_dvd' (le_of_lt before)).mp same
  have bound := Nat.le_of_dvd (Nat.sub_pos_of_lt before) divides
  omega

theorem write (holds : ring.Holds capacity entries) (entry : Entry) :
    ((slots Entry).write ring entry).Holds capacity (entries ++ [entry]) := by
  obtain ⟨rfl, cursor, written, last⟩ := holds
  refine ⟨rfl, by simp [slots, cursor], ?_, ?_⟩
  · intro pos below
    rw [List.length_append, List.length_singleton] at below
    simp only [slots, Function.update_apply, cursor]
    split
    · rfl
    · next different =>
        apply written
        by_contra above
        exact different (congrArg (· % ring.capacity) (by omega))
  · intro pos below near
    rw [List.length_append, List.length_singleton] at below near
    simp only [slots, cursor]
    rcases Nat.lt_succ_iff_lt_or_eq.mp below with before | rfl
    · rw [Function.update_of_ne (mod_ne before (by omega)),
        last pos before (by omega), List.getElem?_append_left before]
    · rw [Function.update_self, List.getElem?_concat_length]

theorem read_eq (holds : ring.Holds capacity entries) {pos : Nat}
    (below : pos < entries.length) :
    (slots Entry).read ring pos =
      (ring.slot (pos % capacity)).map fun entry => (entry, ring) := by
  obtain ⟨rfl, cursor, _, _⟩ := holds
  simp [slots, cursor, below]

end Slots.Holds

theorem slots_keeps (Entry : Type*) (capacity limit : Nat) :
    (slots Entry).Keeps capacity limit (Slots.Holds capacity) where
  holds_init := ⟨rfl, rfl, by simp, by simp⟩
  holds_write := fun holds _ entry => holds.write entry
  holds_read := by
    intro ring entries holds pos entry after found
    simp only [slots] at found
    split at found
    · rw [Option.map_eq_some_iff] at found
      obtain ⟨_, _, same⟩ := found
      cases same
      exact holds
    · cases found
  answers := by
    intro ring entries holds pos below
    rw [holds.read_eq below, Option.isSome_map]
    exact holds.written pos below
  finds := by
    intro ring entries holds pos _ near
    by_cases below : pos < entries.length
    · rw [holds.read_eq below, holds.last pos below near, Option.map_map]
      exact Option.map_id'
    · rw [List.getElem?_eq_none (Nat.le_of_not_lt below)]
      simp [slots, holds.cursor_eq, below]

end RingBuffer

end LatencyBenchmark
