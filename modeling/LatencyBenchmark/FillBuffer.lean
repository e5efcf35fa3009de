import Mathlib.Data.List.TakeDrop

/-!
# Buffers filled from the front

A buffer of a fixed number of slots and the index of the first free one.  A
value is stored in that slot, unless the buffer is full; storing outside the
slots fails.
-/

namespace LatencyBenchmark

structure FillBuffer (Value : Type*) where
  slots : List Value
  idx : Int
  maxLen : Int

namespace FillBuffer

variable {Value : Type*}

/-- A buffer before anything is stored in it. -/
def empty (initial : Value) (maxLen : Int) : FillBuffer Value where
  slots := List.replicate maxLen.toNat initial
  idx := 0
  maxLen := maxLen

/-- The bound check `idx > maxLen - 1`. -/
def IsFull (buffer : FillBuffer Value) : Prop :=
  buffer.maxLen - 1 < buffer.idx

instance (buffer : FillBuffer Value) : Decidable buffer.IsFull :=
  inferInstanceAs (Decidable (_ < _))

/-- `slots[idx] = value`. -/
def store (buffer : FillBuffer Value) (value : Value) :
    Option (FillBuffer Value) :=
  if 0 ≤ buffer.idx ∧ buffer.idx < buffer.slots.length then
    some { buffer with slots := buffer.slots.set buffer.idx.toNat value }
  else
    none

/-- `idx++`. -/
def advance (buffer : FillBuffer Value) : FillBuffer Value :=
  { buffer with idx := buffer.idx + 1 }

/-- Store a value in the first free slot. -/
def put (buffer : FillBuffer Value) (value : Value) :
    Option (FillBuffer Value) :=
  (buffer.store value).map advance

/-- Store a value unless the buffer is full. -/
def offer (buffer : FillBuffer Value) (value : Value) :
    Option (FillBuffer Value) :=
  if buffer.IsFull then some buffer else buffer.put value

/-- The values stored so far. -/
def contents (buffer : FillBuffer Value) : List Value :=
  buffer.slots.take buffer.idx.toNat

/-- A buffer of the size that holds exactly the values. -/
structure Holding (maxLen : Nat) (buffer : FillBuffer Value)
    (values : List Value) : Prop where
  maxLen_eq : buffer.maxLen = maxLen
  length_slots : buffer.slots.length = maxLen
  idx_eq : buffer.idx = values.length
  length_le : values.length ≤ maxLen
  contents_eq : buffer.contents = values

variable {buffer : FillBuffer Value} {maxLen : Nat} {values : List Value}

theorem holding_empty (initial : Value) (maxLen : Nat) :
    Holding maxLen (empty initial maxLen) [] where
  maxLen_eq := rfl
  length_slots := by simp [empty]
  idx_eq := rfl
  length_le := Nat.zero_le _
  contents_eq := rfl

theorem Holding.isFull_iff (holding : Holding maxLen buffer values) :
    buffer.IsFull ↔ values.length = maxLen := by
  have fits := holding.length_le
  unfold IsFull
  rw [holding.maxLen_eq, holding.idx_eq]
  omega

/-- Storing succeeds inside the slots. -/
theorem store_eq_some (value : Value) (nonneg : 0 ≤ buffer.idx)
    (inside : buffer.idx < buffer.slots.length) :
    buffer.store value =
      some { buffer with slots := buffer.slots.set buffer.idx.toNat value } :=
  if_pos ⟨nonneg, inside⟩

/-- Storing a value makes the contents longer. -/
theorem contents_ne_of_put {next : FillBuffer Value} {value : Value}
    (stored : buffer.put value = some next) :
    next.contents ≠ buffer.contents := by
  unfold FillBuffer.put store at stored
  split at stored
  · next inside =>
      intro same
      have lengths := congrArg List.length same
      rw [← Option.some.inj stored] at lengths
      unfold contents advance at lengths
      rw [List.length_take, List.length_take, List.length_set] at lengths
      dsimp only at lengths
      omega
  · cases stored

/-- A value stored in a buffer that is not full follows the others. -/
theorem Holding.put (holding : Holding maxLen buffer values)
    (room : values.length < maxLen) (value : Value) :
    ∃ next, buffer.put value = some next ∧
      Holding maxLen next (values ++ [value]) := by
  have inside : buffer.idx.toNat < buffer.slots.length := by
    rw [holding.idx_eq, holding.length_slots]
    exact room
  have stored : (buffer.slots.set buffer.idx.toNat value).take
      (buffer.idx.toNat + 1) = values ++ [value] := by
    rw [List.take_add_one, List.take_set_of_le (Nat.le_refl _),
      List.getElem?_set_self inside, ← holding.contents_eq]
    rfl
  have fromZero : 0 ≤ buffer.idx := by
    rw [holding.idx_eq]
    exact Int.natCast_nonneg _
  have below : buffer.idx < buffer.slots.length := by omega
  refine ⟨_, congrArg (Option.map advance)
    (store_eq_some value fromZero below), ?_⟩
  exact {
    maxLen_eq := holding.maxLen_eq
    length_slots := by
      change (buffer.slots.set buffer.idx.toNat value).length = maxLen
      rw [List.length_set]
      exact holding.length_slots
    idx_eq := by
      change buffer.idx + 1 = ((values ++ [value]).length : Int)
      rw [holding.idx_eq, List.length_append]
      rfl
    length_le := by
      rw [List.length_append]
      exact room
    contents_eq := by
      unfold contents advance
      rw [← stored]
      congr 1
      change (buffer.idx + 1).toNat = buffer.idx.toNat + 1
      omega }

/-- A buffer that holds the first of the values offered to it still does
after one more. -/
theorem Holding.offer {offered : List Value}
    (holding : Holding maxLen buffer (offered.take maxLen)) (value : Value) :
    ∃ next, buffer.offer value = some next ∧
      Holding maxLen next ((offered ++ [value]).take maxLen) := by
  unfold FillBuffer.offer
  by_cases full : buffer.IsFull
  · have length := holding.isFull_iff.mp full
    rw [List.length_take] at length
    rw [if_pos full, List.take_append_of_le_length (by omega)]
    exact ⟨buffer, rfl, holding⟩
  · have room := mt holding.isFull_iff.mpr full
    rw [List.length_take] at room
    have all : offered.take maxLen = offered :=
      List.take_of_length_le (by omega)
    rw [all] at holding
    obtain ⟨next, stored, later⟩ := holding.put (by omega) value
    rw [if_neg full, List.take_of_length_le later.length_le]
    exact ⟨next, stored, later⟩

/-- Of all the values offered one after the other, a buffer holds the first
ones. -/
theorem Holding.foldlM_offer {offered : List Value}
    (holding : Holding maxLen buffer (offered.take maxLen))
    (values : List Value) :
    ∃ last, values.foldlM FillBuffer.offer buffer = some last ∧
      Holding maxLen last ((offered ++ values).take maxLen) := by
  induction values generalizing buffer offered with
  | nil =>
      rw [List.append_nil]
      exact ⟨buffer, rfl, holding⟩
  | cons value values induction =>
      obtain ⟨next, added, later⟩ := holding.offer value
      obtain ⟨last, folded, ends⟩ := induction later
      rw [List.append_assoc, List.singleton_append] at ends
      refine ⟨last, ?_, ends⟩
      rw [List.foldlM_cons, added]
      exact folded

end FillBuffer

end LatencyBenchmark
