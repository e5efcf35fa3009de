import Mathlib.Data.List.Perm.Subperm

/-!
# A heap with a ledger

A heap says of every address whether it is allocated and what it holds, and
its ledger lists the allocations and the releases made so far.  An address may
be allocated again after its release, so the two lists are compared by how
often an address occurs in them: once more in the first exactly while it is
allocated.

Operations that are undefined for the program, such as releasing an address
twice, have no result here.
-/

namespace LatencyBenchmark

/-- The allocated addresses with their contents, `none` while uninitialised,
and the ledger of allocations and releases. -/
structure Heap (Address Value : Type*) [DecidableEq Address] where
  cell : Address → Option (Option Value)
  allocated : List Address
  released : List Address
  balanced : ∀ address, allocated.count address =
    released.count address + if (cell address).isSome then 1 else 0

namespace Heap

variable {Address Value : Type*} [DecidableEq Address]

/-- Nothing is allocated. -/
def empty : Heap Address Value where
  cell := fun _ => none
  allocated := []
  released := []
  balanced := fun _ => rfl

/-- An address that is not allocated is handed out, its content
uninitialised. -/
def malloc (heap : Heap Address Value) (address : Address)
    (unused : heap.cell address = none) : Heap Address Value where
  cell := Function.update heap.cell address (some none)
  allocated := address :: heap.allocated
  released := heap.released
  balanced := by
    intro other
    have before := heap.balanced other
    by_cases same : other = address
    · subst same
      simp [unused] at before
      simp [before]
    · have different : address ≠ other := fun equal => same equal.symm
      rw [List.count_cons_of_ne different, Function.update_of_ne same]
      exact before

/-- The content of an allocated address is written. -/
def store (heap : Heap Address Value) (address : Address) (value : Value)
    (allocated : (heap.cell address).isSome) : Heap Address Value where
  cell := Function.update heap.cell address (some (some value))
  allocated := heap.allocated
  released := heap.released
  balanced := by
    intro other
    have before := heap.balanced other
    by_cases same : other = address
    · subst same
      simpa [allocated] using before
    · rwa [Function.update_of_ne same]

/-- An allocated address is released. -/
def free (heap : Heap Address Value) (address : Address)
    (allocated : (heap.cell address).isSome) : Heap Address Value where
  cell := Function.update heap.cell address none
  allocated := heap.allocated
  released := address :: heap.released
  balanced := by
    intro other
    have before := heap.balanced other
    by_cases same : other = address
    · subst same
      simpa [allocated] using before
    · have different : address ≠ other := fun equal => same equal.symm
      rw [List.count_cons_of_ne different, Function.update_of_ne same]
      exact before

/-- Whether an address is allocated, as a number. -/
def live (heap : Heap Address Value) (address : Address) : Nat :=
  if (heap.cell address).isSome then 1 else 0

section Operations

variable {heap : Heap Address Value} {address other : Address} {value : Value}

theorem live_le_one (heap : Heap Address Value) (address : Address) :
    heap.live address ≤ 1 := by
  unfold live
  split <;> omega

theorem isSome_of_live (positive : 0 < heap.live address) :
    (heap.cell address).isSome := by
  unfold live at positive
  split at positive
  · assumption
  · exact absurd positive (Nat.lt_irrefl 0)

theorem cell_malloc_of_ne (unused : heap.cell address = none)
    (different : other ≠ address) :
    (heap.malloc address unused).cell other = heap.cell other :=
  Function.update_of_ne different _ _

@[simp]
theorem cell_store_self (allocated : (heap.cell address).isSome) :
    (heap.store address value allocated).cell address = some (some value) :=
  Function.update_self _ _ _

theorem cell_store_of_ne (allocated : (heap.cell address).isSome)
    (different : other ≠ address) :
    (heap.store address value allocated).cell other = heap.cell other :=
  Function.update_of_ne different _ _

theorem cell_free_of_ne (allocated : (heap.cell address).isSome)
    (different : other ≠ address) :
    (heap.free address allocated).cell other = heap.cell other :=
  Function.update_of_ne different _ _

theorem live_malloc (unused : heap.cell address = none) :
    (heap.malloc address unused).live other =
      heap.live other + if address = other then 1 else 0 := by
  by_cases same : other = address
  · subst same
    simp [live, malloc, unused]
  · have different : address ≠ other := fun equal => same equal.symm
    simp [live, cell_malloc_of_ne unused same, different]

@[simp]
theorem live_store (allocated : (heap.cell address).isSome) :
    (heap.store address value allocated).live other = heap.live other := by
  by_cases same : other = address
  · subst same
    simp [live, allocated]
  · simp [live, cell_store_of_ne allocated same]

theorem live_free (allocated : (heap.cell address).isSome) :
    (heap.free address allocated).live other +
      (if address = other then 1 else 0) = heap.live other := by
  by_cases same : other = address
  · subst same
    simp [live, free, allocated]
  · have different : address ≠ other := fun equal => same equal.symm
    simp [live, cell_free_of_ne allocated same, different]

end Operations

/-- What was released was allocated. -/
theorem released_subperm (heap : Heap Address Value) :
    List.Subperm heap.released heap.allocated := by
  rw [List.subperm_ext_iff]
  intro address _
  have balance := heap.balanced address
  omega

/-- No more is released than was allocated. -/
theorem released_length_le (heap : Heap Address Value) :
    heap.released.length ≤ heap.allocated.length :=
  heap.released_subperm.length_le

/-- Once everything is released nothing is allocated. -/
theorem cell_eq_none_of_length_eq {heap : Heap Address Value}
    (every : heap.released.length = heap.allocated.length)
    (address : Address) : heap.cell address = none := by
  have same := heap.released_subperm.perm_of_length_le
    (Nat.le_of_eq every.symm)
  have balance := heap.balanced address
  rw [same.count_eq] at balance
  by_contra allocated
  rw [← ne_eq, ← Option.isSome_iff_ne_none] at allocated
  rw [if_pos allocated] at balance
  omega

end Heap

end LatencyBenchmark
