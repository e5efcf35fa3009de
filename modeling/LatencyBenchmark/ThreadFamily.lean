import Mathlib.Algebra.BigOperators.Group.Finset.Basic
import Mathlib.Algebra.Order.BigOperators.Group.Finset
import Mathlib.Data.Fintype.BigOperators
import Mathlib.Tactic.Abel

/-!
# Families of threads under a single-thread update

A step of an interleaved program changes the local state of one thread, or of
two threads that meet at a rendezvous.  Global counts over all threads (how
many have finished, how many steps remain, how many messages were received)
are sums of a weight over the family.  This file says how such a sum changes
when one member of the family is replaced.
-/

namespace LatencyBenchmark

namespace ThreadFamily

variable {Thread Local : Type*}

section Sums

variable [Fintype Thread] [DecidableEq Thread]

/-- Replacing one thread exchanges its old weight for its new one. -/
theorem sum_update {Weight : Type*} [AddCommMonoid Weight]
    (family : Thread → Local) (thread : Thread) (value : Local)
    (weight : Thread → Local → Weight) :
    (∑ other, weight other (Function.update family thread value other)) +
        weight thread (family thread) =
      (∑ other, weight other (family other)) + weight thread value := by
  have others : ∑ other ∈ Finset.univ.erase thread,
        weight other (Function.update family thread value other) =
      ∑ other ∈ Finset.univ.erase thread, weight other (family other) := by
    apply Finset.sum_congr rfl
    intro other mem
    rw [Function.update_of_ne (Finset.ne_of_mem_erase mem)]
  rw [← Finset.add_sum_erase _ _ (Finset.mem_univ thread),
    ← Finset.add_sum_erase _ (fun other => weight other (family other))
      (Finset.mem_univ thread), others, Function.update_self]
  abel

/-- A thread whose weight grows by some amount adds it to the sum. -/
theorem sum_update_add {Weight : Type*} [AddCancelCommMonoid Weight]
    {family : Thread → Local} {thread : Thread} {value : Local}
    {extra : Weight} (weight : Thread → Local → Weight)
    (grows : weight thread value = extra + weight thread (family thread)) :
    ∑ other, weight other (Function.update family thread value other) =
      extra + ∑ other, weight other (family other) := by
  have exchanged := sum_update family thread value weight
  rw [grows, ← add_assoc] at exchanged
  rw [add_right_cancel exchanged, add_comm]

/-- Replacing a thread by one of the same weight keeps the sum. -/
theorem sum_update_eq {Weight : Type*} [AddCancelCommMonoid Weight]
    {family : Thread → Local} {thread : Thread} {value : Local}
    (weight : Thread → Local → Weight)
    (sameWeight : weight thread value = weight thread (family thread)) :
    ∑ other, weight other (Function.update family thread value other) =
      ∑ other, weight other (family other) := by
  have grows : weight thread value = 0 + weight thread (family thread) := by
    rw [sameWeight, zero_add]
  rw [sum_update_add weight grows, zero_add]

omit [DecidableEq Thread] in
/-- One weight is at most the sum of all. -/
theorem le_sum (weight : Thread → Nat) (thread : Thread) :
    weight thread ≤ ∑ other, weight other :=
  Finset.single_le_sum_of_canonicallyOrdered (Finset.mem_univ thread)

/-- Two weights are together at most the sum of all. -/
theorem add_le_sum (weight : Thread → Nat) {first second : Thread}
    (different : first ≠ second) :
    weight first + weight second ≤ ∑ other, weight other := by
  rw [← Finset.add_sum_erase _ weight (Finset.mem_univ first)]
  apply Nat.add_le_add_left
  apply Finset.single_le_sum_of_canonicallyOrdered
  exact Finset.mem_erase.mpr ⟨different.symm, Finset.mem_univ second⟩

/-- The number of threads with a property. -/
def count (property : Local → Prop) [DecidablePred property]
    (family : Thread → Local) : Nat :=
  ∑ thread, if property (family thread) then 1 else 0

section Count

variable {property : Local → Prop} [DecidablePred property]
variable {family : Thread → Local} {thread : Thread} {value : Local}

/-- A thread that keeps having or lacking the property keeps the count. -/
theorem count_update_same
    (same : property value ↔ property (family thread)) :
    count property (Function.update family thread value) =
      count property family := by
  apply sum_update_eq (fun _ member => if property member then 1 else 0)
  simp only [same]

/-- A thread that gains the property adds one to the count. -/
theorem count_update_gain (new : property value)
    (old : ¬property (family thread)) :
    count property (Function.update family thread value) =
      1 + count property family := by
  apply sum_update_add (fun _ member => if property member then 1 else 0)
  rw [if_pos new, if_neg old]

/-- A thread that loses the property takes one from the count. -/
theorem count_update_lose (new : ¬property value)
    (old : property (family thread)) :
    1 + count property (Function.update family thread value) =
      count property family := by
  have exchanged := sum_update family thread value
    (fun _ member => if property member then 1 else 0)
  rw [if_neg new, if_pos old] at exchanged
  unfold count
  omega

omit [DecidableEq Thread] in
theorem count_eq_zero_iff :
    count property family = 0 ↔ ∀ thread, ¬property (family thread) := by
  unfold count
  rw [← Finset.card_filter, Finset.card_eq_zero, Finset.filter_eq_empty_iff]
  simp

omit [DecidableEq Thread] in
/-- A thread with the property is counted. -/
theorem count_pos (has : property (family thread)) :
    0 < count property family := by
  have someOne : count property family ≠ 0 := fun zero =>
    count_eq_zero_iff.mp zero thread has
  omega

omit [DecidableEq Thread] in
theorem count_le_card : count property family ≤ Fintype.card Thread := by
  unfold count
  rw [← Finset.card_filter]
  exact Finset.card_filter_le _ _

omit [DecidableEq Thread] in
/-- The count reaches the number of threads when all have the property. -/
theorem count_eq_card_iff :
    count property family = Fintype.card Thread ↔
      ∀ thread, property (family thread) := by
  unfold count
  rw [← Finset.card_filter, ← Finset.card_univ,
    Finset.card_filter_eq_iff]
  simp

end Count

end Sums

/-- A property of every member survives an update whose new member has it. -/
theorem forall_update [DecidableEq Thread]
    (property : Thread → Local → Prop) {family : Thread → Local}
    {thread : Thread} {value : Local}
    (every : ∀ other, property other (family other))
    (new : property thread value) :
    ∀ other, property other (Function.update family thread value other) := by
  intro other
  by_cases same : other = thread
  · subst same
    rwa [Function.update_self]
  · rw [Function.update_of_ne same]
    exact every other

/-- A loop that gives a property to one thread after another has given it to
the threads before its counter. -/
theorem iff_lt_update {size i : Nat} (property : Local → Prop)
    {family : Fin size → Local} {value : Local} (inside : i < size)
    (before : ∀ other, property (family other) ↔ (other : Nat) < i)
    (new : property value) (other : Fin size) :
    property (Function.update family ⟨i, inside⟩ value other) ↔
      (other : Nat) < i + 1 := by
  by_cases same : other = ⟨i, inside⟩
  · subst same
    rw [Function.update_self]
    simp [new]
  · have different : (other : Nat) ≠ i := fun equal => same (Fin.ext equal)
    rw [Function.update_of_ne same, before]
    omega

/-- A loop that takes a property from one thread after another has taken it
from the threads before its counter. -/
theorem iff_not_lt_update {size i : Nat} (property : Local → Prop)
    {family : Fin size → Local} {value : Local} (inside : i < size)
    (before : ∀ other, property (family other) ↔ ¬(other : Nat) < i)
    (new : ¬property value) (other : Fin size) :
    property (Function.update family ⟨i, inside⟩ value other) ↔
      ¬(other : Nat) < i + 1 := by
  have changed := iff_lt_update (¬property ·) inside
    (fun earlier => not_iff_comm.mp (before earlier).symm) new other
  exact (not_iff_comm.mp changed).symm

/-- A loop that waits for one thread after another has waited for the threads
before its counter. -/
theorem forall_lt_succ {size i : Nat} {property : Fin size → Prop}
    (inside : i < size)
    (before : ∀ other : Fin size, (other : Nat) < i → property other)
    (new : property ⟨i, inside⟩) (other : Fin size)
    (below : (other : Nat) < i + 1) : property other := by
  rcases Nat.lt_succ_iff_lt_or_eq.mp below with earlier | last
  · exact before other earlier
  · obtain rfl : other = ⟨i, inside⟩ := Fin.ext last
    exact new

/-- A loop that replaces one thread after another has replaced the threads
before its counter. -/
theorem update_lt {size i : Nat} (inside : i < size)
    (new old : Fin size → Local) :
    Function.update
        (fun thread : Fin size => if thread < i then new thread else old thread)
        ⟨i, inside⟩ (new ⟨i, inside⟩) =
      fun thread : Fin size =>
        if thread < i + 1 then new thread else old thread := by
  funext thread
  by_cases same : thread = ⟨i, inside⟩
  · subst same
    rw [Function.update_self, if_pos (Nat.lt_succ_self i)]
  · have different : (thread : Nat) ≠ i := fun equal => same (Fin.ext equal)
    rw [Function.update_of_ne same]
    congr 1
    apply propext
    omega

/-- When weights sum to one, one thread has weight one and all others have
none. -/
theorem exists_weight_eq_one [Fintype Thread] [DecidableEq Thread]
    {weight : Thread → Nat} (total : ∑ thread, weight thread = 1) :
    ∃ thread, weight thread = 1 ∧
      ∀ other, other ≠ thread → weight other = 0 := by
  have positive : ∑ thread, weight thread ≠ 0 := by omega
  obtain ⟨thread, _, present⟩ := Finset.exists_ne_zero_of_sum_ne_zero positive
  have rest := Finset.add_sum_erase Finset.univ weight
    (Finset.mem_univ thread)
  rw [total] at rest
  have none : ∑ other ∈ Finset.univ.erase thread, weight other = 0 := by
    omega
  refine ⟨thread, by omega, fun other different => ?_⟩
  exact Finset.sum_eq_zero_iff.mp none other
    (Finset.mem_erase.mpr ⟨different, Finset.mem_univ other⟩)

end ThreadFamily

end LatencyBenchmark
