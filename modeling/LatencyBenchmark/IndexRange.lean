import Mathlib.Algebra.Order.Group.Nat
import Mathlib.Data.Set.Function
import Mathlib.Order.Interval.Set.Basic
import Mathlib.Order.SetNotation
import Mathlib.Tactic.Ring

/-!
# Dividing a range of indices among workers

The indices below a total are cut into parts of `total / workers`, one for
each worker, and the last worker also takes what the division leaves over.
Every index belongs to the part of exactly one worker.  Repeating the division
in every round numbers the places of all rounds one after another.
-/

namespace LatencyBenchmark

namespace IndexRange

/-- The first index of a worker's part. -/
def first (total workers worker : Nat) : Nat :=
  worker * (total / workers)

/-- The first index past a worker's part. -/
def past (total workers worker : Nat) : Nat :=
  if worker + 1 = workers then total else (worker + 1) * (total / workers)

/-- The index lies in the worker's part. -/
def Owns (total workers worker index : Nat) : Prop :=
  first total workers worker ≤ index ∧ index < past total workers worker

variable {total workers worker other index : Nat}

theorem mul_div_le_total (inside : worker ≤ workers) :
    worker * (total / workers) ≤ total := by
  calc worker * (total / workers)
      ≤ workers * (total / workers) := Nat.mul_le_mul_right _ inside
    _ ≤ total := Nat.mul_div_le total workers

theorem past_le (inside : worker < workers) :
    past total workers worker ≤ total := by
  unfold past
  split
  · exact le_rfl
  · exact mul_div_le_total inside

/-- The parts follow one another. -/
theorem past_le_first (earlier : worker < other) (inside : other < workers) :
    past total workers worker ≤ first total workers other := by
  have notLast : worker + 1 ≠ workers := by omega
  unfold past first
  rw [if_neg notLast]
  exact Nat.mul_le_mul_right _ earlier

theorem Owns.index_lt (owns : Owns total workers worker index)
    (inside : worker < workers) : index < total :=
  lt_of_lt_of_le owns.2 (past_le inside)

/-- No index belongs to two workers. -/
theorem Owns.unique (owns : Owns total workers worker index)
    (ownsToo : Owns total workers other index)
    (inside : worker < workers) (otherInside : other < workers) :
    worker = other := by
  rcases lt_trichotomy worker other with earlier | same | later
  · have apart : past total workers worker ≤ first total workers other :=
      past_le_first earlier otherInside
    have below := owns.2
    have above := ownsToo.1
    omega
  · exact same
  · have apart : past total workers other ≤ first total workers worker :=
      past_le_first later inside
    have below := ownsToo.2
    have above := owns.1
    omega

/-- Every index belongs to a worker. -/
theorem exists_owns (someWorker : 0 < workers) (inside : index < total) :
    ∃ worker < workers, Owns total workers worker index := by
  by_cases small : index < (workers - 1) * (total / workers)
  · have positive : 0 < total / workers := by
      rcases Nat.eq_zero_or_pos (total / workers) with none | positive
      · rw [none, Nat.mul_zero] at small
        omega
      · exact positive
    have quotient : index / (total / workers) < workers - 1 :=
      Nat.div_lt_of_lt_mul (by rwa [Nat.mul_comm] at small)
    refine ⟨index / (total / workers), by omega, ?_, ?_⟩
    · exact Nat.div_mul_le_self index (total / workers)
    · unfold past
      rw [if_neg (by omega)]
      rw [Nat.mul_comm]
      exact Nat.lt_mul_div_succ index positive
  · refine ⟨workers - 1, by omega, ?_, ?_⟩
    · exact Nat.le_of_not_lt small
    · unfold past
      rw [if_pos (by omega)]
      exact inside

/-- The parts of two workers share no index. -/
theorem inter_parts (inside : worker < workers)
    (otherInside : other < workers) (distinct : worker ≠ other) :
    Set.Ico (first total workers worker) (past total workers worker) ∩
      Set.Ico (first total workers other) (past total workers other) = ∅ := by
  ext index
  constructor
  · rintro ⟨owns, ownsToo⟩
    exact absurd (Owns.unique owns ownsToo inside otherInside) distinct
  · exact False.elim

/-- The parts of all workers together are the whole range. -/
theorem iUnion_parts (someWorker : 0 < workers) :
    (⋃ worker < workers,
      Set.Ico (first total workers worker) (past total workers worker)) =
        Set.Ico 0 total := by
  ext index
  simp only [Set.mem_iUnion, exists_prop]
  constructor
  · rintro ⟨worker, inside, owns⟩
    exact ⟨Nat.zero_le _, Owns.index_lt owns inside⟩
  · rintro ⟨-, inside⟩
    exact exists_owns someWorker inside

/-- A worker's place in a round. -/
structure Place where
  worker : Nat
  round : Nat
  index : Nat
  deriving DecidableEq, Repr

/-- The places that all workers visit in all rounds. -/
def places (rounds total workers : Nat) : Set Place :=
  {place | place.worker < workers ∧ place.round < rounds ∧
    Owns total workers place.worker place.index}

/-- The number of a place when the rounds follow one another. -/
def Place.number (total : Nat) (place : Place) : Nat :=
  place.round * total + place.index

theorem Place.number_lt {place : Place} {rounds : Nat}
    (visited : place ∈ places rounds total workers) :
    place.number total < rounds * total := by
  obtain ⟨inside, inRounds, owns⟩ := visited
  have below := Owns.index_lt owns inside
  calc place.round * total + place.index
      < place.round * total + total := Nat.add_lt_add_left below _
    _ = (place.round + 1) * total := by ring
    _ ≤ rounds * total := Nat.mul_le_mul_right _ inRounds

/-- The number of a place determines the place. -/
theorem Place.number_injOn (rounds total workers : Nat) :
    Set.InjOn (Place.number total) (places rounds total workers) := by
  rintro ⟨worker, round, index⟩ ⟨inside, -, owns⟩
    ⟨other, otherRound, otherIndex⟩ ⟨otherInside, -, otherOwns⟩ same
  have below := Owns.index_lt owns inside
  have otherBelow := Owns.index_lt otherOwns otherInside
  have positive : 0 < total := Nat.zero_lt_of_lt below
  simp only [Place.number] at same below otherBelow
  have roundEq : round = otherRound := by
    have quotients := congrArg (· / total) same
    simpa [Nat.add_comm, Nat.add_mul_div_right _ _ positive,
      Nat.div_eq_of_lt below, Nat.div_eq_of_lt otherBelow] using quotients
  subst otherRound
  have indexEq : index = otherIndex := Nat.add_left_cancel same
  subst otherIndex
  have workerEq : worker = other :=
    Owns.unique owns otherOwns inside otherInside
  rw [workerEq]

/-- **Rounds of divided work.**  The places of all workers in all rounds are
numbered without gaps and without repetition. -/
theorem Place.number_bijOn (rounds total : Nat) (someWorker : 0 < workers) :
    Set.BijOn (Place.number total) (places rounds total workers)
      (Set.Ico 0 (rounds * total)) := by
  refine ⟨?_, Place.number_injOn rounds total workers, ?_⟩
  · intro place visited
    exact ⟨Nat.zero_le _, Place.number_lt visited⟩
  · rintro number ⟨-, inside⟩
    have positive : 0 < total := by
      rcases Nat.eq_zero_or_pos total with none | positive
      · rw [none, Nat.mul_zero] at inside
        omega
      · exact positive
    obtain ⟨worker, workerInside, owns⟩ :=
      exists_owns someWorker (Nat.mod_lt number positive)
    refine ⟨⟨worker, number / total, number % total⟩,
      ⟨workerInside, ?_, owns⟩, ?_⟩
    · exact Nat.div_lt_of_lt_mul (by rwa [Nat.mul_comm] at inside)
    · exact Nat.div_add_mod' number total

end IndexRange

end LatencyBenchmark
