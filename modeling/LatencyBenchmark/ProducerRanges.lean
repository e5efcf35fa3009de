import LatencyBenchmark.MachineInteger
import LatencyBenchmark.ThreadTransChannel
import Mathlib.Data.List.Nodup
import Mathlib.Data.List.ProdSigma
import Mathlib.Tactic.Linarith

/-!
# Ranges of the producers

`benchmark_wr` of the Go channel benchmark and `Benchmark_wr` of the C
allocation benchmark give every producer a range of indices and let it write
the blocks of its range in every loop.  Every block is written by exactly one
producer in exactly one loop.
-/

namespace LatencyBenchmark

/-- What a benchmark computes to divide the blocks among its producers. -/
structure WorkSplit where
  /-- The length of the blocks array. -/
  cnt : Nat
  loop : Nat
  startIdx : Nat → Nat
  endIdx : Nat → Nat
  /-- The block that a producer writes at `i` and `j` of its loops. -/
  blockIndex : Nat → Nat → Nat

namespace WorkSplit

open IndexRange (Place)

variable {split : WorkSplit} {loop cntPerLoop cntProducer : Nat}

/-- A producer's loops: `i` below `loop`, and in each of them `j` from
`start_idx` up to `end_idx`. -/
def iterations (split : WorkSplit) (producer : Nat) : List (Nat × Nat) :=
  (List.range split.loop).flatMap fun i =>
    (List.range' (split.startIdx producer)
      (split.endIdx producer - split.startIdx producer)).map fun j => (i, j)

/-- The iterations of all producers. -/
def visited (split : WorkSplit) (cntProducer : Nat) : Set Place :=
  {place | place.worker < cntProducer ∧
    (place.round, place.index) ∈ split.iterations place.worker}

/-- The block that is written in an iteration. -/
def written (split : WorkSplit) (place : Place) : Nat :=
  split.blockIndex place.round place.index

/-- The ranges partition the indices of one loop, and the iterations of all
producers write every block of the array once. -/
structure IsPartition (split : WorkSplit) (loop cntPerLoop cntProducer : Nat) :
    Prop where
  disjoint : ∀ p < cntProducer, ∀ q < cntProducer, p ≠ q →
    Set.Ico (split.startIdx p) (split.endIdx p) ∩
      Set.Ico (split.startIdx q) (split.endIdx q) = ∅
  covers : (⋃ p < cntProducer,
    Set.Ico (split.startIdx p) (split.endIdx p)) = Set.Ico 0 cntPerLoop
  iterations_nodup : ∀ p < cntProducer, (split.iterations p).Nodup
  mem_iterations : ∀ p < cntProducer, ∀ i j,
    (i, j) ∈ split.iterations p ↔
      i < loop ∧ split.startIdx p ≤ j ∧ j < split.endIdx p
  written_eq : ∀ place ∈ split.visited cntProducer,
    split.written place = place.round * cntPerLoop + place.index
  cnt_eq : split.cnt = loop * cntPerLoop
  bijective : Set.BijOn split.written (split.visited cntProducer)
    (Set.Ico 0 split.cnt)

theorem iterations_eq_product (split : WorkSplit) (producer : Nat) :
    split.iterations producer =
      List.product (List.range split.loop)
        (List.range' (split.startIdx producer)
          (split.endIdx producer - split.startIdx producer)) :=
  rfl

theorem iterations_nodup (split : WorkSplit) (producer : Nat) :
    (split.iterations producer).Nodup := by
  rw [iterations_eq_product]
  exact List.Nodup.product List.nodup_range List.nodup_range'

theorem mem_iterations {producer i j : Nat} :
    (i, j) ∈ split.iterations producer ↔
      i < split.loop ∧
        split.startIdx producer ≤ j ∧ j < split.endIdx producer := by
  rw [iterations_eq_product, List.pair_mem_product, List.mem_range,
    List.mem_range'_1]
  omega

/-- A benchmark computes the parts of an index range and numbers the blocks
loop by loop. -/
structure FollowsRange (split : WorkSplit)
    (loop cntPerLoop cntProducer : Nat) : Prop where
  cnt : split.cnt = loop * cntPerLoop
  loops : split.loop = loop
  startIdx : ∀ p < cntProducer,
    split.startIdx p = IndexRange.first cntPerLoop cntProducer p
  endIdx : ∀ p < cntProducer,
    split.endIdx p = IndexRange.past cntPerLoop cntProducer p
  blockIndex : ∀ i < loop, ∀ j < cntPerLoop,
    split.blockIndex i j = i * cntPerLoop + j

namespace FollowsRange

theorem visited_eq (follows : split.FollowsRange loop cntPerLoop cntProducer) :
    split.visited cntProducer =
      IndexRange.places loop cntPerLoop cntProducer := by
  ext place
  simp only [visited, IndexRange.places, Set.mem_ofPred_eq, mem_iterations,
    follows.loops]
  constructor
  · rintro ⟨inside, inLoop, fromStart, toEnd⟩
    rw [follows.startIdx _ inside] at fromStart
    rw [follows.endIdx _ inside] at toEnd
    exact ⟨inside, inLoop, fromStart, toEnd⟩
  · rintro ⟨inside, inLoop, owns⟩
    rw [follows.startIdx _ inside, follows.endIdx _ inside]
    exact ⟨inside, inLoop, owns⟩

theorem written_eq (follows : split.FollowsRange loop cntPerLoop cntProducer)
    {place : Place} (mem : place ∈ split.visited cntProducer) :
    split.written place = place.number cntPerLoop := by
  rw [follows.visited_eq] at mem
  obtain ⟨inside, inLoop, owns⟩ := mem
  exact follows.blockIndex _ inLoop _ (owns.index_lt inside)

theorem isPartition (follows : split.FollowsRange loop cntPerLoop cntProducer)
    (someProducer : 0 < cntProducer) :
    split.IsPartition loop cntPerLoop cntProducer where
  disjoint p inside q otherInside distinct := by
    rw [follows.startIdx p inside, follows.endIdx p inside,
      follows.startIdx q otherInside, follows.endIdx q otherInside]
    exact IndexRange.inter_parts inside otherInside distinct
  covers := by
    rw [← IndexRange.iUnion_parts someProducer]
    refine Set.iUnion₂_congr fun p inside => ?_
    rw [follows.startIdx p inside, follows.endIdx p inside]
  iterations_nodup p _ := split.iterations_nodup p
  mem_iterations p _ i j := by
    rw [WorkSplit.mem_iterations, follows.loops]
  written_eq _ mem := follows.written_eq mem
  cnt_eq := follows.cnt
  bijective := by
    rw [follows.cnt, follows.visited_eq]
    refine (Place.number_bijOn loop cntPerLoop someProducer).congr ?_
    intro place mem
    rw [← follows.visited_eq] at mem
    exact (follows.written_eq mem).symm

end FollowsRange

end WorkSplit

namespace ThreadTransChannel

variable {config : ThreadTransConfig} {cntProducer : Nat}

/-- What the Go `benchmark_wr` computes. -/
def workSplit (config : ThreadTransConfig) (cntProducer : Nat) : WorkSplit where
  cnt := cnt config
  loop := config.loop
  startIdx := startIdx config cntProducer
  endIdx := endIdx config cntProducer
  blockIndex := blockIndex config

theorem workSplit_followsRange
    (fits : config.loop * config.cntPerLoop < 2 ^ 63) :
    (workSplit config cntProducer).FollowsRange config.loop config.cntPerLoop
      cntProducer where
  cnt := Nat.mod_eq_of_lt (by omega)
  loops := rfl
  startIdx _ _ := rfl
  endIdx _ _ := rfl
  blockIndex i inLoop j inRange := by
    have below : (i + 1) * config.cntPerLoop ≤
        config.loop * config.cntPerLoop :=
      Nat.mul_le_mul_right _ inLoop
    rw [Nat.add_mul, Nat.one_mul] at below
    exact Nat.mod_eq_of_lt (by omega)

end ThreadTransChannel

namespace MallocFree

/-- The integer types that can hold the members of `muggle::BenchmarkConfig`:
those that an `int` is converted to when it meets them in an operation. -/
inductive FieldType where
  | int32
  | uint32
  | int64
  | uint64
  deriving DecidableEq, Repr

/-- An integer as a value of the type. -/
def FieldType.convert : FieldType → Int → Int
  | .int32, value => toInt32 value
  | .uint32, value => value % 2 ^ 32
  | .int64, value => toInt64 value
  | .uint64, value => value % 2 ^ 64

/-- The largest value of the type. -/
def FieldType.max : FieldType → Int
  | .int32 => 2 ^ 31 - 1
  | .uint32 => 2 ^ 32 - 1
  | .int64 => 2 ^ 63 - 1
  | .uint64 => 2 ^ 64 - 1

/-- An integer as a `uint64_t`. -/
def toUInt64 (value : Int) : Nat :=
  (value % 2 ^ 64).toNat

/-- The members of `muggle::BenchmarkConfig` that `Benchmark_wr` computes
with, both nonnegative. -/
structure BenchmarkConfig (fieldType : FieldType) where
  loop : Nat
  cntPerLoop : Nat
  loop_le : (loop : Int) ≤ fieldType.max
  cntPerLoop_le : (cntPerLoop : Int) ≤ fieldType.max

variable {fieldType : FieldType}

/-- `config.loop * config.cnt_per_loop` as a `uint64_t`. -/
def cnt (config : BenchmarkConfig fieldType) : Nat :=
  toUInt64 (fieldType.convert (config.loop * config.cntPerLoop))

/-- `i * (config.cnt_per_loop / cnt_producer)` for an `int` factor `i`. -/
def multiple (config : BenchmarkConfig fieldType) (cntProducer i : Nat) : Nat :=
  toUInt64 (fieldType.convert (fieldType.convert i *
    (config.cntPerLoop : Int).tdiv (fieldType.convert cntProducer)))

/-- `start_idx` of a producer. -/
def startIdx (config : BenchmarkConfig fieldType) (cntProducer i : Nat) : Nat :=
  multiple config cntProducer i

/-- `end_idx` of a producer. -/
def endIdx (config : BenchmarkConfig fieldType) (cntProducer i : Nat) : Nat :=
  if (i : Int) = cntProducer - 1 then
    toUInt64 config.cntPerLoop
  else
    multiple config cntProducer (i + 1)

/-- `i * config->cnt_per_loop + j` of `uint64_t` loop variables. -/
def blockIndex (config : BenchmarkConfig fieldType) (i j : Nat) : Nat :=
  (i * toUInt64 config.cntPerLoop + j) % 2 ^ 64

/-- What the C++ `Benchmark_wr` computes. -/
def workSplit (config : BenchmarkConfig fieldType) (cntProducer : Nat) :
    WorkSplit where
  cnt := cnt config
  loop := toUInt64 config.loop
  startIdx := startIdx config cntProducer
  endIdx := endIdx config cntProducer
  blockIndex := blockIndex config

theorem FieldType.convert_eq_self {value : Int} (nonneg : 0 ≤ value)
    (fits : value ≤ fieldType.max) : fieldType.convert value = value := by
  cases fieldType with
  | int32 =>
    simp only [FieldType.max] at fits
    exact toInt32_eq_self (by omega) (by omega)
  | uint32 =>
    simp only [FieldType.max] at fits
    exact Int.emod_eq_of_lt nonneg (by omega)
  | int64 =>
    simp only [FieldType.max] at fits
    exact toInt64_eq_self (by omega) (by omega)
  | uint64 =>
    simp only [FieldType.max] at fits
    exact Int.emod_eq_of_lt nonneg (by omega)

theorem FieldType.max_lt (fieldType : FieldType) :
    2 ^ 31 - 1 ≤ fieldType.max ∧ fieldType.max < 2 ^ 64 := by
  cases fieldType <;> decide

theorem toUInt64_natCast {value : Nat} (fits : (value : Int) ≤ fieldType.max) :
    toUInt64 value = value := by
  have bound := fieldType.max_lt.2
  unfold toUInt64
  rw [Int.emod_eq_of_lt (Int.natCast_nonneg value) (by omega)]
  exact Int.toNat_natCast value

variable {config : BenchmarkConfig fieldType} {cntProducer : Nat}

/-- The multiples that the producers need do not overflow. -/
theorem multiple_eq {i : Nat} (isInt : cntProducer < 2 ^ 31)
    (inside : i ≤ cntProducer) :
    multiple config cntProducer i = i * (config.cntPerLoop / cntProducer) := by
  have bound := fieldType.max_lt.1
  have factor : fieldType.convert i = i :=
    FieldType.convert_eq_self (Int.natCast_nonneg i) (by omega)
  have divisor : fieldType.convert cntProducer = cntProducer :=
    FieldType.convert_eq_self (Int.natCast_nonneg cntProducer) (by omega)
  have below : i * (config.cntPerLoop / cntProducer) ≤ config.cntPerLoop :=
    IndexRange.mul_div_le_total inside
  have fits : ((i * (config.cntPerLoop / cntProducer) : Nat) : Int) ≤
      fieldType.max :=
    le_trans (Int.ofNat_le.mpr below) config.cntPerLoop_le
  have product : (i : Int) * (config.cntPerLoop : Int).tdiv cntProducer =
      ((i * (config.cntPerLoop / cntProducer) : Nat) : Int) := by
    rw [← Int.ofNat_tdiv]
    push_cast
    rfl
  unfold multiple
  rw [factor, divisor, product,
    FieldType.convert_eq_self (Int.natCast_nonneg _) fits,
    toUInt64_natCast fits]

theorem workSplit_followsRange (isInt : cntProducer < 2 ^ 31)
    (fits : ((config.loop * config.cntPerLoop : Nat) : Int) ≤
      fieldType.max) :
    (workSplit config cntProducer).FollowsRange config.loop config.cntPerLoop
      cntProducer where
  cnt := by
    have product : (config.loop * config.cntPerLoop : Int) =
        ((config.loop * config.cntPerLoop : Nat) : Int) := by
      push_cast
      rfl
    change toUInt64 (fieldType.convert _) = _
    rw [product, FieldType.convert_eq_self (Int.natCast_nonneg _) fits,
      toUInt64_natCast fits]
  loops := toUInt64_natCast config.loop_le
  startIdx p inside := multiple_eq isInt (le_of_lt inside)
  endIdx p inside := by
    change endIdx config cntProducer p = _
    unfold endIdx IndexRange.past
    by_cases last : p + 1 = cntProducer
    · rw [if_pos (by omega), if_pos last,
        toUInt64_natCast config.cntPerLoop_le]
    · rw [if_neg (by omega), if_neg last, multiple_eq isInt inside]
  blockIndex i inLoop j inRange := by
    have bound := fieldType.max_lt.2
    have below : (i + 1) * config.cntPerLoop ≤
        config.loop * config.cntPerLoop :=
      Nat.mul_le_mul_right _ inLoop
    rw [Nat.add_mul, Nat.one_mul] at below
    change blockIndex config i j = _
    unfold blockIndex
    rw [toUInt64_natCast config.cntPerLoop_le]
    exact Nat.mod_eq_of_lt (by omega)

/-- With more producers than blocks only the last range is not empty. -/
example (config : BenchmarkConfig .uint64) (two : config.cntPerLoop = 2) :
    (List.range 5).map (fun p => (startIdx config 5 p, endIdx config 5 p)) =
      [(0, 0), (0, 0), (0, 0), (0, 0), (0, 2)] := by
  simp only [startIdx, endIdx, multiple, two]
  decide

end MallocFree

namespace WorkSplit

/-- **The producers' work.**  Whenever the number of blocks fits its type, the
producers of both benchmarks have disjoint ranges that cover a loop, and
together they write every block exactly once. -/
theorem benchmarks_isPartition :
    (∀ (config : ThreadTransChannel.ThreadTransConfig) (cntProducer : Nat),
      1 ≤ cntProducer → config.loop * config.cntPerLoop < 2 ^ 63 →
        (ThreadTransChannel.workSplit config cntProducer).IsPartition
          config.loop config.cntPerLoop cntProducer) ∧
    (∀ (fieldType : MallocFree.FieldType)
      (config : MallocFree.BenchmarkConfig fieldType) (cntProducer : Nat),
      1 ≤ cntProducer → cntProducer < 2 ^ 31 →
        ((config.loop * config.cntPerLoop : Nat) : Int) ≤ fieldType.max →
          (MallocFree.workSplit config cntProducer).IsPartition
            config.loop config.cntPerLoop cntProducer) := by
  constructor
  · intro config cntProducer someProducer fits
    exact (ThreadTransChannel.workSplit_followsRange fits).isPartition
      someProducer
  · intro fieldType config cntProducer someProducer isInt fits
    exact (MallocFree.workSplit_followsRange isInt fits).isPartition
      someProducer

/-- Two loops of ten blocks among three producers, and of two blocks among
five. -/
theorem benchmarks_isPartition_three_five :
    (ThreadTransChannel.workSplit ⟨2, 10, by decide, by decide⟩ 3).IsPartition
        2 10 3 ∧
      (MallocFree.workSplit (⟨2, 2, by decide, by decide⟩ :
        MallocFree.BenchmarkConfig .uint64) 5).IsPartition 2 2 5 :=
  ⟨benchmarks_isPartition.1 ⟨2, 10, by decide, by decide⟩ 3
      (by decide) (by decide),
    benchmarks_isPartition.2 .uint64 ⟨2, 2, by decide, by decide⟩ 5
      (by decide) (by decide) (by decide)⟩

end WorkSplit

end LatencyBenchmark
