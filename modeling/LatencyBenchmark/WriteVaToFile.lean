import LatencyBenchmark.StrideCycle
import Mathlib.Data.Nat.Prime.Basic

/-!
# The benchmarks that write messages to a file

Both loops of `c_write_va_to_file.cpp` take the message at `idx++`, write it,
and store `(idx + 1) % msgs.size()`.  The index is advanced twice in an
iteration, so the loops walk around the messages with stride two: every
message is written in turn when their number is odd, and every other one is
never written when it is even, as `NUM_MSG` is.
-/

namespace LatencyBenchmark

namespace WriteVaToFile

/-- `LogMsg`.  The text is what `char s[128]` holds in front of its
terminating zero byte. -/
structure LogMsg where
  u64 : UInt64
  u32 : UInt32
  i64 : Int64
  i32 : Int32
  s : String
  fits : s.length ≤ 127

/-- The text of the random letters, `rand() % 26 + 'a'` each, that the calls
of `rand` from some call on give. -/
def randomLetters (rand : Nat → Nat) (call : Nat) : String :=
  String.ofList ((List.range 127).map fun letter =>
    Char.ofNat (rand (call + letter) % 26 + 'a'.toNat))

/-- The message of one iteration of `GenLogMsgArray`. -/
def genLogMsg (rand : Nat → Nat) (i : UInt32) : LogMsg where
  u64 := i.toUInt64
  u32 := i
  i64 := i.toUInt64.toInt64
  i32 := i.toInt32
  s := randomLetters rand (127 * i.toNat)
  fits := by simp [randomLetters]

/-- `GenLogMsgArray`. -/
def genLogMsgArray (rand : Nat → Nat) (cnt : UInt32) : List LogMsg :=
  (List.range cnt.toNat).map fun i => genLogMsg rand (UInt32.ofNat i)

theorem length_genLogMsgArray (rand : Nat → Nat) (cnt : UInt32) :
    (genLogMsgArray rand cnt).length = cnt.toNat := by
  simp [genLogMsgArray]

/-- `NUM_MSG`. -/
def numMsg : UInt32 := 100000

/-- `CWriteVaToFileFixture`, with the texts written to the file.  A vector
holds less than `2 ^ 63` messages. -/
structure CWriteVaToFileFixture where
  msgs : List LogMsg
  file : List String
  idx : UInt64
  bounded : msgs.length < 2 ^ 63

/-- `SetUp`. -/
def setUp (rand : Nat → Nat) : CWriteVaToFileFixture where
  msgs := genLogMsgArray rand numMsg
  file := []
  idx := 0
  bounded := by
    rw [length_genLogMsgArray]
    decide

/-- The formatted text of a message. -/
def LogMsg.line (msg : LogMsg) : String :=
  s!"u64: {msg.u64.toNat}, i64: {msg.i64.toInt}, u32: {msg.u32.toNat}, " ++
    s!"i32: {msg.i32.toInt}, s: {msg.s}\n"

/-- `snprintf` into a buffer: the characters stored, with the terminating
zero, and the length of the whole text. -/
def snprintf (size : Nat) (text : String) : List Char × Nat :=
  (text.toList.take (size - 1) ++ [Char.ofNat 0], text.length)

/-- `fwrite` of the first `n` characters of what the buffer holds. -/
def fwrite (buf : List Char) (n : Nat) : Option String :=
  if n ≤ buf.length then some (String.ofList (buf.take n)) else none

/-- One iteration of a loop that writes a message with `write`: the index it
reads and the fixture it leaves.  There is none when the index lies outside
the messages. -/
def iteration (write : LogMsg → Option String)
    (fixture : CWriteVaToFileFixture) :
    Option (Nat × CWriteVaToFileFixture) := do
  let msg ← fixture.msgs[fixture.idx.toNat]?
  let idx := fixture.idx + 1
  let text ← write msg
  return (fixture.idx.toNat,
    { fixture with
      file := fixture.file ++ [text]
      idx := (idx + 1) % UInt64.ofNat fixture.msgs.length })

/-- The loop body of the benchmark `fvprintf`. -/
def fvprintf : CWriteVaToFileFixture → Option (Nat × CWriteVaToFileFixture) :=
  iteration fun msg => some msg.line

/-- The loop body of the benchmark `snprintf_write`. -/
def snprintfWrite :
    CWriteVaToFileFixture → Option (Nat × CWriteVaToFileFixture) :=
  iteration fun msg =>
    let (buf, n) := snprintf 2048 msg.line
    fwrite buf n

/-- Some iterations of a loop: the indices they read and the fixture they
leave. -/
def runIterations
    (body : CWriteVaToFileFixture → Option (Nat × CWriteVaToFileFixture)) :
    Nat → CWriteVaToFileFixture → Option (List Nat × CWriteVaToFileFixture)
  | 0, fixture => some ([], fixture)
  | count + 1, fixture => do
      let (index, next) ← body fixture
      let (indices, last) ← runIterations body count next
      return (index :: indices, last)

/-! ## Both loops write whole lines -/

theorem length_repr_le {number digits : Nat} (positive : 0 < digits)
    (small : number < 10 ^ digits) : (toString number).length ≤ digits :=
  (Nat.length_repr_le_iff positive).mpr small

theorem length_toString_int_le {number : Int} {digits : Nat}
    (positive : 0 < digits) (low : -10 ^ digits < number)
    (high : number < 10 ^ digits) :
    (toString number).length ≤ digits + 1 := by
  cases number with
  | ofNat value =>
      have small : value < 10 ^ digits := by
        rw [Int.ofNat_eq_natCast] at high
        exact_mod_cast high
      exact (length_repr_le positive small).trans (Nat.le_succ digits)
  | negSucc value =>
      have small : value + 1 < 10 ^ digits := by
        have negated : ((value + 1 : Nat) : Int) < 10 ^ digits := by
          rw [Int.negSucc_eq] at low
          push_cast
          omega
        exact_mod_cast negated
      have sign : toString (Int.negSucc value) =
          "-" ++ toString (value + 1) := rfl
      rw [sign, String.length_append]
      have := length_repr_le positive small
      have : "-".length = 1 := rfl
      omega

/-- A line is shorter than the buffer. -/
theorem LogMsg.length_line_le (msg : LogMsg) : msg.line.length ≤ 2047 := by
  have u64 : (toString msg.u64.toNat).length ≤ 20 :=
    length_repr_le (by decide) (msg.u64.toNat_lt.trans (by decide))
  have u32 : (toString msg.u32.toNat).length ≤ 20 :=
    length_repr_le (by decide) (msg.u32.toNat_lt.trans (by decide))
  have i64 : (toString msg.i64.toInt).length ≤ 20 :=
    length_toString_int_le (by decide)
      (lt_of_lt_of_le (by decide) msg.i64.le_toInt)
      (msg.i64.toInt_lt.trans (by decide))
  have i32 : (toString msg.i32.toInt).length ≤ 20 :=
    length_toString_int_le (by decide)
      (lt_of_lt_of_le (by decide) msg.i32.le_toInt)
      (msg.i32.toInt_lt.trans (by decide))
  have s : (toString msg.s).length ≤ 127 := msg.fits
  have labels : (toString "u64: ").length + (toString ", i64: ").length +
      (toString ", u32: ").length + (toString ", ").length +
      (toString "i32: ").length + (toString ", s: ").length +
      (toString "\n").length = 32 := rfl
  simp only [LogMsg.line, String.length_append]
  omega

/-- `fwrite` writes the whole text that `snprintf` formatted into a buffer
large enough for it. -/
theorem fwrite_snprintf {size : Nat} {text : String}
    (fits : text.length ≤ size - 1) :
    fwrite (snprintf size text).1 (snprintf size text).2 = some text := by
  have whole : text.toList.take (size - 1) = text.toList :=
    List.take_of_length_le (String.length_toList.trans_le fits)
  have stored : (snprintf size text).1 =
      text.toList ++ [Char.ofNat 0] := by
    rw [snprintf, whole]
  have length : (snprintf size text).2 = text.toList.length :=
    String.length_toList.symm
  rw [fwrite, stored, length, List.length_append,
    if_pos (Nat.le_add_right _ _), List.take_left, String.ofList_toList]

/-- The two loops do the same. -/
theorem snprintfWrite_eq_fvprintf : snprintfWrite = fvprintf := by
  unfold snprintfWrite fvprintf
  refine congrArg iteration (funext fun msg => ?_)
  have whole : fwrite (snprintf 2048 msg.line).1 (snprintf 2048 msg.line).2 =
      some msg.line := fwrite_snprintf msg.length_line_le
  generalize snprintf 2048 msg.line = formatted at whole ⊢
  exact whole

/-! ## The indices of a run -/

/-- The line of the message at an index. -/
def textAt (msgs : List LogMsg) (index : Nat) : String :=
  (msgs[index]?.map LogMsg.line).getD ""

theorem map_textAt_range (msgs : List LogMsg) :
    (List.range msgs.length).map (textAt msgs) = msgs.map LogMsg.line := by
  apply List.ext_getElem
  · simp
  · intro index firstLt secondLt
    have inside : index < msgs.length := by simpa using secondLt
    simp [textAt, List.getElem?_eq_getElem inside]

/-- The index two further on, around `msgs.size()`. -/
theorem toNat_nextIdx {idx : UInt64} {length : Nat}
    (inside : idx.toNat < length) (bounded : length < 2 ^ 63) :
    ((idx + 1 + 1) % UInt64.ofNat length).toNat =
      (idx.toNat + 2) % length := by
  have size : (UInt64.ofNat length).toNat = length :=
    UInt64.toNat_ofNat_of_lt' (bounded.trans (by decide))
  have one : (1 : UInt64).toNat = 1 := rfl
  have once : (idx.toNat + 1) % 2 ^ 64 = idx.toNat + 1 :=
    Nat.mod_eq_of_lt (by omega)
  have twice : (idx.toNat + 1 + 1) % 2 ^ 64 = idx.toNat + 2 :=
    Nat.mod_eq_of_lt (by omega)
  rw [UInt64.toNat_mod, size, UInt64.toNat_add, UInt64.toNat_add, one]
  rw [once, twice]

variable {fixture : CWriteVaToFileFixture}

/-- One iteration at an index inside the messages writes that message. -/
theorem fvprintf_spec (inside : fixture.idx.toNat < fixture.msgs.length) :
    ∃ next, fvprintf fixture = some (fixture.idx.toNat, next) ∧
      next.msgs = fixture.msgs ∧
      next.file = fixture.file ++ [textAt fixture.msgs fixture.idx.toNat] ∧
      next.idx.toNat =
        (fixture.idx.toNat + 2) % fixture.msgs.length := by
  have read := List.getElem?_eq_getElem inside
  refine ⟨{ fixture with
    file := fixture.file ++ [textAt fixture.msgs fixture.idx.toNat]
    idx := (fixture.idx + 1 + 1) % UInt64.ofNat fixture.msgs.length },
    ?_, rfl, rfl, toNat_nextIdx inside fixture.bounded⟩
  rw [fvprintf, iteration, textAt, read]
  rfl

open StrideCycle in
/-- A run from an index inside the messages walks around them with stride
two and appends their lines. -/
theorem runIterations_fvprintf_spec (count : Nat)
    (inside : fixture.idx.toNat < fixture.msgs.length) :
    ∃ last, runIterations fvprintf count fixture =
        some (walk fixture.msgs.length 2 fixture.idx.toNat count, last) ∧
      last.msgs = fixture.msgs ∧
      last.file = fixture.file ++
        (walk fixture.msgs.length 2 fixture.idx.toNat count).map
          (textAt fixture.msgs) ∧
      last.idx.toNat =
        position fixture.msgs.length 2 fixture.idx.toNat count := by
  induction count generalizing fixture with
  | zero =>
      exact ⟨fixture, rfl, rfl, (List.append_nil _).symm,
        (position_zero inside).symm⟩
  | succ count induction =>
      obtain ⟨next, stepped, sameMsgs, file, idx⟩ := fvprintf_spec inside
      have nextPosition : next.idx.toNat =
          position fixture.msgs.length 2 fixture.idx.toNat 1 := by
        rw [idx, position, Nat.mul_one]
      have nextInside : next.idx.toNat < next.msgs.length := by
        rw [nextPosition, sameMsgs]
        exact position_lt (by omega) 1
      obtain ⟨last, ran, lastMsgs, lastFile, lastIdx⟩ :=
        induction nextInside
      rw [sameMsgs, nextPosition] at ran lastFile lastIdx
      rw [walk_succ inside]
      refine ⟨last, ?_, lastMsgs.trans sameMsgs, ?_, ?_⟩
      · rw [runIterations, stepped]
        dsimp only [Option.bind_eq_bind, Option.bind_some]
        rw [ran]
        rfl
      · rw [lastFile, file, List.map_cons, List.append_assoc]
        rfl
      · rw [lastIdx, ← position_add, Nat.add_comm]

/-- Every run length is reached, with all its indices inside the messages. -/
theorem runIterations_inside
    (inside : fixture.idx.toNat < fixture.msgs.length) (count : Nat) :
    ∃ indices last,
      runIterations fvprintf count fixture = some (indices, last) ∧
        indices.length = count ∧
        ∀ index ∈ indices, index < fixture.msgs.length := by
  obtain ⟨last, ran, -⟩ := runIterations_fvprintf_spec count inside
  exact ⟨_, last, ran, StrideCycle.length_walk count, fun _ member =>
    StrideCycle.lt_of_mem_walk (by omega) member⟩

/-- Among an even number of messages only those at even indices are read. -/
theorem even_of_mem_indices (start : fixture.idx = 0)
    (nonempty : 1 ≤ fixture.msgs.length) (even : Even fixture.msgs.length)
    {count : Nat} {indices : List Nat} {last : CWriteVaToFileFixture}
    (ran : runIterations fvprintf count fixture = some (indices, last))
    {index : Nat} (member : index ∈ indices) : Even index := by
  have idx : fixture.idx.toNat = 0 := congrArg UInt64.toNat start
  obtain ⟨_, walked, -⟩ :=
    runIterations_fvprintf_spec count (idx.trans_lt nonempty)
  rw [walked, idx] at ran
  cases ran
  obtain ⟨steps, -, rfl⟩ := List.mem_map.mp member
  have kept : StrideCycle.position fixture.msgs.length 2 0 steps ≡ 0
      [MOD 2] :=
    StrideCycle.position_modEq even.two_dvd (dvd_refl 2) steps
  exact Nat.even_iff.mpr kept

/-! ## Writing every message -/

/-- The purpose of a loop over the messages: it never leaves them, and after
any number of iterations the next `msgs.size()` ones take every index once
and write every line. -/
structure WritesEveryMessage
    (body : CWriteVaToFileFixture → Option (Nat × CWriteVaToFileFixture))
    (fixture : CWriteVaToFileFixture) : Prop where
  inside : ∀ count, ∃ indices last,
    runIterations body count fixture = some (indices, last) ∧
      indices.length = count ∧ ∀ index ∈ indices, index < fixture.msgs.length
  once : ∀ before indices middle,
    runIterations body before fixture = some (indices, middle) →
      ∃ sweep last texts,
        runIterations body fixture.msgs.length middle =
            some (sweep, last) ∧
          sweep.Perm (List.range fixture.msgs.length) ∧
          last.file = middle.file ++ texts ∧
          texts.Perm (fixture.msgs.map LogMsg.line)

/-- A sweep around an odd number of messages takes every one of them. -/
theorem sweep_of_odd (inside : fixture.idx.toNat < fixture.msgs.length)
    (odd : Odd fixture.msgs.length) :
    ∃ sweep last texts,
      runIterations fvprintf fixture.msgs.length fixture =
          some (sweep, last) ∧
        sweep.Perm (List.range fixture.msgs.length) ∧
        last.file = fixture.file ++ texts ∧
        texts.Perm (fixture.msgs.map LogMsg.line) := by
  obtain ⟨last, ran, -, file, -⟩ :=
    runIterations_fvprintf_spec fixture.msgs.length inside
  have perm : (StrideCycle.walk fixture.msgs.length 2 fixture.idx.toNat
      fixture.msgs.length).Perm (List.range fixture.msgs.length) :=
    StrideCycle.walk_perm_range (Nat.coprime_two_left.mpr odd)
  refine ⟨_, last, _, ran, perm, file, ?_⟩
  rw [← map_textAt_range]
  exact perm.map _

/-- The loops write every message exactly when the number of messages is
odd. -/
theorem fvprintf_writesEveryMessage_iff
    (inside : fixture.idx.toNat < fixture.msgs.length) :
    WritesEveryMessage fvprintf fixture ↔ Odd fixture.msgs.length := by
  constructor
  · intro writes
    obtain ⟨sweep, last, -, ran, perm, -⟩ :=
      writes.once 0 [] fixture rfl
    obtain ⟨_, walked, -⟩ :=
      runIterations_fvprintf_spec fixture.msgs.length inside
    rw [walked] at ran
    cases ran
    exact Nat.coprime_two_left.mp
      ((StrideCycle.walk_perm_range_iff (by omega)).mp perm)
  · intro odd
    refine ⟨runIterations_inside inside, ?_⟩
    intro before indices middle ran
    obtain ⟨_, walked, sameMsgs, -, idx⟩ :=
      runIterations_fvprintf_spec before inside
    rw [walked] at ran
    cases ran
    have middleInside : middle.idx.toNat < middle.msgs.length := by
      rw [idx, sameMsgs]
      exact StrideCycle.position_lt (by omega) before
    rw [← sameMsgs]
    exact sweep_of_odd middleInside (sameMsgs ▸ odd)

/-- From the first message on, either loop writes every message, each once
in as many iterations as there are messages, exactly when their number is
odd. -/
theorem loops_writeEveryMessage_iff_odd (start : fixture.idx = 0)
    (nonempty : 1 ≤ fixture.msgs.length) :
    (WritesEveryMessage fvprintf fixture ↔ Odd fixture.msgs.length) ∧
      (WritesEveryMessage snprintfWrite fixture ↔
        Odd fixture.msgs.length) := by
  have idx : fixture.idx.toNat = 0 := congrArg UInt64.toNat start
  have loop := fvprintf_writesEveryMessage_iff (idx.trans_lt nonempty)
  rw [snprintfWrite_eq_fvprintf]
  exact ⟨loop, loop⟩

/-- The first three messages that `GenLogMsgArray` makes. -/
def threeMessages : CWriteVaToFileFixture where
  msgs := genLogMsgArray (fun _ => 0) 3
  file := []
  idx := 0
  bounded := by
    rw [length_genLogMsgArray]
    decide

theorem loops_writeThreeMessages :
    WritesEveryMessage fvprintf threeMessages ∧
      WritesEveryMessage snprintfWrite threeMessages := by
  have three : threeMessages.msgs.length = 3 :=
    length_genLogMsgArray (fun _ => 0) 3
  have odd : Odd threeMessages.msgs.length := by
    rw [three]
    decide
  have start : threeMessages.idx = 0 := rfl
  obtain ⟨formatted, buffered⟩ :=
    loops_writeEveryMessage_iff_odd start (by omega)
  exact ⟨formatted.mpr odd, buffered.mpr odd⟩

/-- The benchmarks themselves start at the first of an even number of
messages, and neither writes all of them. -/
theorem benchmarks_skipMessages :
    (setUp fun _ => 0).idx = 0 ∧
      (setUp fun _ => 0).msgs.length = 100000 ∧
      ¬ WritesEveryMessage fvprintf (setUp fun _ => 0) ∧
      ¬ WritesEveryMessage snprintfWrite (setUp fun _ => 0) := by
  have size : numMsg.toNat = 100000 := by decide
  have count : (setUp fun _ => 0).msgs.length = 100000 := by
    rw [setUp, length_genLogMsgArray, size]
  have idx : (setUp fun _ => 0).idx.toNat = 0 := rfl
  have inside : (setUp fun _ => 0).idx.toNat <
      (setUp fun _ => 0).msgs.length := by
    rw [idx, count]
    exact Nat.zero_lt_succ _
  have skips : ¬ WritesEveryMessage fvprintf (setUp fun _ => 0) := by
    rw [fvprintf_writesEveryMessage_iff inside, count]
    decide
  refine ⟨rfl, count, skips, ?_⟩
  rw [snprintfWrite_eq_fvprintf]
  exact skips

end WriteVaToFile

end LatencyBenchmark
