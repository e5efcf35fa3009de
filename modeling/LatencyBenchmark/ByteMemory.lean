import Mathlib.Data.List.GetD
import Mathlib.Data.List.TakeWhile

/-!
# Memory as bytes

Writes of byte sequences into memory, and the strings of C in it: the bytes
before the first NUL.
-/

namespace LatencyBenchmark

/-- The byte at every address. -/
abbrev ByteMemory :=
  Int → UInt8

namespace ByteMemory

/-- The bytes stand at the addresses from `start` on. -/
def write (memory : ByteMemory) (start : Int) (bytes : List UInt8) :
    ByteMemory := fun address =>
  if start ≤ address ∧ address < start + bytes.length then
    bytes.getD (address - start).toNat 0
  else
    memory address

/-- A write that starts at an address, with its bytes. -/
structure Store where
  start : Int
  bytes : List UInt8

/-- The store does not reach the address. -/
def Store.Avoids (store : Store) (address : Int) : Prop :=
  address < store.start ∨ store.start + store.bytes.length ≤ address

def Store.apply (store : Store) (memory : ByteMemory) : ByteMemory :=
  memory.write store.start store.bytes

/-- The stores are made one after another. -/
def applyAll (memory : ByteMemory) (stores : List Store) : ByteMemory :=
  stores.foldl (fun memory store => store.apply memory) memory

variable {memory other : ByteMemory} {start address : Int}
variable {bytes text : List UInt8} {stores : List Store} {store : Store}

theorem Store.apply_of_avoids (avoids : store.Avoids address) :
    store.apply memory address = memory address := by
  have outside : ¬ (store.start ≤ address ∧
      address < store.start + store.bytes.length) := by
    unfold Store.Avoids at avoids
    omega
  exact if_neg outside

theorem Store.apply_start_add {index : Nat}
    (inside : index < store.bytes.length) :
    store.apply memory (store.start + index) = store.bytes[index] := by
  have reached : store.start ≤ store.start + (index : Int) ∧
      store.start + (index : Int) < store.start + store.bytes.length := by
    omega
  have position :
      (store.start + (index : Int) - store.start).toNat = index := by omega
  unfold Store.apply write
  rw [if_pos reached, position]
  exact List.getD_eq_getElem _ _ inside

/-- Stores that avoid an address leave its byte. -/
theorem applyAll_of_avoids
    (avoids : ∀ store ∈ stores, store.Avoids address) :
    applyAll memory stores address = memory address := by
  induction stores generalizing memory with
  | nil => rfl
  | cons store stores induction =>
      have later : ∀ store ∈ stores, store.Avoids address := fun store mem =>
        avoids store (List.mem_cons_of_mem _ mem)
      calc applyAll (store.apply memory) stores address
          = store.apply memory address := induction later
        _ = memory address :=
            Store.apply_of_avoids (avoids store List.mem_cons_self)

/-- A byte that no later store reaches stays. -/
theorem applyAll_append_cons {before after : List Store}
    (avoids : ∀ later ∈ after, later.Avoids address) :
    applyAll memory (before ++ store :: after) address =
      store.apply (applyAll memory before) address := by
  unfold applyAll
  rw [List.foldl_append, List.foldl_cons]
  exact applyAll_of_avoids avoids

/-! ## Strings of C -/

/-- The bytes before the first NUL. -/
def cString (bytes : List UInt8) : List UInt8 :=
  bytes.takeWhile fun byte => byte ≠ 0

/-- The string with its terminating NUL stands at the addresses from `start`
on. -/
structure HoldsString (memory : ByteMemory) (start : Int)
    (text : List UInt8) : Prop where
  byte_eq : ∀ index (inside : index < text.length),
    memory (start + index) = text[index]
  terminated : memory (start + text.length) = 0

/-- The bytes that `strncpy` writes: those of the string up to the count, and
NULs after them. -/
def strncpyBytes (text : List UInt8) (count : Nat) : List UInt8 :=
  (cString text).take count ++
    List.replicate (count - (cString text).length) 0

/-- `strncpy(start, text, count)`. -/
def strncpy (start : Int) (text : List UInt8) (count : Nat) : Store where
  start := start
  bytes := strncpyBytes text count

/-- Bytes without a NUL are a string of their own. -/
theorem cString_eq_self (nulFree : 0 ∉ text) : cString text = text := by
  unfold cString
  rw [List.takeWhile_eq_self_iff]
  intro byte mem
  rw [decide_eq_true_eq]
  intro nul
  exact nulFree (nul ▸ mem)

@[simp]
theorem length_strncpyBytes (text : List UInt8) (count : Nat) :
    (strncpyBytes text count).length = count := by
  unfold strncpyBytes
  rw [List.length_append, List.length_take, List.length_replicate]
  omega

/-- A byte of the copy is that of the text, or a NUL behind it. -/
theorem strncpyBytes_getElem (nulFree : 0 ∉ text) {count index : Nat}
    (inside : index < (strncpyBytes text count).length) :
    (strncpyBytes text count)[index] = text.getD index 0 := by
  rw [length_strncpyBytes] at inside
  unfold strncpyBytes
  simp only [cString_eq_self nulFree]
  by_cases within : index < text.length
  · have inTake : index < (text.take count).length := by
      rw [List.length_take]
      omega
    rw [List.getElem_append_left inTake, List.getElem_take,
      List.getD_eq_getElem _ _ within]
  · have past : (text.take count).length ≤ index := by
      rw [List.length_take]
      omega
    rw [List.getElem_append_right past, List.getElem_replicate,
      List.getD_eq_default _ _ (by omega)]

/-- A copy leaves a byte of the text, or a NUL behind it, at each of the
first addresses. -/
theorem strncpy_apply (nulFree : 0 ∉ text) {count index : Nat}
    (inside : index < count) :
    (strncpy start text count).apply memory (start + index) =
      text.getD index 0 := by
  have copied : index < (strncpyBytes text count).length := by
    rwa [length_strncpyBytes]
  calc (strncpy start text count).apply memory (start + index)
      = (strncpyBytes text count)[index] := Store.apply_start_add copied
    _ = text.getD index 0 := strncpyBytes_getElem nulFree copied

/-- The byte behind a copy is what it was before. -/
theorem strncpy_apply_end (count : Nat) :
    (strncpy start text count).apply memory (start + count) =
      memory (start + count) := by
  apply Store.apply_of_avoids
  right
  have length : ((strncpyBytes text count).length : Int) = count :=
    congrArg Int.ofNat (length_strncpyBytes text count)
  exact Int.le_of_eq (congrArg (start + ·) length)

/-- Only the bytes of a string and its terminator matter. -/
theorem HoldsString.congr
    (same : ∀ index ≤ text.length,
      memory (start + index) = other (start + index)) :
    HoldsString memory start text ↔ HoldsString other start text := by
  constructor
  · intro holds
    constructor
    · intro index inside
      rw [← same index inside.le]
      exact holds.byte_eq index inside
    · rw [← same text.length le_rfl]
      exact holds.terminated
  · intro holds
    constructor
    · intro index inside
      rw [same index inside.le]
      exact holds.byte_eq index inside
    · rw [same text.length le_rfl]
      exact holds.terminated

/-- A copy holds the first bytes of its text exactly when there is a NUL
behind them. -/
theorem holdsString_take_iff (nulFree : 0 ∉ text) {count limit : Nat}
    (within : limit ≤ count) :
    HoldsString ((strncpy start text count).apply memory) start
        (text.take limit) ↔
      (strncpy start text count).apply memory
        (start + (text.take limit).length) = 0 := by
  constructor
  · exact HoldsString.terminated
  · intro terminated
    refine ⟨?_, terminated⟩
    intro index inside
    have inText : index < text.length ∧ index < limit := by
      rw [List.length_take] at inside
      omega
    calc (strncpy start text count).apply memory (start + index)
        = text.getD index 0 := strncpy_apply nulFree (by omega)
      _ = text[index] := List.getD_eq_getElem _ _ inText.1
      _ = (text.take limit)[index] := List.getElem_take.symm

/-- Copying one byte less than an array has terminates the string unless the
text fills the copy; then the last byte is what it was before. -/
theorem holdsString_strncpy_iff (nulFree : 0 ∉ text) (count : Nat) :
    HoldsString ((strncpy start text count).apply memory) start
        (text.take count) ↔
      text.length < count ∨ memory (start + count) = 0 := by
  rw [holdsString_take_iff nulFree le_rfl, List.length_take]
  by_cases short : text.length < count
  · have nul : (strncpy start text count).apply memory
        (start + text.length) = 0 := by
      rw [strncpy_apply nulFree short]
      exact List.getD_eq_default _ _ le_rfl
    rw [Nat.min_eq_right short.le]
    exact ⟨fun _ => Or.inl short, fun _ => nul⟩
  · rw [Nat.min_eq_left (by omega), strncpy_apply_end]
    exact ⟨Or.inr, fun either => either.resolve_left short⟩

/-- Copying more bytes than are wanted leaves the wanted ones terminated only
if the text has no more. -/
theorem holdsString_strncpy_iff_of_lt (nulFree : 0 ∉ text)
    {count limit : Nat} (more : limit < count) :
    HoldsString ((strncpy start text count).apply memory) start
        (text.take limit) ↔
      text.length ≤ limit := by
  rw [holdsString_take_iff nulFree more.le, List.length_take,
    strncpy_apply nulFree (by omega)]
  constructor
  · intro nul
    by_contra long
    have inText : limit < text.length := by omega
    rw [Nat.min_eq_left inText.le, List.getD_eq_getElem _ _ inText] at nul
    exact nulFree (nul ▸ List.getElem_mem inText)
  · intro short
    rw [Nat.min_eq_right short]
    exact List.getD_eq_default _ _ le_rfl

end ByteMemory

end LatencyBenchmark
