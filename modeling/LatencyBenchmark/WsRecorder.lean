import LatencyBenchmark.FillBuffer
import LatencyBenchmark.JsonMessage
import Mathlib.Algebra.Ring.Divisibility.Basic

/-!
# Recording the latency of received messages

The Go server records in `OnRead`, the Go client in the loop of `run_stc` and
the C++ programs in `onMessage`.  Each stores the time since the timestamp in
the message into an array of `loop * cnt_per_loop` samples, and each treats a
message it cannot decode in its own way.

A read returns the state of the recorder after it, or `none` where the
process ends: an index outside the array, or an assertion that fails.
-/

namespace LatencyBenchmark

/-- `WsConfig`. -/
structure WsConfig where
  host : String
  port : Int
  url : String
  loop : Int
  cntPerLoop : Int
  loopInterval : Int
  reportStep : Int
  dir : String

/-- A reading of the wall clock. -/
structure Timespec where
  sec : Int
  nsec : Int
  deriving DecidableEq, Repr

namespace Timespec

def nanoseconds (ts : Timespec) : Int :=
  ts.sec * 1000000000 + ts.nsec

end Timespec

/-- A sample array with the index of its next sample. -/
abbrev SampleBuffer :=
  FillBuffer Int

/-- `(now_s - s) * 10^9 + (now_ns - ns)` in wrapping 64-bit arithmetic. -/
def elapsedSince (ts : Timespec) (block : TimestampBlock) : Int :=
  toInt64 ((ts.sec - block.sec) * 1000000000 + (ts.nsec - block.nSec))

/-! ## The Go server -/

namespace WsService

/-- `int(int64(ts.Nanosecond()-block.NSec) +
int64((ts.Unix()-block.Sec)*int64(time.Second)))`. -/
def elapsed (ts : Timespec) (block : TimestampBlock) : Int :=
  toInt64 (toInt64 (ts.nsec - block.nSec) +
    toInt64 (toInt64 (ts.sec - block.sec) * 1000000000))

/-- `MaxLen`. -/
def maxLen (config : WsConfig) : Int :=
  toInt64 (config.loop * config.cntPerLoop)

/-- `Elapsed`, `Idx` and `MaxLen` of `NewWsService`; `make` panics on a
negative length. -/
def newWsService (config : WsConfig) : Option SampleBuffer :=
  if maxLen config < 0 then none
  else some (FillBuffer.empty 0 (maxLen config))

/-- `OnRead`.  `unmarshal` is `json.Unmarshal` into a zero block. -/
def onRead {Payload : Type} (unmarshal : Payload → TimestampBlock)
    (service : SampleBuffer) (arrival : Timespec × Payload) :
    Option SampleBuffer :=
  if service.IsFull then
    some service
  else
    let ts := arrival.1
    let block := unmarshal arrival.2
    service.put (elapsed ts block)

end WsService

/-! ## The Go client -/

namespace WsClient

/-- `run_stc` between two calls of `ReadMessage`; it stops reading when it
leaves its loop. -/
structure StcLoop where
  buffer : SampleBuffer
  reading : Bool

/-- `run_stc` before its loop. -/
def startStc (maxLen : Int) : StcLoop where
  buffer := FillBuffer.empty 0 maxLen
  reading := true

/-- One iteration of the loop of `run_stc`, for a message that arrives while
or after it runs. -/
def readStc {Payload : Type} (unmarshal : Payload → TimestampBlock)
    (loop : StcLoop) (arrival : Timespec × Payload) : Option StcLoop :=
  if loop.reading = false then
    some loop
  else if loop.buffer.IsFull then
    -- The message is read and dropped, and the loop is left.
    some { loop with reading := false }
  else do
    let ts := arrival.1
    let block := unmarshal arrival.2
    let buffer ← loop.buffer.put (WsService.elapsed ts block)
    return { loop with buffer := buffer }

end WsClient

/-! ## The C++ handler -/

namespace WsHandle

/-- `(ts.tv_sec - s) * 1000000000 + ts.tv_nsec - ns`. -/
def elapsed (ts : Timespec) (s ns : Int) : Int :=
  toInt64 (toInt64 (toInt64 (toInt64 (ts.sec - s) * 1000000000) + ts.nsec) -
    ns)

/-- `max_len_`, a product of two `int`s. -/
def maxLen (config : WsConfig) : Int :=
  toInt32 (config.loop * config.cntPerLoop)

/-- `elapsed_array_`, `cnt_` and `max_len_` of a new `WsHandle`. -/
def new (config : WsConfig) : SampleBuffer :=
  FillBuffer.empty 0 (maxLen config)

/-- `onMessage`. -/
def onMessage (handle : SampleBuffer) (arrival : Timespec × Message) :
    Option SampleBuffer :=
  if handle.IsFull then
    some handle
  else
    let ts := arrival.1
    match arrival.2.document with
    | none => some handle
    | some doc => do
        let s ← doc.getInt64 "s"
        let ns ← doc.getInt64 "ns"
        handle.put (elapsed ts s ns)

end WsHandle

/-! ## The recorded latencies -/

/-- The Go expression is the time since the block. -/
theorem WsService.elapsed_eq (ts : Timespec) (block : TimestampBlock) :
    WsService.elapsed ts block = elapsedSince ts block := by
  unfold WsService.elapsed elapsedSince toInt64
  rw [Int.bmod_add_bmod, Int.add_bmod_bmod, Int.add_comm,
    ← Int.bmod_add_bmod, Int.bmod_mul_bmod, Int.bmod_add_bmod]

/-- The C++ expression is the time since the block. -/
theorem WsHandle.elapsed_eq (ts : Timespec) (block : TimestampBlock) :
    WsHandle.elapsed ts block.sec block.nSec = elapsedSince ts block := by
  unfold WsHandle.elapsed elapsedSince toInt64
  rw [Int.bmod_sub_bmod, Int.add_sub_assoc, Int.bmod_add_bmod,
    ← Int.bmod_add_bmod, Int.bmod_mul_bmod, Int.bmod_add_bmod]

theorem elapsedSince_eq_sub (ts : Timespec) (block : TimestampBlock) :
    elapsedSince ts block = toInt64 (ts.nanoseconds - block.nanoseconds) := by
  unfold elapsedSince Timespec.nanoseconds TimestampBlock.nanoseconds
  congr 1
  omega

/-- Two blocks give the same latency exactly when they stand for the same
time. -/
theorem elapsedSince_eq_iff (ts : Timespec) (first second : TimestampBlock) :
    elapsedSince ts first = elapsedSince ts second ↔
      first.SameTime second := by
  rw [elapsedSince_eq_sub, elapsedSince_eq_sub]
  unfold TimestampBlock.SameTime toInt64
  rw [Int.bmod_eq_bmod_iff_bmod_sub_eq_zero,
    Int.bmod_eq_bmod_iff_bmod_sub_eq_zero, ← Int.dvd_iff_bmod_eq_zero,
    ← Int.dvd_iff_bmod_eq_zero, sub_sub_sub_cancel_left]
  exact dvd_sub_comm

/-- A full handler drops every message, and any handler drops text that is
not JSON. -/
theorem WsHandle.onMessage_of_dropped {handle : SampleBuffer}
    {arrival : Timespec × Message}
    (dropped : handle.IsFull ∨ arrival.2.document = none) :
    WsHandle.onMessage handle arrival = some handle := by
  unfold WsHandle.onMessage
  by_cases full : handle.IsFull
  · exact if_pos full
  · rw [if_neg full]
    simp only [dropped.resolve_left full]

/-! ## Runs of the recorders -/

/-- The latency a Go program computes for an arrival. -/
def sampleOf {Payload : Type} (unmarshal : Payload → TimestampBlock)
    (arrival : Timespec × Payload) : Int :=
  elapsedSince arrival.1 (unmarshal arrival.2)

namespace WsService

variable {Payload : Type} (unmarshal : Payload → TimestampBlock)

theorem onRead_eq_offer (service : SampleBuffer)
    (arrival : Timespec × Payload) :
    onRead unmarshal service arrival =
      service.offer (sampleOf unmarshal arrival) := by
  unfold onRead FillBuffer.offer sampleOf
  dsimp only
  rw [elapsed_eq]

/-- After any messages the server holds the latencies of the first ones. -/
theorem foldlM_onRead (maxLen : Nat) (arrivals : List (Timespec × Payload)) :
    ∃ service, arrivals.foldlM (onRead unmarshal)
          (FillBuffer.empty 0 maxLen) = some service ∧
      FillBuffer.Holding maxLen service
        ((arrivals.map (sampleOf unmarshal)).take maxLen) := by
  have start : FillBuffer.Holding maxLen
      (FillBuffer.empty (0 : Int) maxLen) (([] : List Int).take maxLen) := by
    rw [List.take_nil]
    exact FillBuffer.holding_empty 0 maxLen
  obtain ⟨service, folded, holding⟩ :=
    start.foldlM_offer (arrivals.map (sampleOf unmarshal))
  refine ⟨service, ?_, holding⟩
  rw [List.foldlM_map] at folded
  rw [← folded]
  congr 1
  funext service arrival
  exact onRead_eq_offer unmarshal service arrival

end WsService

namespace WsClient

variable {Payload : Type} (unmarshal : Payload → TimestampBlock)

/-- The client before or after its loop ended, with the samples of the
messages that arrived: the loop ends with the message that follows a full
array. -/
structure Received (maxLen : Nat) (loop : StcLoop) (offered : List Int) :
    Prop where
  holding : FillBuffer.Holding maxLen loop.buffer (offered.take maxLen)
  reading_iff : loop.reading = true ↔ offered.length ≤ maxLen

variable {unmarshal} {maxLen : Nat} {loop : StcLoop} {offered : List Int}

theorem Received.isFull_iff (received : Received maxLen loop offered) :
    loop.buffer.IsFull ↔ maxLen ≤ offered.length := by
  rw [received.holding.isFull_iff, List.length_take]
  omega

/-- A full array does not change with another message. -/
theorem Received.holding_of_full (received : Received maxLen loop offered)
    (full : maxLen ≤ offered.length) (value : Int) :
    FillBuffer.Holding maxLen loop.buffer
      ((offered ++ [value]).take maxLen) := by
  rw [List.take_append_of_le_length full]
  exact received.holding

theorem Received.reading_eq_false (received : Received maxLen loop offered)
    (past : maxLen < offered.length) : loop.reading = false := by
  have notReading := mt received.reading_iff.mp (by omega)
  simpa using notReading

/-- The message that follows a full array makes the client stop. -/
theorem Received.readStc_of_full (received : Received maxLen loop offered)
    (full : offered.length = maxLen) (arrival : Timespec × Payload) :
    WsClient.readStc unmarshal loop arrival =
      some { loop with reading := false } := by
  have reading : loop.reading = true := received.reading_iff.mpr full.le
  have isFull : loop.buffer.IsFull := received.isFull_iff.mpr full.ge
  unfold WsClient.readStc
  rw [if_neg (by simp [reading]), if_pos isFull]

/-- Later messages do not reach a client that has stopped. -/
theorem Received.readStc_of_past (received : Received maxLen loop offered)
    (past : maxLen < offered.length) (arrival : Timespec × Payload) :
    WsClient.readStc unmarshal loop arrival = some loop :=
  if_pos (received.reading_eq_false past)

theorem Received.readStc (received : Received maxLen loop offered)
    (arrival : Timespec × Payload) :
    ∃ next, WsClient.readStc unmarshal loop arrival = some next ∧
      Received maxLen next (offered ++ [sampleOf unmarshal arrival]) := by
  have longer : (offered ++ [sampleOf unmarshal arrival]).length =
      offered.length + 1 := by simp
  rcases Nat.lt_trichotomy offered.length maxLen with
    short | full | past
  · have reading : loop.reading = true :=
      received.reading_iff.mpr short.le
    have notFull := mt received.isFull_iff.mp (by omega)
    obtain ⟨buffer, stored, holding⟩ :=
      received.holding.offer (sampleOf unmarshal arrival)
    rw [FillBuffer.offer, if_neg notFull] at stored
    unfold sampleOf at stored
    refine ⟨{ loop with buffer := buffer }, ?_, holding, ?_⟩
    · unfold WsClient.readStc
      rw [if_neg (by simp [reading]), if_neg notFull]
      dsimp only
      rw [WsService.elapsed_eq, stored]
      rfl
    · rw [longer]
      change loop.reading = true ↔ _
      rw [reading]
      simp
      omega
  · refine ⟨_, received.readStc_of_full full arrival,
      received.holding_of_full full.ge _, ?_⟩
    rw [longer]
    simp
    omega
  · refine ⟨_, received.readStc_of_past past arrival,
      received.holding_of_full past.le _, ?_⟩
    rw [longer, received.reading_eq_false past]
    simp
    omega

theorem received_start (maxLen : Nat) :
    Received maxLen (startStc maxLen) [] where
  holding := by
    rw [List.take_nil]
    exact FillBuffer.holding_empty 0 maxLen
  reading_iff := by simp [startStc]

theorem Received.foldlM_readStc (received : Received maxLen loop offered)
    (arrivals : List (Timespec × Payload)) :
    ∃ last, arrivals.foldlM (WsClient.readStc unmarshal) loop = some last ∧
      Received maxLen last
        (offered ++ arrivals.map (sampleOf unmarshal)) := by
  induction arrivals generalizing loop offered with
  | nil =>
      refine ⟨loop, rfl, ?_⟩
      rw [List.map_nil, List.append_nil]
      exact received
  | cons arrival arrivals induction =>
      obtain ⟨next, read, later⟩ := received.readStc arrival
      obtain ⟨last, folded, ends⟩ := induction later
      rw [List.append_assoc, List.singleton_append] at ends
      refine ⟨last, ?_, ends⟩
      rw [List.foldlM_cons, read]
      exact folded

/-- After any messages the client holds the latencies of the first ones. -/
theorem foldlM_readStc (unmarshal : Payload → TimestampBlock)
    (maxLen : Nat) (arrivals : List (Timespec × Payload)) :
    ∃ loop, arrivals.foldlM (WsClient.readStc unmarshal) (startStc maxLen) =
        some loop ∧
      Received maxLen loop (arrivals.map (sampleOf unmarshal)) :=
  (received_start maxLen).foldlM_readStc arrivals

end WsClient

end LatencyBenchmark
