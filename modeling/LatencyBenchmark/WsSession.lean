import LatencyBenchmark.TransitionSystem
import LatencyBenchmark.WsReport

/-!
# A websocket session

One side of the websocket benchmark runs two nested loops that send the time,
and closes the connection; the other side records every message as it arrives
and writes its report when the connection is closed.  Both sides exist in Go
and in C++, and either of them may be the client.

The connection delivers the messages in order, and its end after all of them.
Both programs read the clock of one machine, so a session is one system of two
processes and the messages between them.
-/

namespace LatencyBenchmark

namespace WsSession

/-- The language a program is written in. -/
inductive Program where
  | golang
  | cpp
  deriving DecidableEq, Repr

/-- `dir`: who sends, the client to the server or the server to the client. -/
inductive Direction where
  | cts
  | stc
  deriving DecidableEq, Repr

/-- `time.Now()` or `timespec_get` for a clock in nanoseconds: whole seconds
and the nanoseconds since the last of them. -/
def timespecOf (time : Int) : Timespec where
  sec := time / 1000000000
  nsec := time % 1000000000

/-! ## Writing a message -/

/-- `json.Marshal` of a `TimestampBlock`: the fields in their order, under the
names of their tags. -/
def jsonMarshal (block : TimestampBlock) : Message where
  document := some (.object
    [("s", .integer block.sec), ("ns", .integer block.nSec)])

/-- A call on `rapidjson::Writer`. -/
inductive WriterCall where
  | startObject
  | key (name : String)
  | int64 (value : Int)
  | endObject
  deriving DecidableEq, Repr

/-- The members a writer has written when its object is ended. -/
def writtenMembers : List WriterCall → Option (List (String × JsonValue))
  | [.endObject] => some []
  | .key name :: .int64 value :: calls =>
      (writtenMembers calls).map fun members =>
        (name, .integer value) :: members
  | _ => none

/-- The document of a writer's calls; `none` while it is not complete. -/
def writtenDocument : List WriterCall → Option JsonValue
  | .startObject :: calls => (writtenMembers calls).map .object
  | _ => none

/-- The calls of `run_cts` and of the C++ server for one message. -/
def writerCalls (ts : Timespec) : List WriterCall :=
  [.startObject, .key "s", .int64 ts.sec, .key "ns", .int64 ts.nsec,
    .endObject]

/-- The message a sender writes for a reading of the clock. -/
def encode (sender : Program) (ts : Timespec) : Message :=
  match sender with
  | .golang => jsonMarshal { sec := ts.sec, nSec := ts.nsec }
  | .cpp => { document := writtenDocument (writerCalls ts) }

/-- Go and C++ write the same message. -/
theorem encode_eq (sender : Program) (ts : Timespec) :
    encode sender ts = jsonMarshal { sec := ts.sec, nSec := ts.nsec } := by
  cases sender <;> rfl

/-! ## Reading it -/

/-- Both fields are 64-bit integers. -/
def InRange (block : TimestampBlock) : Prop :=
  (-2 ^ 63 ≤ block.sec ∧ block.sec < 2 ^ 63) ∧
    -2 ^ 63 ≤ block.nSec ∧ block.nSec < 2 ^ 63

theorem int64_integer {value : Int}
    (inRange : -2 ^ 63 ≤ value ∧ value < 2 ^ 63) :
    (JsonValue.integer value).int64 = some value :=
  if_pos inRange

/-- Go reads a block as it was written. -/
theorem jsonUnmarshal_jsonMarshal {block : TimestampBlock}
    (inRange : InRange block) : jsonUnmarshal (jsonMarshal block) = block := by
  have sField : foldName "s" = ['s'] := by decide
  have nsField : foldName "ns" = ['n', 's'] := by decide
  simp [jsonUnmarshal, jsonMarshal, unmarshalField, sField, nsField,
    int64_integer inRange.1, int64_integer inRange.2]

/-- rapidjson reads its fields as they were written. -/
theorem getInt64_jsonMarshal {block : TimestampBlock} {root : JsonValue}
    (inRange : InRange block)
    (parsed : (jsonMarshal block).document = some root) :
    root.getInt64 "s" = some block.sec ∧
      root.getInt64 "ns" = some block.nSec := by
  cases parsed
  constructor
  · simp [JsonValue.getInt64, EntryMap.get, int64_integer inRange.1]
  · simp [JsonValue.getInt64, EntryMap.get, int64_integer inRange.2]

/-! ## Recorders -/

/-- A program that records messages, what its state holds after some of them,
and that it keeps every block there is room for. -/
structure Recorder (room : Nat) where
  State : Type
  start : Option State
  read : State → Timespec × Message → Option State
  /-- `elapsed[:idx]`, the samples given to the report. -/
  samples : State → List Int
  Holds : State → List Int → Prop
  exists_start : ∃ state, start = some state ∧ Holds state []
  exists_read : ∀ state values ts block, Holds state values →
    values.length < room → InRange block →
      ∃ next, read state (ts, jsonMarshal block) = some next ∧
        Holds next (values ++ [elapsedSince ts block])
  samples_eq : ∀ state values, Holds state values → samples state = values

/-- `OnRead` of the Go server. -/
def golangServer {room : Nat} (config : WsConfig)
    (length : WsService.maxLen config = room) : Recorder room where
  State := SampleBuffer
  start := WsService.newWsService config
  read := WsService.onRead jsonUnmarshal
  samples := FillBuffer.contents
  Holds := FillBuffer.Holding room
  exists_start := by
    refine ⟨FillBuffer.empty 0 room, ?_, FillBuffer.holding_empty 0 room⟩
    unfold WsService.newWsService
    rw [length, if_neg (by omega)]
  exists_read := by
    intro state values ts block holding less inRange
    obtain ⟨next, stored, after⟩ :=
      holding.put less (elapsedSince ts block)
    refine ⟨next, ?_, after⟩
    have notFull := mt holding.isFull_iff.mp (by omega)
    rw [WsService.onRead_eq_offer, FillBuffer.offer, if_neg notFull, sampleOf,
      jsonUnmarshal_jsonMarshal inRange]
    exact stored
  samples_eq := fun _ _ holding => holding.contents_eq

/-- The loop of `run_stc` of the Go client. -/
def golangClient {room : Nat} (config : WsConfig)
    (length : WsService.maxLen config = room) : Recorder room where
  State := WsClient.StcLoop
  -- `make` panics on a negative length.
  start :=
    if WsService.maxLen config < 0 then none
    else some (WsClient.startStc (WsService.maxLen config))
  read := WsClient.readStc jsonUnmarshal
  samples := fun loop => loop.buffer.contents
  Holds := fun loop values =>
    WsClient.Received room loop values ∧ values.length ≤ room
  exists_start := by
    refine ⟨WsClient.startStc room, ?_, WsClient.received_start room,
      Nat.zero_le _⟩
    rw [length, if_neg (by omega)]
  exists_read := by
    intro loop values ts block holds less inRange
    obtain ⟨next, read, received⟩ : ∃ next,
        WsClient.readStc jsonUnmarshal loop (ts, jsonMarshal block) =
            some next ∧
          WsClient.Received room next
            (values ++ [sampleOf jsonUnmarshal (ts, jsonMarshal block)]) :=
      holds.1.readStc (ts, jsonMarshal block)
    rw [sampleOf, jsonUnmarshal_jsonMarshal inRange] at received
    refine ⟨next, read, received, ?_⟩
    rw [List.length_append]
    exact less
  samples_eq := by
    rintro loop values ⟨received, fits⟩
    rw [received.holding.contents_eq, List.take_of_length_le fits]

/-- `onMessage` of the C++ programs. -/
def cppHandle {room : Nat} (config : WsConfig)
    (length : WsHandle.maxLen config = room) : Recorder room where
  State := SampleBuffer
  start := some (WsHandle.new config)
  read := WsHandle.onMessage
  samples := FillBuffer.contents
  Holds := FillBuffer.Holding room
  exists_start := by
    refine ⟨FillBuffer.empty 0 room, ?_, FillBuffer.holding_empty 0 room⟩
    rw [WsHandle.new, length]
  exists_read := by
    intro state values ts block holding less inRange
    obtain ⟨next, stored, after⟩ :=
      holding.put less (elapsedSince ts block)
    refine ⟨next, ?_, after⟩
    have notFull := mt holding.isFull_iff.mp (by omega)
    obtain ⟨gotS, gotNs⟩ := getInt64_jsonMarshal inRange rfl
    unfold WsHandle.onMessage
    rw [if_neg notFull]
    simp only [jsonMarshal] at gotS gotNs ⊢
    rw [gotS, gotNs]
    simp only [Option.bind_eq_bind, Option.bind_some]
    rw [WsHandle.elapsed_eq ts block]
    exact stored
  samples_eq := fun _ _ holding => holding.contents_eq

/-! ## Report files -/

/-- The file a receiver writes over its samples, once it is open. -/
def reportFile (receiver : Program) (arithmetic : WsReport.DoubleArithmetic)
    (config : WsConfig) (iterations : Nat) (samples : List Int) :
    Except WsReport.Failure (List String) :=
  match receiver with
  | .golang => WsReport.Golang.genWsReport arithmetic true samples
      samples.length config iterations
  | .cpp => WsReport.Cpp.genWsReport arithmetic true samples samples.length
      config iterations

/-- The bound of a program's `int`s. -/
def intLimit : Program → Int
  | .golang => 2 ^ 63
  | .cpp => 2 ^ 31

/-- Over at least one sample the report completes. -/
theorem exists_reportFile_eq_ok {receiver : Program}
    {arithmetic : WsReport.DoubleArithmetic} {config : WsConfig}
    {iterations : Nat} {samples : List Int} (accurate : arithmetic.Accurate)
    (positive : 1 ≤ config.reportStep)
    (isInt : config.reportStep < intLimit receiver)
    (enough : 100 ≤ iterations) (nonempty : samples ≠ []) :
    ∃ lines, reportFile receiver arithmetic config iterations samples =
      .ok lines := by
  cases receiver with
  | golang =>
      obtain ⟨_, wrote⟩ := WsReport.Golang.exists_genWsReport_eq_ok accurate
        true positive isInt enough nonempty
      exact ⟨_, wrote⟩
  | cpp =>
      obtain ⟨_, wrote⟩ := WsReport.Cpp.exists_genWsReport_eq_ok accurate
        positive isInt enough nonempty
      exact ⟨_, wrote⟩

end WsSession

end LatencyBenchmark
