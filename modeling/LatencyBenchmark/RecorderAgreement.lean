import LatencyBenchmark.WsRecorder

/-!
# The Go recorders agree

`OnRead` of the Go server ignores the messages that find its array full, the
loop of `run_stc` of the Go client is left at the first of them.  In every
step the two hold the same samples.
-/

namespace LatencyBenchmark

namespace RecorderAgreement

open WsClient (StcLoop readStc startStc)
open WsService (onRead newWsService maxLen)

variable {Payload : Type} {unmarshal : Payload → TimestampBlock}
variable {service : SampleBuffer} {loop : StcLoop}

/-! ## Simulation -/

/-- The client holds what the server holds, and has left its loop only with
a full array. -/
structure Agrees (service : SampleBuffer) (loop : StcLoop) : Prop where
  buffer_eq : loop.buffer = service
  isFull : loop.reading = false → service.IsFull

theorem agrees_start (maxLen : Int) :
    Agrees (FillBuffer.empty 0 maxLen) (startStc maxLen) where
  buffer_eq := rfl
  isFull stopped := by
    have reading : (startStc maxLen).reading = true := rfl
    rw [reading] at stopped
    cases stopped

/-- A full server ignores a message. -/
theorem onRead_of_isFull (full : service.IsFull)
    (arrival : Timespec × Payload) :
    onRead unmarshal service arrival = some service :=
  if_pos full

/-- A client with a full array has left its loop after another message. -/
theorem readStc_of_isFull (full : loop.buffer.IsFull)
    (arrival : Timespec × Payload) :
    readStc unmarshal loop arrival = some { loop with reading := false } := by
  unfold readStc
  by_cases stopped : loop.reading = false
  · rw [if_pos stopped, ← stopped]
  · rw [if_neg stopped, if_pos full]

/-- With room in its array a client records what the server records. -/
theorem readStc_of_room (agrees : Agrees service loop)
    (room : ¬ service.IsFull) (arrival : Timespec × Payload) :
    readStc unmarshal loop arrival =
      (onRead unmarshal service arrival).map fun buffer =>
        { loop with buffer := buffer } := by
  have reading : ¬ loop.reading = false := mt agrees.isFull room
  unfold readStc onRead
  rw [agrees.buffer_eq, if_neg reading, if_neg room, if_neg room]
  dsimp only
  cases service.put
      (WsService.elapsed arrival.1 (unmarshal arrival.2)) with
  | none => rfl
  | some buffer => rfl

/-- One message keeps the agreement. -/
theorem Agrees.step (agrees : Agrees service loop)
    {arrival : Timespec × Payload} {next : SampleBuffer}
    (read : onRead unmarshal service arrival = some next) :
    ∃ nextLoop, readStc unmarshal loop arrival = some nextLoop ∧
      Agrees next nextLoop := by
  by_cases full : service.IsFull
  · rw [onRead_of_isFull full] at read
    have same : service = next := Option.some.inj read
    subst next
    have loopFull : loop.buffer.IsFull := by
      rw [agrees.buffer_eq]
      exact full
    exact ⟨_, readStc_of_isFull loopFull arrival, agrees.buffer_eq,
      fun _ => full⟩
  · have reading : ¬ loop.reading = false := mt agrees.isFull full
    refine ⟨{ loop with buffer := next }, ?_, rfl,
      fun stopped => absurd stopped reading⟩
    rw [readStc_of_room agrees full, read]
    rfl

/-- Any messages keep the agreement. -/
theorem Agrees.run (agrees : Agrees service loop)
    {arrivals : List (Timespec × Payload)} {last : SampleBuffer}
    (folded : arrivals.foldlM (onRead unmarshal) service = some last) :
    ∃ lastLoop, arrivals.foldlM (readStc unmarshal) loop = some lastLoop ∧
      Agrees last lastLoop := by
  induction arrivals generalizing service loop with
  | nil =>
      have same : service = last := Option.some.inj folded
      subst last
      exact ⟨loop, rfl, agrees⟩
  | cons arrival arrivals induction =>
      rw [List.foldlM_cons] at folded
      obtain ⟨next, read, rest⟩ := Option.bind_eq_some_iff.mp folded
      obtain ⟨nextLoop, loopRead, later⟩ := agrees.step read
      obtain ⟨lastLoop, loopFolded, ends⟩ := induction later rest
      refine ⟨lastLoop, ?_, ends⟩
      rw [List.foldlM_cons, loopRead]
      exact loopFolded

/-! ## Surplus messages -/

/-- A full server ignores any messages. -/
theorem foldlM_onRead_of_isFull (full : service.IsFull)
    (surplus : List (Timespec × Payload)) :
    surplus.foldlM (onRead unmarshal) service = some service := by
  induction surplus with
  | nil => rfl
  | cons arrival surplus induction =>
      rw [List.foldlM_cons, onRead_of_isFull full]
      exact induction

/-! ## The recorded samples -/

/-- `json.Unmarshal` into a zero block. -/
def freshBlock (decode : Payload → TimestampBlock → TimestampBlock)
    (message : Payload) : TimestampBlock :=
  decode message { sec := 0, nSec := 0 }

/-- The array of `maxLen` samples holds those of the first messages. -/
structure RecordsFirst
    (decode : Payload → TimestampBlock → TimestampBlock) (maxLen : Int)
    (arrivals : List (Timespec × Payload)) (buffer : SampleBuffer) :
    Prop where
  idx_eq : buffer.idx = min maxLen arrivals.length
  length_slots : (buffer.slots.length : Int) = maxLen
  sample_eq : ∀ k (inside : k < arrivals.length), (k : Int) < maxLen →
    buffer.slots[k]? =
      some (elapsedSince arrivals[k].1 (freshBlock decode arrivals[k].2))

theorem recordsFirst_of_holding
    {decode : Payload → TimestampBlock → TimestampBlock} {maxLen : Nat}
    {arrivals : List (Timespec × Payload)}
    (holding : FillBuffer.Holding maxLen service
      ((arrivals.map (sampleOf (freshBlock decode))).take maxLen)) :
    RecordsFirst decode maxLen arrivals service where
  idx_eq := by
    rw [holding.idx_eq, List.length_take, List.length_map, Nat.cast_min]
  length_slots := congrArg _ holding.length_slots
  sample_eq k inside below := by
    have belowIdx : k < service.idx.toNat := by
      rw [holding.idx_eq, List.length_take, List.length_map]
      omega
    have stored : service.contents[k]? = service.slots[k]? :=
      List.getElem?_take_of_lt belowIdx
    rw [← stored, holding.contents_eq,
      List.getElem?_take_of_lt (Int.ofNat_lt.mp below), List.getElem?_map,
      List.getElem?_eq_getElem inside]
    rfl

/-- On the messages the server and the client leave the same samples, those of
the first messages that fit the array, and once as many messages as fit have
arrived no further ones change them. -/
def RecordersAgree (decode : Payload → TimestampBlock → TimestampBlock)
    (config : WsConfig) (arrivals : List (Timespec × Payload)) : Prop :=
  ∃ initial service loop,
    newWsService config = some initial ∧
    arrivals.foldlM (onRead (freshBlock decode)) initial = some service ∧
    arrivals.foldlM (readStc (freshBlock decode))
      (startStc (maxLen config)) = some loop ∧
    loop.buffer = service ∧
    RecordsFirst decode (maxLen config) arrivals service ∧
    (maxLen config ≤ arrivals.length →
      ∀ surplus : List (Timespec × Payload),
        surplus.foldlM (onRead (freshBlock decode)) service = some service ∧
        ∃ later : StcLoop,
          surplus.foldlM (readStc (freshBlock decode)) loop = some later ∧
          later.buffer = loop.buffer)

/-- **The Go recorders.**  For every array size, decoding and sequence of
messages the two recorders agree. -/
theorem recorders_agree
    (decode : Payload → TimestampBlock → TimestampBlock) (config : WsConfig)
    (nonneg : 0 ≤ maxLen config) (arrivals : List (Timespec × Payload)) :
    RecordersAgree decode config arrivals := by
  obtain ⟨slots, slots_eq⟩ := Int.eq_ofNat_of_zero_le nonneg
  obtain ⟨service, folded, holding⟩ :=
    WsService.foldlM_onRead (freshBlock decode) slots arrivals
  unfold RecordersAgree
  rw [slots_eq]
  obtain ⟨loop, loopFolded, agrees⟩ := (agrees_start slots).run folded
  refine ⟨FillBuffer.empty 0 slots, service, loop, ?_, folded, loopFolded,
    agrees.buffer_eq, recordsFirst_of_holding holding, ?_⟩
  · unfold newWsService
    rw [slots_eq, if_neg (by omega)]
  · intro enough surplus
    have full : service.IsFull := by
      rw [holding.isFull_iff, List.length_take, List.length_map]
      omega
    have ignored :
        surplus.foldlM (onRead (freshBlock decode)) service = some service :=
      foldlM_onRead_of_isFull full surplus
    obtain ⟨later, laterFolded, laterAgrees⟩ := agrees.run ignored
    refine ⟨ignored, later, laterFolded, ?_⟩
    rw [laterAgrees.buffer_eq, agrees.buffer_eq]

/-- Two messages for an array of one sample. -/
theorem recorders_agree_surplus :
    RecordersAgree (fun message _ => jsonUnmarshal message)
      ⟨"127.0.0.1", 10102, "/ws", 1, 1, 100, 10, "stc"⟩
      [(⟨1700000001, 7⟩, timestampMessage),
        (⟨1700000001, 9⟩, timestampMessage)] :=
  recorders_agree _ _ (by decide) _

end RecorderAgreement

end LatencyBenchmark
