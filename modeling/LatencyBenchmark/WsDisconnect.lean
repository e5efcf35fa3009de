import LatencyBenchmark.WsMalformedMessages
import LatencyBenchmark.WsReport

/-!
# Reports after a disconnect

A disconnect, or a failed read, makes a websocket program write its report
over the samples recorded so far.  The writers index the samples by quantile
and at `cnt - 1`, which is inside them as soon as there is one; nothing keeps
a peer from leaving before its first message.
-/

namespace LatencyBenchmark

open WsReport

/-- `array[:idx]`. -/
def FillBuffer.slice (buffer : SampleBuffer) : Except Failure (List Int) :=
  if 0 ≤ buffer.idx ∧ buffer.idx ≤ buffer.slots.length then
    return buffer.contents
  else
    throw .indexOutOfRange

theorem FillBuffer.Holding.slice_eq_ok {maxLen : Nat} {buffer : SampleBuffer}
    {values : List Int} (holding : FillBuffer.Holding maxLen buffer values) :
    buffer.slice = .ok values := by
  have fits := holding.length_le
  have inside : 0 ≤ buffer.idx ∧ buffer.idx ≤ buffer.slots.length := by
    rw [holding.idx_eq, holding.length_slots]
    omega
  unfold FillBuffer.slice
  rw [if_pos inside, holding.contents_eq]
  rfl

/-- The report gets to its end: given enough iterations its loops end, and
all its reads are inside the recorded samples. -/
def ReadsInside (report : Nat → Except Failure (List String)) : Prop :=
  ∃ enough, ∀ iterations, enough ≤ iterations →
    ∃ lines, report iterations = .ok lines

/-! ## The Go server -/

namespace WsService

/-- `OnInactive` up to its `os.Exit(0)`: the report it writes. -/
def onInactive (created : Bool) (config : WsConfig) (service : SampleBuffer)
    (iterations : Nat) : Except Failure (List String) :=
  if config.dir = "cts" then do
    let elapsed ← service.slice
    Golang.genWsReport binary64 created elapsed service.idx config iterations
  else
    return []

/-- The server from its start to the disconnect that ends it. -/
def session (config : WsConfig) (created : Bool)
    (messages : List (Timespec × Message)) (iterations : Nat) :
    Except Failure (List String) :=
  match (newWsService config).bind fun service =>
      messages.foldlM (onRead jsonUnmarshal) service with
  | none => throw .indexOutOfRange
  | some service => onInactive created config service iterations

end WsService

/-! ## The Go client -/

namespace WsClient

/-- `run_stc` on the messages before the first error of `ReadMessage`. -/
def runStc (config : WsConfig) (created : Bool)
    (messages : List (Timespec × Message)) (iterations : Nat) :
    Except Failure (List String) :=
  let maxLen := WsService.maxLen config
  -- `make` panics on a negative length.
  if maxLen < 0 then
    throw .indexOutOfRange
  else
    match messages.foldlM (readStc jsonUnmarshal) (startStc maxLen) with
    | none => throw .indexOutOfRange
    | some loop => do
        let elapsed ← loop.buffer.slice
        Golang.genWsReport binary64 created elapsed loop.buffer.idx config
          iterations

end WsClient

/-! ## The C++ handler -/

namespace WsHandle

/-- `strncmp(dir, direction, 3) == 0` for a direction of three letters. -/
def HasDirection (config : WsConfig) (direction : String) : Prop :=
  config.dir.toList.take 3 = direction.toList

instance (config : WsConfig) (direction : String) :
    Decidable (HasDirection config direction) :=
  inferInstanceAs (Decidable (_ = _))

/-- What both overloads of `onDisconnection` do, for their direction. -/
def reportFor (direction : String) (opened : Bool) (config : WsConfig)
    (handle : SampleBuffer) (iterations : Nat) :
    Except Failure (List String) :=
  if HasDirection config direction then
    Cpp.genWsReport binary64 opened handle.contents handle.idx config
      iterations
  else
    return []

/-- `onDisconnection` of the server. -/
def onServerDisconnection (opened : Bool) (config : WsConfig)
    (handle : SampleBuffer) (iterations : Nat) :
    Except Failure (List String) :=
  reportFor "cts" opened config handle iterations

/-- `onDisconnection` of the client. -/
def onClientDisconnection (opened : Bool) (config : WsConfig)
    (handle : SampleBuffer) (iterations : Nat) :
    Except Failure (List String) :=
  reportFor "stc" opened config handle iterations

/-- A program from its start to a disconnect. -/
def session
    (onDisconnection : SampleBuffer → Nat → Except Failure (List String))
    (config : WsConfig) (messages : List (Timespec × Message))
    (iterations : Nat) : Except Failure (List String) :=
  match messages.foldlM onMessage (new config) with
  | none => throw .indexOutOfRange
  | some handle => onDisconnection handle iterations

end WsHandle

/-! ## Which sessions read inside their samples -/

section Sessions

variable {config : WsConfig} {messages : List (Timespec × Message)}

/-- A report that completes under a condition and fails otherwise reads
inside exactly under the condition. -/
theorem readsInside_iff_of_cases
    {report : Nat → Except Failure (List String)} {condition : Prop}
    (outcome : ∀ iterations, 100 ≤ iterations →
      (¬ condition ∧ report iterations = .error .indexOutOfRange) ∨
        (condition ∧ ∃ lines, report iterations = .ok lines)) :
    ReadsInside report ↔ condition := by
  constructor
  · rintro ⟨enough, completes⟩
    obtain ⟨lines, wrote⟩ :=
      completes (max enough 100) (le_max_left enough 100)
    rcases outcome _ (le_max_right enough 100) with ⟨_, failed⟩ | ⟨holds, _⟩
    · rw [failed] at wrote
      cases wrote
    · exact holds
  · intro holds
    refine ⟨100, fun iterations enough => ?_⟩
    rcases outcome iterations enough with ⟨fails, _⟩ | ⟨_, completes⟩
    · exact absurd holds fails
    · exact completes

/-- The length of the sample arrays, for positive counts whose product fits
the type. -/
theorem exists_maxLen (loopPos : 1 ≤ config.loop)
    (cntPos : 1 ≤ config.cntPerLoop) {bound : Int} {wrap : Int → Int}
    (exact : ExactBelow wrap bound)
    (fits : config.loop * config.cntPerLoop < bound) :
    ∃ maxLen : Nat, 1 ≤ maxLen ∧
      wrap (config.loop * config.cntPerLoop) = maxLen := by
  have positive : 1 ≤ config.loop * config.cntPerLoop :=
    one_le_mul_of_one_le_of_one_le loopPos cntPos
  refine ⟨(config.loop * config.cntPerLoop).toNat, by omega, ?_⟩
  rw [exact _ (by omega) fits]
  omega

theorem take_map_ne_nil_iff {maxLen : Nat} (positive : 1 ≤ maxLen)
    (sample : Timespec × Message → Int) :
    (messages.map sample).take maxLen ≠ [] ↔ messages ≠ [] := by
  have room : maxLen ≠ 0 := by omega
  simp [List.take_eq_nil_iff, room]

/-- A Go report over the held samples reads inside if there is one. -/
theorem goReport_cases (config : WsConfig) {maxLen : Nat}
    {buffer : SampleBuffer} {values : List Int}
    (holding : FillBuffer.Holding maxLen buffer values)
    (stepLow : 1 ≤ config.reportStep) (stepHigh : config.reportStep ≤ 100)
    (created : Bool) {iterations : Nat} (enough : 100 ≤ iterations) :
    (¬ values ≠ [] ∧ (do
      let elapsed ← buffer.slice
      Golang.genWsReport binary64 created elapsed buffer.idx config
        iterations) = .error .indexOutOfRange) ∨
    (values ≠ [] ∧ ∃ lines, (do
      let elapsed ← buffer.slice
      Golang.genWsReport binary64 created elapsed buffer.idx config
        iterations) = .ok lines) := by
  rw [holding.slice_eq_ok, holding.idx_eq, ExceptTraversal.ok_bind, not_not]
  exact Golang.genWsReport_cases binary64_accurate created stepLow
    (by omega) enough

theorem WsService.readsInside_session_iff (loopPos : 1 ≤ config.loop)
    (cntPos : 1 ≤ config.cntPerLoop)
    (fits : config.loop * config.cntPerLoop < 2 ^ 63)
    (stepLow : 1 ≤ config.reportStep) (stepHigh : config.reportStep ≤ 100)
    (created : Bool) :
    ReadsInside (session config created messages) ↔
      messages ≠ [] ∨ config.dir ≠ "cts" := by
  obtain ⟨maxLen, positive, length⟩ :=
    exists_maxLen loopPos cntPos toInt64_exactBelow fits
  obtain ⟨service, ran, holding⟩ :=
    foldlM_onRead jsonUnmarshal maxLen messages
  have run : ((newWsService config).bind fun service =>
      messages.foldlM (onRead jsonUnmarshal) service) = some service := by
    unfold newWsService WsService.maxLen
    rw [length, if_neg (by omega)]
    exact ran
  apply readsInside_iff_of_cases
  intro iterations enough
  unfold session onInactive
  rw [run]
  dsimp only
  by_cases reports : config.dir = "cts"
  · rw [if_pos reports]
    have outcome :=
      goReport_cases config holding stepLow stepHigh created enough
    rw [take_map_ne_nil_iff positive] at outcome
    simpa [reports] using outcome
  · rw [if_neg reports]
    exact Or.inr ⟨Or.inr reports, [], rfl⟩

theorem WsClient.readsInside_runStc_iff (loopPos : 1 ≤ config.loop)
    (cntPos : 1 ≤ config.cntPerLoop)
    (fits : config.loop * config.cntPerLoop < 2 ^ 63)
    (stepLow : 1 ≤ config.reportStep) (stepHigh : config.reportStep ≤ 100)
    (created : Bool) :
    ReadsInside (runStc config created messages) ↔ messages ≠ [] := by
  obtain ⟨maxLen, positive, length⟩ :=
    exists_maxLen loopPos cntPos toInt64_exactBelow fits
  obtain ⟨loop, ran, received⟩ :=
    foldlM_readStc jsonUnmarshal maxLen messages
  apply readsInside_iff_of_cases
  intro iterations enough
  unfold runStc WsService.maxLen
  dsimp only
  rw [length, if_neg (by omega), ran]
  have outcome :=
    goReport_cases config received.holding stepLow stepHigh created enough
  rw [take_map_ne_nil_iff positive] at outcome
  exact outcome

/-- Well-formed messages leave at least one sample if there are any. -/
theorem take_filterMap_ne_nil_iff {maxLen : Nat} (positive : 1 ≤ maxLen)
    (wellFormed : ∀ arrival ∈ messages, arrival.2.WellFormed) :
    (messages.filterMap wellFormedSample).take maxLen ≠ [] ↔
      messages ≠ [] := by
  have room : maxLen ≠ 0 := by omega
  cases messages with
  | nil => simp
  | cons arrival rest =>
      have first := (wellFormedSample_isSome_iff arrival).mpr
        (wellFormed arrival List.mem_cons_self)
      obtain ⟨sample, sampled⟩ := Option.isSome_iff_exists.mp first
      rw [List.filterMap_cons_some sampled]
      simp [room]

theorem WsHandle.readsInside_session_iff (loopPos : 1 ≤ config.loop)
    (cntPos : 1 ≤ config.cntPerLoop)
    (fits : config.loop * config.cntPerLoop < 2 ^ 31)
    (stepLow : 1 ≤ config.reportStep) (stepHigh : config.reportStep ≤ 100)
    (wellFormed : ∀ arrival ∈ messages, arrival.2.WellFormed)
    (direction : String) (opened : Bool) :
    ReadsInside
        (session (reportFor direction opened config) config messages) ↔
      messages ≠ [] ∨ ¬ HasDirection config direction ∨ opened = false := by
  obtain ⟨maxLen, positive, length⟩ :=
    exists_maxLen loopPos cntPos toInt32_exactBelow fits
  have accepted : ∀ earlier arrival later,
      messages = earlier ++ arrival :: later →
        Accepts maxLen earlier arrival.2 := by
    intro earlier arrival later split _ _
    exact wellFormed arrival (by simp [split])
  obtain ⟨handle, ran⟩ := exists_foldlM_eq_some accepted
  have holding := holding_of_foldlM ran
  apply readsInside_iff_of_cases
  intro iterations enough
  unfold session reportFor WsHandle.new WsHandle.maxLen
  rw [length, ran]
  dsimp only
  by_cases reports : HasDirection config direction
  · rw [if_pos reports, holding.contents_eq, holding.idx_eq]
    have someSample := take_filterMap_ne_nil_iff positive wellFormed
    rcases Cpp.genWsReport_cases binary64_accurate opened stepLow
        (by omega : config.reportStep < 2 ^ 31) enough with
      ⟨⟨noSample, isOpen⟩, failed⟩ | ⟨holds, completes⟩
    · left
      refine ⟨?_, failed⟩
      rintro (received | other | closed)
      · exact someSample.mpr received noSample
      · exact other reports
      · rw [isOpen] at closed
        cases closed
    · right
      refine ⟨?_, completes⟩
      rcases holds with sampled | closed
      · exact Or.inl (someSample.mp sampled)
      · exact Or.inr (Or.inr closed)
  · rw [if_neg reports]
    exact Or.inr ⟨Or.inr (Or.inl reports), [], rfl⟩

end Sessions

/-! ## All programs -/

/-- When a disconnect after well-formed messages is followed by no read
outside the samples: when there was a message, or no report is written. -/
theorem readsInside_iff_received (config : WsConfig)
    (messages : List (Timespec × Message)) (loopPos : 1 ≤ config.loop)
    (cntPos : 1 ≤ config.cntPerLoop)
    (fits : config.loop * config.cntPerLoop < 2 ^ 63)
    (stepLow : 1 ≤ config.reportStep) (stepHigh : config.reportStep ≤ 100)
    (wellFormed : ∀ arrival ∈ messages, arrival.2.WellFormed)
    (opened : Bool) :
    (ReadsInside (WsService.session config opened messages) ↔
      messages ≠ [] ∨ config.dir ≠ "cts") ∧
    (ReadsInside (WsClient.runStc config opened messages) ↔
      messages ≠ []) ∧
    (config.loop * config.cntPerLoop < 2 ^ 31 →
      (ReadsInside (WsHandle.session
          (WsHandle.onServerDisconnection opened config) config messages) ↔
        messages ≠ [] ∨ ¬ WsHandle.HasDirection config "cts" ∨
          opened = false) ∧
      (ReadsInside (WsHandle.session
          (WsHandle.onClientDisconnection opened config) config messages) ↔
        messages ≠ [] ∨ ¬ WsHandle.HasDirection config "stc" ∨
          opened = false)) := by
  refine ⟨?_, ?_, fun fitsInt => ⟨?_, ?_⟩⟩
  · exact WsService.readsInside_session_iff loopPos cntPos fits stepLow
      stepHigh opened
  · exact WsClient.readsInside_runStc_iff loopPos cntPos fits stepLow
      stepHigh opened
  · exact WsHandle.readsInside_session_iff loopPos cntPos fitsInt stepLow
      stepHigh wellFormed "cts" opened
  · exact WsHandle.readsInside_session_iff loopPos cntPos fitsInt stepLow
      stepHigh wellFormed "stc" opened

/-- One message in each direction, in steps of 10. -/
def oneMessageConfig (dir : String) : WsConfig where
  host := "127.0.0.1"
  port := 10102
  url := "/ws"
  loop := 1
  cntPerLoop := 1
  loopInterval := 100
  reportStep := 10
  dir := dir

/-- Three messages, in steps of 10. -/
def threeMessagesConfig : WsConfig :=
  { oneMessageConfig "cts" with cntPerLoop := 3 }

/-- Two messages, and then the end of the connection. -/
def twoArrivals : List (Timespec × Message) :=
  [(⟨1700000001, 7⟩, timestampMessage), (⟨1700000002, 3⟩, timestampMessage)]

theorem readsInside_iff_received_twoOfThree :
    ReadsInside (WsService.session threeMessagesConfig true twoArrivals) ∧
      ReadsInside (WsClient.runStc threeMessagesConfig true twoArrivals) ∧
        ReadsInside (WsHandle.session
          (WsHandle.onServerDisconnection true threeMessagesConfig)
          threeMessagesConfig twoArrivals) ∧
          ReadsInside (WsHandle.session
            (WsHandle.onClientDisconnection true threeMessagesConfig)
            threeMessagesConfig twoArrivals) := by
  have wellFormed : ∀ arrival ∈ twoArrivals, arrival.2.WellFormed := by decide
  have some : twoArrivals ≠ [] := List.cons_ne_nil _ _
  obtain ⟨server, client, handler⟩ := readsInside_iff_received
    threeMessagesConfig twoArrivals (by decide) (by decide) (by decide)
    (by decide) (by decide) wellFormed true
  obtain ⟨onServer, onClient⟩ := handler (by decide)
  exact ⟨server.mpr (Or.inl some), client.mpr some,
    onServer.mpr (Or.inl some), onClient.mpr (Or.inl some)⟩

/-- A peer that leaves before its first message. -/
theorem disconnect_before_message_reads_outside :
    WsService.session (oneMessageConfig "cts") true [] 100 =
      .error .indexOutOfRange ∧
    ¬ ReadsInside (WsService.session (oneMessageConfig "cts") true []) ∧
    ¬ ReadsInside (WsClient.runStc (oneMessageConfig "stc") true []) ∧
    ¬ ReadsInside (WsHandle.session
      (WsHandle.onServerDisconnection true (oneMessageConfig "cts"))
      (oneMessageConfig "cts") []) ∧
    ¬ ReadsInside (WsHandle.session
      (WsHandle.onClientDisconnection true (oneMessageConfig "stc"))
      (oneMessageConfig "stc") []) := by
  have none : ∀ arrival ∈ ([] : List (Timespec × Message)),
      arrival.2.WellFormed := by simp
  refine ⟨?_, fun reads => ?_, fun reads => ?_, fun reads => ?_,
    fun reads => ?_⟩
  · rcases goReport_cases (oneMessageConfig "cts")
        (FillBuffer.holding_empty (0 : Int) 1) (by decide) (by decide) true
        (le_refl 100) with
      ⟨_, failed⟩ | ⟨sampled, _⟩
    · exact failed
    · exact absurd rfl sampled
  · have received := (WsService.readsInside_session_iff (by decide)
      (by decide) (by decide) (by decide) (by decide) true).mp reads
    revert received
    decide
  · have received := (WsClient.readsInside_runStc_iff (by decide)
      (by decide) (by decide) (by decide) (by decide) true).mp reads
    exact received rfl
  · have received := (WsHandle.readsInside_session_iff (by decide)
      (by decide) (by decide) (by decide) (by decide) none "cts" true).mp
        reads
    revert received
    decide
  · have received := (WsHandle.readsInside_session_iff (by decide)
      (by decide) (by decide) (by decide) (by decide) none "stc" true).mp
        reads
    revert received
    decide

end LatencyBenchmark
