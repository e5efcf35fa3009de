import LatencyBenchmark.WsRecorder
import Mathlib.Data.List.Induction

/-!
# Malformed messages among the received ones

A recorder of latencies should keep the samples of the first well-formed
messages and pass over malformed ones.  The Go programs ignore the error of
`json.Unmarshal` and record a malformed message as if its missing fields were
zero, so they do so exactly as long as every message they record is
well-formed.  The C++ handler passes over text that is not JSON, and ends
with a failed assertion on JSON that is not a timestamp.
-/

namespace LatencyBenchmark

/-! ## What a recorder is for -/

/-- A recorder of samples: what an arrival does to its state, `none` ending
the process, and the samples it holds. -/
structure Recorder (State Arrival : Type) where
  receive : State → Arrival → Option State
  samples : State → List Int

/-- The sample a well-formed message stands for. -/
def wellFormedSample (arrival : Timespec × Message) : Option Int :=
  arrival.2.block.map (elapsedSince arrival.1)

/-- After every part of the messages received so far the samples are those of
the first well-formed ones, and a malformed message that follows changes
nothing. -/
def RecordsWellFormed {State : Type}
    (recorder : Recorder State (Timespec × Message)) (start : State)
    (maxLen : Nat) (messages : List (Timespec × Message)) : Prop :=
  ∀ before after, messages = before ++ after →
    ∃ state, before.foldlM recorder.receive start = some state ∧
      recorder.samples state =
          (before.filterMap wellFormedSample).take maxLen ∧
        ∀ arrival ∈ after.head?, ¬ arrival.2.WellFormed →
          recorder.receive state arrival = some state

theorem wellFormedSample_isSome_iff (arrival : Timespec × Message) :
    (wellFormedSample arrival).isSome ↔ arrival.2.WellFormed := by
  unfold wellFormedSample Message.WellFormed
  rw [Option.isSome_map]

theorem wellFormedSample_eq_some_iff (arrival : Timespec × Message) :
    wellFormedSample arrival =
        some (elapsedSince arrival.1 (jsonUnmarshal arrival.2)) ↔
      arrival.2.ReadsAsBlock := by
  unfold wellFormedSample Message.ReadsAsBlock
  rw [Option.map_eq_some_iff]
  simp only [Option.mem_def, elapsedSince_eq_iff]
  constructor
  · rintro ⟨block, carried, same⟩
    exact ⟨block, carried, same.symm⟩
  · rintro ⟨block, carried, same⟩
    exact ⟨block, carried, same.symm⟩

/-! ## First values of a list -/

section FirstValues

variable {Input Output : Type*} {select : Input → Option Output}
  {value : Input → Output}

/-- If the first elements are all selected, with their values, then the first
selected values are the values of the first elements. -/
theorem take_filterMap_eq {inputs : List Input} {count : Nat}
    (selected : ∀ input ∈ inputs.take count,
      select input = some (value input)) :
    (inputs.filterMap select).take count = (inputs.map value).take count := by
  induction inputs generalizing count with
  | nil => rfl
  | cons input inputs induction =>
      cases count with
      | zero => rfl
      | succ count =>
          rw [List.take_succ_cons] at selected
          rw [List.filterMap_cons_some (selected input List.mem_cons_self),
            List.map_cons, List.take_succ_cons, List.take_succ_cons,
            induction fun other mem =>
              selected other (List.mem_cons_of_mem _ mem)]

/-- The first selected values are those of the first elements, in every
initial part of a list, only if the first elements are all selected. -/
theorem selected_of_take_filterMap_eq {inputs : List Input} {count : Nat}
    (agree : ∀ before after, inputs = before ++ after →
      (before.filterMap select).take count =
        (before.map value).take count) :
    ∀ input ∈ inputs.take count, select input = some (value input) := by
  induction inputs generalizing count with
  | nil => simp
  | cons input inputs induction =>
      cases count with
      | zero => simp
      | succ count =>
          have here : select input = some (value input) := by
            have single := agree [input] inputs rfl
            cases chosen : select input with
            | none => simp [chosen] at single
            | some output => simpa [chosen] using single
          have later : ∀ other ∈ inputs.take count,
              select other = some (value other) := by
            apply induction
            intro before after split
            have longer := agree (input :: before) after (by rw [split]; rfl)
            rw [List.filterMap_cons_some here, List.map_cons,
              List.take_succ_cons, List.take_succ_cons] at longer
            exact (List.cons.inj longer).2
          intro other mem
          rw [List.take_succ_cons] at mem
          rcases List.mem_cons.mp mem with rfl | mem
          · exact here
          · exact later other mem

/-- What follows a short initial part is among the first elements. -/
theorem mem_take_of_head {before after : List Input} {input : Input}
    {count : Nat} (short : before.length < count)
    (next : input ∈ after.head?) : input ∈ (before ++ after).take count := by
  obtain ⟨rest, rfl⟩ := List.head?_eq_some_iff.mp next
  obtain ⟨more, extra⟩ : ∃ more, count - before.length = more + 1 :=
    ⟨count - before.length - 1, by omega⟩
  rw [List.take_append, extra, List.take_succ_cons]
  exact List.mem_append_right _ List.mem_cons_self

end FirstValues

/-- The samples a Go program records are those of the well-formed messages,
at every moment, exactly when the messages it records read as their blocks. -/
theorem goSamples_eq_iff (maxLen : Nat)
    (messages : List (Timespec × Message)) :
    (∀ before after, messages = before ++ after →
      (before.filterMap wellFormedSample).take maxLen =
        (before.map (sampleOf jsonUnmarshal)).take maxLen) ↔
      ∀ arrival ∈ messages.take maxLen, arrival.2.ReadsAsBlock := by
  constructor
  · intro agree arrival mem
    exact (wellFormedSample_eq_some_iff arrival).mp
      (selected_of_take_filterMap_eq agree arrival mem)
  · intro reads before after split
    apply take_filterMap_eq
    intro arrival mem
    apply (wellFormedSample_eq_some_iff arrival).mpr
    apply reads
    rw [split, List.take_append]
    exact List.mem_append_left _ mem

/-! ## The Go server -/

namespace WsService

def recorder : Recorder SampleBuffer (Timespec × Message) where
  receive := onRead jsonUnmarshal
  samples := FillBuffer.contents

theorem recordsWellFormed_iff (maxLen : Nat)
    (messages : List (Timespec × Message)) :
    RecordsWellFormed recorder (FillBuffer.empty 0 maxLen) maxLen messages ↔
      ∀ arrival ∈ messages.take maxLen, arrival.2.ReadsAsBlock := by
  constructor
  · intro records
    apply (goSamples_eq_iff maxLen messages).mp
    intro before after split
    obtain ⟨state, folded, samples, _⟩ := records before after split
    obtain ⟨service, ran, holding⟩ := foldlM_onRead jsonUnmarshal maxLen before
    have same : service = state := Option.some.inj (ran.symm.trans folded)
    rw [← samples, ← holding.contents_eq, same]
    rfl
  · intro reads before after split
    obtain ⟨service, ran, holding⟩ := foldlM_onRead jsonUnmarshal maxLen before
    have samples := (goSamples_eq_iff maxLen messages).mpr reads
      before after split
    refine ⟨service, ran, holding.contents_eq.trans samples.symm, ?_⟩
    intro arrival next malformed
    have full : service.IsFull := by
      by_contra notFull
      have room := mt holding.isFull_iff.mpr notFull
      rw [List.length_take, List.length_map] at room
      have recorded : arrival ∈ messages.take maxLen := by
        rw [split]
        exact mem_take_of_head (by omega) next
      exact malformed (reads arrival recorded).wellFormed
    exact if_pos full

end WsService

/-! ## The Go client -/

namespace WsClient

def recorder : Recorder StcLoop (Timespec × Message) where
  receive := readStc jsonUnmarshal
  samples := fun loop => loop.buffer.contents

/-- The message after the last recorded one ends the loop, so it is not
ignored. -/
theorem wellFormed_of_stops {maxLen : Nat}
    {messages : List (Timespec × Message)}
    (records : RecordsWellFormed recorder (startStc maxLen) maxLen messages) :
    ∀ arrival ∈ messages[maxLen]?, arrival.2.WellFormed := by
  intro arrival next
  obtain ⟨state, folded, _, unchanged⟩ := records
    (messages.take maxLen) (messages.drop maxLen)
    (List.take_append_drop maxLen messages).symm
  obtain ⟨loop, ran, received⟩ :=
    foldlM_readStc jsonUnmarshal maxLen (messages.take maxLen)
  have same : loop = state := Option.some.inj (ran.symm.trans folded)
  obtain ⟨inside, _⟩ := List.getElem?_eq_some_iff.mp next
  have length : ((messages.take maxLen).map
      (sampleOf jsonUnmarshal)).length = maxLen := by
    rw [List.length_map, List.length_take]
    omega
  by_contra malformed
  have stays : readStc jsonUnmarshal loop arrival = some loop := by
    rw [same]
    apply unchanged arrival _ malformed
    rw [List.head?_drop]
    exact next
  rw [received.readStc_of_full length] at stays
  have stopped := congrArg StcLoop.reading (Option.some.inj stays)
  rw [received.reading_iff.mpr length.le] at stopped
  cases stopped

/-- The client also stops at the message after the last it records. -/
theorem recordsWellFormed_iff (maxLen : Nat)
    (messages : List (Timespec × Message)) :
    RecordsWellFormed recorder (startStc maxLen) maxLen messages ↔
      (∀ arrival ∈ messages.take maxLen, arrival.2.ReadsAsBlock) ∧
        ∀ arrival ∈ messages[maxLen]?, arrival.2.WellFormed := by
  constructor
  · intro records
    constructor
    · apply (goSamples_eq_iff maxLen messages).mp
      intro before after split
      obtain ⟨state, folded, samples, _⟩ := records before after split
      obtain ⟨loop, ran, received⟩ :=
        foldlM_readStc jsonUnmarshal maxLen before
      have same : loop = state := Option.some.inj (ran.symm.trans folded)
      rw [← samples, ← same]
      exact received.holding.contents_eq
    · exact wellFormed_of_stops records
  · rintro ⟨reads, later⟩ before after split
    obtain ⟨loop, ran, received⟩ :=
      foldlM_readStc jsonUnmarshal maxLen before
    have samples := (goSamples_eq_iff maxLen messages).mpr reads
      before after split
    refine ⟨loop, ran,
      received.holding.contents_eq.trans samples.symm, ?_⟩
    intro arrival next malformed
    apply received.readStc_of_past
    rw [List.length_map]
    by_contra notPast
    apply malformed
    rcases Nat.lt_or_eq_of_le (Nat.le_of_not_lt notPast) with
      short | exactly
    · apply (reads arrival _).wellFormed
      rw [split]
      exact mem_take_of_head short next
    · apply later
      rw [split, ← exactly, List.getElem?_append_right (le_refl _),
        Nat.sub_self, ← List.head?_eq_getElem?]
      exact next

end WsClient

/-! ## The C++ handler -/

namespace WsHandle

def recorder : Recorder SampleBuffer (Timespec × Message) where
  receive := onMessage
  samples := FillBuffer.contents

/-- The handler reads a message to its end: it is full, or the message is
not JSON, or it is well-formed. -/
def Accepts (maxLen : Nat) (before : List (Timespec × Message))
    (message : Message) : Prop :=
  (before.filterMap wellFormedSample).length < maxLen →
    message.document ≠ none → message.WellFormed

variable {handle next : SampleBuffer} {maxLen : Nat}
  {before : List (Timespec × Message)} {arrival : Timespec × Message}

/-- A handler that is not full stores the sample of a well-formed message;
an assertion fails on any other document. -/
theorem onMessage_eq_bind (room : ¬ handle.IsFull)
    (parsed : arrival.2.document ≠ none) :
    onMessage handle arrival =
      (wellFormedSample arrival).bind handle.put := by
  obtain ⟨root, document⟩ := Option.ne_none_iff_exists'.mp parsed
  unfold onMessage wellFormedSample
  rw [if_neg room, Message.block_eq document]
  simp only [document]
  cases root.getInt64 "s" with
  | none => rfl
  | some s =>
      cases root.getInt64 "ns" with
      | none => rfl
      | some ns =>
          exact congrArg handle.put (elapsed_eq arrival.1 ⟨s, ns⟩)

/-- What one message does to a handler that holds the first well-formed
samples: nothing if it is malformed, unless an assertion fails. -/
theorem onMessage_cases
    (holding : FillBuffer.Holding maxLen handle
      ((before.filterMap wellFormedSample).take maxLen)) :
    (¬ Accepts maxLen before arrival.2 ∧ onMessage handle arrival = none) ∨
      (Accepts maxLen before arrival.2 ∧
        ∃ next, onMessage handle arrival = some next ∧
          FillBuffer.Holding maxLen next
            (((before ++ [arrival]).filterMap wellFormedSample).take
              maxLen) ∧
          (¬ arrival.2.WellFormed → next = handle)) := by
  have fullIff : handle.IsFull ↔
      maxLen ≤ (before.filterMap wellFormedSample).length := by
    rw [holding.isFull_iff, List.length_take]
    omega
  rw [List.filterMap_append]
  unfold Accepts
  by_cases full : handle.IsFull
  · right
    have length := fullIff.mp full
    rw [List.take_append_of_le_length length]
    exact ⟨fun room => absurd length (by omega), handle,
      onMessage_of_dropped (Or.inl full), holding, fun _ => rfl⟩
  · have room := mt fullIff.mpr full
    by_cases unparsed : arrival.2.document = none
    · right
      have noBlock := Message.block_eq_none unparsed
      have noSample : wellFormedSample arrival = none := by
        rw [wellFormedSample, noBlock, Option.map_none]
      rw [List.filterMap_cons_none noSample, List.filterMap_nil,
        List.append_nil]
      exact ⟨fun _ parsed => absurd unparsed parsed, handle,
        onMessage_of_dropped (Or.inr unparsed), holding, fun _ => rfl⟩
    · rw [onMessage_eq_bind full unparsed]
      cases sampled : wellFormedSample arrival with
      | none =>
          left
          have malformed : ¬ arrival.2.WellFormed := by
            rw [← wellFormedSample_isSome_iff, sampled]
            simp
          exact ⟨fun accepted => malformed (accepted (by omega) unparsed),
            rfl⟩
      | some sample =>
          right
          have wellFormed : arrival.2.WellFormed := by
            rw [← wellFormedSample_isSome_iff, sampled]
            rfl
          obtain ⟨next, stored, later⟩ := holding.offer sample
          rw [FillBuffer.offer, if_neg full] at stored
          rw [List.filterMap_cons_some sampled, List.filterMap_nil]
          exact ⟨fun _ _ => wellFormed, next, stored, later,
            fun malformed => absurd wellFormed malformed⟩

/-- A handler that has not ended holds the first well-formed samples. -/
theorem holding_of_foldlM
    (folded : before.foldlM onMessage (FillBuffer.empty 0 maxLen) =
      some handle) :
    FillBuffer.Holding maxLen handle
      ((before.filterMap wellFormedSample).take maxLen) := by
  induction before using List.reverseRecOn generalizing handle with
  | nil =>
      rw [List.filterMap_nil, List.take_nil, ← Option.some.inj folded]
      exact FillBuffer.holding_empty 0 maxLen
  | append_singleton before arrival induction =>
      rw [List.foldlM_append] at folded
      obtain ⟨earlier, ran, read⟩ := Option.bind_eq_some_iff.mp folded
      rw [List.foldlM_cons] at read
      obtain ⟨_, received, ends⟩ := Option.bind_eq_some_iff.mp read
      rw [Option.some.inj ends] at received
      rcases onMessage_cases (induction ran) with
        ⟨_, ended⟩ | ⟨_, next, got, later, _⟩
      · rw [ended] at received
        cases received
      · rw [← Option.some.inj (got.symm.trans received)]
        exact later

/-- A handler that accepts every message does not end. -/
theorem exists_foldlM_eq_some
    (accepts : ∀ earlier arrival later, before = earlier ++ arrival :: later →
      Accepts maxLen earlier arrival.2) :
    ∃ handle, before.foldlM onMessage (FillBuffer.empty 0 maxLen) =
      some handle := by
  induction before using List.reverseRecOn with
  | nil => exact ⟨_, rfl⟩
  | append_singleton before arrival induction =>
      obtain ⟨handle, ran⟩ := induction fun earlier other later split =>
        accepts earlier other (later ++ [arrival]) (by simp [split])
      have accepted := accepts before arrival [] rfl
      rcases onMessage_cases (holding_of_foldlM ran) with
        ⟨refused, _⟩ | ⟨_, next, got, _⟩
      · exact absurd accepted refused
      · refine ⟨next, ?_⟩
        rw [List.foldlM_append, ran]
        change [arrival].foldlM onMessage handle = some next
        rw [List.foldlM_cons, got]
        rfl

theorem recordsWellFormed_iff (maxLen : Nat)
    (messages : List (Timespec × Message)) :
    RecordsWellFormed recorder (FillBuffer.empty 0 maxLen) maxLen messages ↔
      ∀ before arrival after, messages = before ++ arrival :: after →
        Accepts maxLen before arrival.2 := by
  constructor
  · intro records before arrival after split
    obtain ⟨state, folded, _⟩ :=
      records (before ++ [arrival]) after (by simp [split])
    rw [List.foldlM_append] at folded
    obtain ⟨handle, ran, read⟩ := Option.bind_eq_some_iff.mp folded
    rw [List.foldlM_cons] at read
    obtain ⟨_, received, _⟩ := Option.bind_eq_some_iff.mp read
    rcases onMessage_cases (holding_of_foldlM ran) with
      ⟨_, ended⟩ | ⟨accepted, _⟩
    · rw [show onMessage handle arrival = _ from received] at ended
      cases ended
    · exact accepted
  · intro accepts before after split
    have accepted : ∀ earlier arrival later,
        before = earlier ++ arrival :: later →
          Accepts maxLen earlier arrival.2 := by
      intro earlier arrival later parts
      exact accepts earlier arrival (later ++ after) (by simp [split, parts])
    obtain ⟨handle, ran⟩ := exists_foldlM_eq_some accepted
    have holding := holding_of_foldlM ran
    refine ⟨handle, ran, holding.contents_eq, ?_⟩
    intro arrival following malformed
    obtain ⟨rest, rfl⟩ := List.head?_eq_some_iff.mp following
    rcases onMessage_cases holding with ⟨refused, _⟩ | ⟨_, next, got, _, same⟩
    · exact absurd (accepts before arrival rest split) refused
    · rw [same malformed] at got
      exact got

end WsHandle

/-! ## All recorders -/

/-- When the samples are those of the well-formed messages: in Go, when all
recorded messages are well-formed, and for the client also the one that makes
it stop; in C++, when no document arrives that is not a timestamp before the
array is full. -/
theorem recorders_recordWellFormed_iff (maxLen : Nat)
    (messages : List (Timespec × Message)) :
    (RecordsWellFormed WsService.recorder (FillBuffer.empty 0 maxLen) maxLen
        messages ↔
      ∀ arrival ∈ messages.take maxLen, arrival.2.ReadsAsBlock) ∧
    (RecordsWellFormed WsClient.recorder (WsClient.startStc maxLen) maxLen
        messages ↔
      (∀ arrival ∈ messages.take maxLen, arrival.2.ReadsAsBlock) ∧
        ∀ arrival ∈ messages[maxLen]?, arrival.2.WellFormed) ∧
    (RecordsWellFormed WsHandle.recorder (FillBuffer.empty 0 maxLen) maxLen
        messages ↔
      ∀ before arrival after, messages = before ++ arrival :: after →
        WsHandle.Accepts maxLen before arrival.2) :=
  ⟨WsService.recordsWellFormed_iff maxLen messages,
    WsClient.recordsWellFormed_iff maxLen messages,
    WsHandle.recordsWellFormed_iff maxLen messages⟩

/-- Text that is not JSON becomes the only sample of a Go program, the time
since 1970, and an empty object ends a C++ program. -/
theorem malformed_message_is_recorded :
    WsService.onRead jsonUnmarshal (FillBuffer.empty 0 1)
        (⟨1700000000, 5⟩, ⟨none⟩) =
      some { slots := [1700000000000000005], idx := 1, maxLen := 1 } ∧
    ¬ RecordsWellFormed WsService.recorder (FillBuffer.empty 0 (1 : Nat)) 1
      [(⟨1700000000, 5⟩, ⟨none⟩)] ∧
    ¬ RecordsWellFormed WsClient.recorder (WsClient.startStc (1 : Nat)) 1
      [(⟨1700000000, 5⟩, ⟨none⟩)] ∧
    ¬ RecordsWellFormed WsHandle.recorder (FillBuffer.empty 0 (1 : Nat)) 1
      [(⟨1700000000, 5⟩, ⟨some (.object [])⟩)] := by
  have noBlock : ¬ (⟨none⟩ : Message).WellFormed := by decide
  have emptyObject : ¬ (⟨some (.object [])⟩ : Message).WellFormed := by decide
  refine ⟨rfl, fun records => ?_, fun records => ?_, fun records => ?_⟩
  · have reads := (WsService.recordsWellFormed_iff 1 _).mp records
    exact noBlock (reads _ List.mem_cons_self).wellFormed
  · have reads := ((WsClient.recordsWellFormed_iff 1 _).mp records).1
    exact noBlock (reads _ List.mem_cons_self).wellFormed
  · have accepts := (WsHandle.recordsWellFormed_iff 1 _).mp records [] _ [] rfl
    exact emptyObject (accepts (by decide) (by simp))

end LatencyBenchmark
