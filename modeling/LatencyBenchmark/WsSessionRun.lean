import LatencyBenchmark.WsSession

/-!
# Runs of a websocket session

The sender's loops, the messages on their way and the recorder interleave in
every order.  Whatever the order, the samples are the latencies of the
messages, first to last, and the report covers every message.
-/

namespace LatencyBenchmark

namespace WsSession

/-- Program points of a sender. -/
inductive SenderPoint where
  /-- At the head of the loop over `i`. -/
  | outer (i : Nat)
  /-- At the head of the loop over `j`. -/
  | inner (i j : Nat)
  | sleep (i : Nat)
  /-- The connection is closed. -/
  | closed
  deriving DecidableEq, Repr

/-- Global state.  `wire` lists the messages on their way, oldest first, and
`report` holds the samples of a report that was written.  `sent` and `arrived`
are history variables: the readings of the clock the sender wrote and those
the recorder took, oldest first. -/
structure State {room : Nat} (recorder : Recorder room) where
  clock : Int
  sender : SenderPoint
  wire : List Message
  recorder : recorder.State
  report : Option (List Int)
  crashed : Bool
  sent : List Int
  arrived : List Int

inductive Actor where
  | sender
  | receiver
  deriving DecidableEq, Repr

structure Action where
  actor : Actor
  time : Int
  deriving DecidableEq, Repr

variable {room : Nat} {recorder : Recorder room}
variable {genReport : List Int → Except WsReport.Failure (List String)}

/-- The next step of the sender. -/
def senderStep (program : Program) (config : WsConfig)
    (state : State recorder) : Option (State recorder) :=
  match state.sender with
  | .outer i =>
      if i < config.loop then
        some { state with sender := .inner i 0 }
      else
        some { state with sender := .closed }
  | .inner i j =>
      if j < config.cntPerLoop then
        some { state with
          sender := .inner i (j + 1)
          wire := state.wire ++ [encode program (timespecOf state.clock)]
          sent := state.sent ++ [state.clock] }
      else
        some { state with sender := .sleep i }
  | .sleep i => some { state with sender := .outer (i + 1) }
  | .closed => none

/-- The next step of the receiver: it records a message, or finds the
connection closed and writes its report, which ends the program when it reads
outside the samples. -/
def receiverStep
    (genReport : List Int → Except WsReport.Failure (List String))
    (state : State recorder) : Option (State recorder) :=
  if state.report.isSome then
    none
  else
    match state.wire with
    | message :: rest =>
        match recorder.read state.recorder
            (timespecOf state.clock, message) with
        | some next =>
            some { state with
              wire := rest
              recorder := next
              arrived := state.arrived ++ [state.clock] }
        | none => some { state with crashed := true }
    | [] =>
        if state.sender = .closed then
          match genReport (recorder.samples state.recorder) with
          | .ok _ =>
              some { state with
                report := some (recorder.samples state.recorder) }
          | .error _ => some { state with crashed := true }
        else
          none

/-- One step.  The session is over when the receiver crashes. -/
def step (program : Program) (config : WsConfig)
    (genReport : List Int → Except WsReport.Failure (List String))
    (state : State recorder) (action : Action) : Option (State recorder) :=
  if state.crashed then
    none
  else
    let now := { state with clock := action.time }
    match action.actor with
    | .sender => senderStep program config now
    | .receiver => receiverStep genReport now

/-- A session between a sender and a receiver, which records and reports, from
its connection on. -/
def system (program : Program) (config : WsConfig)
    (recorder : Recorder room)
    (genReport : List Int → Except WsReport.Failure (List String)) :
    TransitionSystem (State recorder) Action where
  initial := fun state => ∃ clock start, 0 ≤ clock ∧ clock < 2 ^ 63 ∧
    recorder.start = some start ∧
      state = ⟨clock, .outer 0, [], start, none, false, [], []⟩
  step := step program config genReport

/-- A receiver that finds the connection closed writes a report that
completes. -/
theorem step_report {program : Program} {config : WsConfig}
    {state : State recorder} {lines : List String}
    (running : state.crashed = false) (unreported : state.report = none)
    (empty : state.wire = []) (closed : state.sender = .closed)
    (wrote : genReport (recorder.samples state.recorder) = .ok lines) :
    (system program config recorder genReport).step state
        ⟨.receiver, state.clock⟩ =
      some { state with
        report := some (recorder.samples state.recorder) } := by
  simp [system, step, receiverStep, running, unreported, empty, closed, wrote]

/-- The clock does not run backwards, and its nanoseconds are 64-bit
integers. -/
def ClockRuns (state : State recorder) (action : Action) : Prop :=
  state.clock ≤ action.time ∧ action.time < 2 ^ 63

instance (state : State recorder) (action : Action) :
    Decidable (ClockRuns state action) :=
  inferInstanceAs (Decidable (_ ∧ _))

/-! ## Latencies -/

/-- The latencies of the messages that arrived. -/
def latencies (arrived sent : List Int) : List Int :=
  List.zipWith (fun arrival departure => arrival - departure) arrived sent

/-- A message on its way has no latency. -/
theorem latencies_append_sent {arrived sent : List Int} (time : Int)
    (arrivedLe : arrived.length ≤ sent.length) :
    latencies arrived (sent ++ [time]) = latencies arrived sent := by
  unfold latencies
  induction arrived generalizing sent with
  | nil => rfl
  | cons arrival arrived induction =>
      cases sent with
      | nil => cases arrivedLe
      | cons departure sent =>
          rw [List.cons_append, List.zipWith_cons_cons,
            List.zipWith_cons_cons,
            induction (Nat.le_of_succ_le_succ arrivedLe)]

/-- A message that arrives has the latency of its own departure. -/
theorem latencies_append_arrived {arrived sent : List Int} {departure : Int}
    (time : Int) (found : sent[arrived.length]? = some departure) :
    latencies (arrived ++ [time]) sent =
      latencies arrived sent ++ [time - departure] := by
  unfold latencies
  induction arrived generalizing sent with
  | nil =>
      cases sent with
      | nil => cases found
      | cons first sent =>
          cases found
          rfl
  | cons arrival arrived induction =>
      cases sent with
      | nil => cases found
      | cons first sent =>
          rw [List.cons_append, List.zipWith_cons_cons,
            List.zipWith_cons_cons, List.cons_append, induction found]

theorem length_latencies {arrived sent : List Int}
    (arrivedLe : arrived.length ≤ sent.length) :
    (latencies arrived sent).length = arrived.length := by
  rw [latencies, List.length_zipWith, Nat.min_eq_left arrivedLe]

/-! ## The clock -/

/-- The block a sender writes at a time. -/
def blockAt (time : Int) : TimestampBlock where
  sec := (timespecOf time).sec
  nSec := (timespecOf time).nsec

theorem nanoseconds_timespecOf (time : Int) :
    (timespecOf time).nanoseconds = time := by
  unfold timespecOf Timespec.nanoseconds
  dsimp only
  omega

theorem nanoseconds_blockAt (time : Int) : (blockAt time).nanoseconds = time :=
  nanoseconds_timespecOf time

theorem inRange_blockAt {time : Int} (nonneg : 0 ≤ time)
    (inInt64 : time < 2 ^ 63) : InRange (blockAt time) := by
  unfold InRange blockAt timespecOf
  dsimp only
  omega

/-- The sample of a message is its latency to the nanosecond. -/
theorem elapsedSince_blockAt {arrival departure : Int}
    (nonneg : 0 ≤ departure) (order : departure ≤ arrival)
    (inInt64 : arrival < 2 ^ 63) :
    elapsedSince (timespecOf arrival) (blockAt departure) =
      arrival - departure := by
  rw [elapsedSince_eq_sub, nanoseconds_timespecOf, nanoseconds_blockAt]
  apply toInt64_eq_self <;> omega

/-! ## The invariant -/

/-- How many messages a sender has sent at a program point. -/
def SenderPoint.Sends (point : SenderPoint) (loop cnt sent : Nat) : Prop :=
  match point with
  | .outer i => i ≤ loop ∧ sent = i * cnt
  | .inner i j => i < loop ∧ j ≤ cnt ∧ sent = i * cnt + j
  | .sleep i => i < loop ∧ sent = (i + 1) * cnt
  | .closed => sent = loop * cnt

/-- No sender sends more than the loops have. -/
theorem SenderPoint.Sends.le {point : SenderPoint} {loop cnt sent : Nat}
    (sends : point.Sends loop cnt sent) : sent ≤ loop * cnt := by
  cases point with
  | outer i =>
      obtain ⟨inLoops, rfl⟩ := sends
      exact Nat.mul_le_mul_right cnt inLoops
  | inner i j =>
      obtain ⟨inLoops, inLoop, rfl⟩ := sends
      have whole := Nat.mul_le_mul_right cnt (Nat.succ_le_of_lt inLoops)
      rw [Nat.succ_mul] at whole
      omega
  | sleep i =>
      obtain ⟨inLoops, rfl⟩ := sends
      exact Nat.mul_le_mul_right cnt (Nat.succ_le_of_lt inLoops)
  | closed => exact Nat.le_of_eq sends

/-- The loops of a configuration, as natural numbers. -/
structure Loops (config : WsConfig) (loop cnt : Nat) : Prop where
  loop_eq : config.loop = loop
  cnt_eq : config.cntPerLoop = cnt

/-- The report completes over as many samples as there are messages. -/
def Completes (genReport : List Int → Except WsReport.Failure (List String))
    (count : Nat) : Prop :=
  ∀ samples : List Int, samples.length = count →
    ∃ lines, genReport samples = .ok lines

/-- Messages are sent at their times, travel in order and are recorded with
their latencies. -/
structure Invariant (loop cnt : Nat) (state : State recorder) : Prop where
  sends : state.sender.Sends loop cnt state.sent.length
  clock_nonneg : 0 ≤ state.clock
  clock_lt : state.clock < 2 ^ 63
  departures : ∀ time ∈ state.sent,
    0 ≤ time ∧ time ≤ state.clock ∧ time < 2 ^ 63
  arrived_le : state.arrived.length ≤ state.sent.length
  wire_eq : state.wire = (state.sent.drop state.arrived.length).map
    fun time => jsonMarshal (blockAt time)
  holds : recorder.Holds state.recorder (latencies state.arrived state.sent)
  latencies_nonneg : ∀ latency ∈ latencies state.arrived state.sent,
    0 ≤ latency
  reported : ∀ samples ∈ state.report, state.sender = .closed ∧
    state.arrived.length = state.sent.length ∧
      samples = latencies state.arrived state.sent
  not_crashed : state.crashed = false

namespace Invariant

variable {loop cnt : Nat} {program : Program} {config : WsConfig}
variable {state next : State recorder}

theorem atTime (invariant : Invariant loop cnt state) {time : Int}
    (order : state.clock ≤ time) (inInt64 : time < 2 ^ 63) :
    Invariant loop cnt { state with clock := time } :=
  { invariant with
    clock_nonneg := le_trans invariant.clock_nonneg order
    clock_lt := inInt64
    departures := fun departure mem =>
      ⟨(invariant.departures departure mem).1,
        le_trans (invariant.departures departure mem).2.1 order,
        (invariant.departures departure mem).2.2⟩ }

/-- A sender that only moves on sends nothing. -/
theorem moveSender (invariant : Invariant loop cnt state)
    {point : SenderPoint} (running : state.sender ≠ .closed)
    (sends : point.Sends loop cnt state.sent.length) :
    Invariant loop cnt { state with sender := point } :=
  { invariant with
    sends := sends
    reported := fun samples mem =>
      absurd (invariant.reported samples mem).1 running }

/-- The sender writes the time. -/
theorem send (invariant : Invariant loop cnt state) {i j : Nat}
    (point : state.sender = .inner i j) (inLoop : j < cnt) :
    Invariant loop cnt { state with
      sender := .inner i (j + 1)
      wire := state.wire ++ [encode program (timespecOf state.clock)]
      sent := state.sent ++ [state.clock] } := by
  have sends := invariant.sends
  rw [point] at sends
  obtain ⟨inLoops, _, count⟩ := sends
  have same := latencies_append_sent state.clock invariant.arrived_le
  refine {
    sends := ⟨inLoops, inLoop, ?_⟩
    clock_nonneg := invariant.clock_nonneg
    clock_lt := invariant.clock_lt
    departures := ?_
    arrived_le := ?_
    wire_eq := ?_
    holds := same ▸ invariant.holds
    latencies_nonneg := same ▸ invariant.latencies_nonneg
    reported := ?_
    not_crashed := invariant.not_crashed }
  · rw [List.length_append, count, List.length_singleton, Nat.add_assoc]
  · intro time mem
    rcases List.mem_append.mp mem with earlier | now
    · exact invariant.departures time earlier
    · rw [List.mem_singleton.mp now]
      exact ⟨invariant.clock_nonneg, le_refl _, invariant.clock_lt⟩
  · rw [List.length_append]
    exact Nat.le_add_right_of_le invariant.arrived_le
  · rw [List.drop_append_of_le_length invariant.arrived_le, List.map_append,
      ← invariant.wire_eq, encode_eq]
    rfl
  · intro samples mem
    have closed := (invariant.reported samples mem).1
    rw [point] at closed
    cases closed

theorem senderStep (invariant : Invariant loop cnt state)
    (loops : Loops config loop cnt)
    (taken : WsSession.senderStep program config state = some next) :
    Invariant loop cnt next := by
  have sends := invariant.sends
  unfold WsSession.senderStep at taken
  cases point : state.sender with
  | outer i =>
      rw [point] at sends
      obtain ⟨atMost, count⟩ := sends
      simp only [point, loops.loop_eq, Nat.cast_lt] at taken
      split at taken <;> cases taken
      · next inLoops =>
          exact invariant.moveSender (by simp [point])
            ⟨inLoops, Nat.zero_le _, count⟩
      · next ended =>
          have last : i = loop := by omega
          exact invariant.moveSender (by simp [point]) (last ▸ count)
  | inner i j =>
      rw [point] at sends
      obtain ⟨inLoops, inLoop, count⟩ := sends
      simp only [point, loops.cnt_eq, Nat.cast_lt] at taken
      split at taken <;> cases taken
      · next more => exact invariant.send point (by omega)
      · next ended =>
          have last : j = cnt := by omega
          refine invariant.moveSender (by simp [point]) ⟨inLoops, ?_⟩
          rw [count, last, Nat.succ_mul]
  | sleep i =>
      rw [point] at sends
      simp only [point, Option.some.injEq] at taken
      subst taken
      exact invariant.moveSender (by simp [point]) sends
  | closed =>
      simp only [point] at taken
      cases taken

/-- The oldest message on its way is the one sent after those that arrived. -/
theorem first_of_wire (invariant : Invariant loop cnt state)
    {message : Message} {rest : List Message}
    (wire : state.wire = message :: rest) :
    ∃ departure, state.sent[state.arrived.length]? = some departure ∧
      message = jsonMarshal (blockAt departure) ∧
        rest = (state.sent.drop (state.arrived.length + 1)).map
          fun time => jsonMarshal (blockAt time) := by
  have sent := invariant.wire_eq
  rw [wire] at sent
  have inside : state.arrived.length < state.sent.length := by
    by_contra outside
    rw [List.drop_eq_nil_of_le (by omega)] at sent
    cases sent
  rw [List.drop_eq_getElem_cons inside, List.map_cons, List.cons.injEq] at sent
  exact ⟨_, List.getElem?_eq_getElem inside, sent.1, sent.2⟩

/-- When the connection is closed and nothing is on its way, every message has
arrived. -/
theorem all_arrived (invariant : Invariant loop cnt state)
    (wire : state.wire = []) (closed : state.sender = .closed) :
    state.arrived.length = state.sent.length ∧
      (latencies state.arrived state.sent).length = loop * cnt := by
  have onWire := congrArg List.length invariant.wire_eq
  rw [wire, List.length_map, List.length_drop, List.length_nil] at onWire
  have arrivedLe := invariant.arrived_le
  have sends := invariant.sends
  rw [closed] at sends
  have all : state.arrived.length = state.sent.length := by omega
  refine ⟨all, ?_⟩
  rw [length_latencies arrivedLe, all]
  exact sends

section Receiver

variable {recorder : Recorder (loop * cnt)} {state next : State recorder}

/-- The receiver records the oldest message. -/
theorem receive (invariant : Invariant loop cnt state)
    (unreported : state.report = none)
    {message : Message} {rest : List Message}
    (wire : state.wire = message :: rest) :
    ∃ after, recorder.read state.recorder
        (timespecOf state.clock, message) = some after ∧
      Invariant loop cnt { state with
        wire := rest
        recorder := after
        arrived := state.arrived ++ [state.clock] } := by
  obtain ⟨departure, found, rfl, restEq⟩ := invariant.first_of_wire wire
  obtain ⟨inside, _⟩ := List.getElem?_eq_some_iff.mp found
  obtain ⟨nonneg, order, departureInt64⟩ :=
    invariant.departures departure (List.mem_of_getElem? found)
  have length := length_latencies invariant.arrived_le
  have bound := invariant.sends.le
  obtain ⟨after, read, holds⟩ := recorder.exists_read state.recorder
    (latencies state.arrived state.sent) (timespecOf state.clock)
    (blockAt departure) invariant.holds (by omega)
    (inRange_blockAt nonneg departureInt64)
  rw [elapsedSince_blockAt nonneg order invariant.clock_lt,
    ← latencies_append_arrived state.clock found] at holds
  refine ⟨after, read, {
    sends := invariant.sends
    clock_nonneg := invariant.clock_nonneg
    clock_lt := invariant.clock_lt
    departures := invariant.departures
    arrived_le := ?_
    wire_eq := ?_
    holds := holds
    latencies_nonneg := ?_
    reported := ?_
    not_crashed := invariant.not_crashed }⟩
  · rw [List.length_append]
    exact inside
  · rw [List.length_append]
    exact restEq
  · intro latency mem
    dsimp only at mem
    rw [latencies_append_arrived state.clock found, List.mem_append] at mem
    rcases mem with earlier | last
    · exact invariant.latencies_nonneg latency earlier
    · rw [List.mem_singleton.mp last]
      omega
  · intro samples mem
    dsimp only at mem
    rw [unreported] at mem
    cases mem

theorem receiverStep (invariant : Invariant loop cnt state)
    (completes : Completes genReport (loop * cnt))
    (taken : WsSession.receiverStep genReport state = some next) :
    Invariant loop cnt next := by
  unfold WsSession.receiverStep at taken
  split at taken
  · cases taken
  · next running =>
      have unreported : state.report = none := by simpa using running
      split at taken
      · next message rest wire =>
          obtain ⟨after, read, later⟩ := invariant.receive unreported wire
          simp only [read] at taken
          cases taken
          exact later
      · next wire =>
          split at taken
          · next closed =>
              obtain ⟨all, count⟩ := invariant.all_arrived wire closed
              have samples := recorder.samples_eq _ _ invariant.holds
              obtain ⟨lines, wrote⟩ := completes _ count
              simp only [samples, wrote] at taken
              cases taken
              refine { invariant with reported := ?_ }
              intro values mem
              cases mem
              exact ⟨closed, all, rfl⟩
          · cases taken

/-- One step of a session. -/
theorem step {action : Action} (invariant : Invariant loop cnt state)
    (loops : Loops config loop cnt)
    (completes : Completes genReport (loop * cnt))
    (clockRuns : ClockRuns state action)
    (taken : WsSession.step program config genReport state action =
      some next) :
    Invariant loop cnt next := by
  have now := invariant.atTime clockRuns.1 clockRuns.2
  unfold WsSession.step at taken
  split at taken
  · cases taken
  · split at taken
    · exact now.senderStep loops taken
    · exact now.receiverStep completes taken

theorem atStart {start : recorder.State} {clock : Int} (nonneg : 0 ≤ clock)
    (inInt64 : clock < 2 ^ 63) (started : recorder.start = some start) :
    Invariant loop cnt
      (⟨clock, .outer 0, [], start, none, false, [], []⟩ : State recorder) := by
  obtain ⟨other, same, holds⟩ := recorder.exists_start
  rw [started, Option.some.injEq] at same
  subst same
  exact {
    sends := ⟨Nat.zero_le _, (Nat.zero_mul cnt).symm⟩
    clock_nonneg := nonneg
    clock_lt := inInt64
    departures := by simp
    arrived_le := Nat.le_refl _
    wire_eq := rfl
    holds := holds
    latencies_nonneg := by simp [latencies]
    reported := by simp
    not_crashed := rfl }

theorem of_reachableUnder (loops : Loops config loop cnt)
    (completes : Completes genReport (loop * cnt))
    (reachable : (system program config recorder genReport).ReachableUnder
      ClockRuns state) : Invariant loop cnt state := by
  apply reachable.invariant
  · rintro _ ⟨clock, start, nonneg, inInt64, started, rfl⟩
    exact .atStart nonneg inInt64 started
  · intro before action after _ clockRuns taken invariant
    exact invariant.step loops completes clockRuns taken

/-- Before the report one of the two can step at once. -/
theorem canStep (invariant : Invariant loop cnt state)
    (unreported : state.report = none) :
    ∃ actor, (WsSession.step program config genReport state
      ⟨actor, state.clock⟩).isSome := by
  have notCrashed := invariant.not_crashed
  by_cases closed : state.sender = .closed
  · refine ⟨.receiver, ?_⟩
    cases wire : state.wire with
    | nil =>
        cases wrote : genReport (recorder.samples state.recorder) <;>
          simp [WsSession.step, notCrashed, WsSession.receiverStep, unreported,
            wire, closed, wrote]
    | cons message rest =>
        obtain ⟨after, read, _⟩ := invariant.receive unreported wire
        simp [WsSession.step, notCrashed, WsSession.receiverStep, unreported,
          wire, read]
  · refine ⟨.sender, ?_⟩
    cases point : state.sender with
    | outer i =>
        by_cases inLoops : i < config.loop <;>
          simp [WsSession.step, notCrashed, WsSession.senderStep, point,
            inLoops]
    | inner i j =>
        by_cases inLoop : j < config.cntPerLoop <;>
          simp [WsSession.step, notCrashed, WsSession.senderStep, point,
            inLoop]
    | sleep i =>
        simp [WsSession.step, notCrashed, WsSession.senderStep, point]
    | closed => exact absurd point closed

end Receiver

end Invariant

/-! ## Work left -/

/-- Steps a sender has left, and those of the receiver on what it sends. -/
def SenderPoint.work (loop cnt : Nat) : SenderPoint → Nat
  | .outer i => (loop - i) * (2 * cnt + 3) + 1
  | .inner i j => (loop - (i + 1)) * (2 * cnt + 3) + 2 * (cnt - j) + 3
  | .sleep i => (loop - (i + 1)) * (2 * cnt + 3) + 2
  | .closed => 0

/-- Steps a session has left. -/
def State.work (loop cnt : Nat) (state : State recorder) : Nat :=
  state.sender.work loop cnt + state.wire.length +
    if state.report.isSome then 0 else 1

section Work

variable {loop cnt : Nat} {program : Program} {config : WsConfig}

theorem work_lt_of_senderStep {state next : State recorder}
    (invariant : Invariant loop cnt state) (loops : Loops config loop cnt)
    (taken : senderStep program config state = some next) :
    next.work loop cnt < state.work loop cnt := by
  have sends := invariant.sends
  unfold senderStep at taken
  cases point : state.sender with
  | outer i =>
      rw [point] at sends
      simp only [point, loops.loop_eq, Nat.cast_lt] at taken
      split at taken <;> cases taken
      · next inLoops =>
          have first : loop - i = loop - (i + 1) + 1 := by omega
          simp only [State.work, SenderPoint.work, point, first,
            Nat.succ_mul]
          omega
      · simp only [State.work, SenderPoint.work, point]
        omega
  | inner i j =>
      simp only [point, loops.cnt_eq, Nat.cast_lt] at taken
      split at taken <;> cases taken
      · simp only [State.work, SenderPoint.work, point, List.length_append,
          List.length_singleton]
        omega
      · simp only [State.work, SenderPoint.work, point]
        omega
  | sleep i =>
      simp only [point, Option.some.injEq] at taken
      subst taken
      simp only [State.work, SenderPoint.work, point]
      omega
  | closed =>
      simp only [point] at taken
      cases taken

variable {recorder : Recorder (loop * cnt)}

theorem work_lt_of_receiverStep {state next : State recorder}
    (invariant : Invariant loop cnt state)
    (completes : Completes genReport (loop * cnt))
    (taken : receiverStep genReport state = some next) :
    next.work loop cnt < state.work loop cnt := by
  unfold receiverStep at taken
  split at taken
  · cases taken
  · next running =>
      have unreported : state.report = none := by simpa using running
      split at taken
      · next message rest wire =>
          obtain ⟨after, read, _⟩ := invariant.receive unreported wire
          simp only [read] at taken
          cases taken
          simp [State.work, wire, unreported]
      · next wire =>
          split at taken
          · next closed =>
              have samples := recorder.samples_eq _ _ invariant.holds
              obtain ⟨lines, wrote⟩ :=
                completes _ (invariant.all_arrived wire closed).2
              simp only [samples, wrote] at taken
              cases taken
              simp [State.work, unreported]
          · cases taken

theorem work_lt_of_step {state next : State recorder} {action : Action}
    (invariant : Invariant loop cnt state) (loops : Loops config loop cnt)
    (completes : Completes genReport (loop * cnt))
    (clockRuns : ClockRuns state action)
    (taken : step program config genReport state action = some next) :
    next.work loop cnt < state.work loop cnt := by
  have now := invariant.atTime clockRuns.1 clockRuns.2
  unfold step at taken
  split at taken
  · cases taken
  · split at taken
    · have less := work_lt_of_senderStep now loops taken
      exact less
    · have less := work_lt_of_receiverStep now completes taken
      exact less

end Work

/-! ## Sessions of the four programs -/

/-- `GenWsReport` completes over a positive number of samples. -/
theorem completes_reportFile {receiver : Program}
    {arithmetic : WsReport.DoubleArithmetic} {config : WsConfig}
    {iterations count : Nat} (accurate : arithmetic.Accurate)
    (positive : 1 ≤ config.reportStep)
    (isInt : config.reportStep < intLimit receiver) (enough : 100 ≤ iterations)
    (some : 0 < count) :
    Completes (reportFile receiver arithmetic config iterations) count := by
  intro samples length
  apply exists_reportFile_eq_ok accurate positive isInt enough
  apply List.ne_nil_of_length_pos
  omega

/-- The number of samples a receiver allocates. -/
def maxLen (receiver : Program) (config : WsConfig) : Int :=
  match receiver with
  | .golang => WsService.maxLen config
  | .cpp => WsHandle.maxLen config

/-- A configuration whose loops are not negative and whose messages the
receiver can count. -/
structure Admissible (receiver : Program) (config : WsConfig)
    (loop cnt : Nat) : Prop extends Loops config loop cnt where
  fits : ((loop * cnt : Nat) : Int) < intLimit receiver

theorem Admissible.maxLen_eq {receiver : Program} {config : WsConfig}
    {loop cnt : Nat} (admissible : Admissible receiver config loop cnt) :
    maxLen receiver config = (loop * cnt : Nat) := by
  have fits := admissible.fits
  have product : config.loop * config.cntPerLoop = (loop * cnt : Nat) := by
    rw [admissible.loop_eq, admissible.cnt_eq, Nat.cast_mul]
  cases receiver with
  | golang =>
      unfold maxLen WsService.maxLen
      rw [product]
      exact toInt64_eq_self (by omega) fits
  | cpp =>
      unfold maxLen WsHandle.maxLen
      rw [product]
      exact toInt32_eq_self (by omega) fits

/-- The receiving program of a session: the server when the client sends, and
the client when the server does.  The two C++ programs share a handler. -/
def recorderOf (receiver : Program) (direction : Direction)
    (config : WsConfig) {room : Nat} (length : maxLen receiver config = room) :
    Recorder room :=
  match receiver, direction with
  | .golang, .cts => golangServer config length
  | .golang, .stc => golangClient config length
  | .cpp, _ => cppHandle config length

/-- Two messages in one loop. -/
def twoMessages : WsConfig where
  host := "127.0.0.1"
  port := 10102
  url := "/ws"
  loop := 1
  cntPerLoop := 2
  loopInterval := 0
  reportStep := 10
  dir := "stc"

theorem admissible_twoMessages : Admissible .golang twoMessages 1 2 where
  loop_eq := rfl
  cnt_eq := rfl
  fits := by decide

/-- A C++ server sends two messages, which a Go client reads 1.5 s later. -/
theorem twoMessages_run :
    ∃ (trace : List (State (recorderOf .golang .stc twoMessages
        admissible_twoMessages.maxLen_eq) × Action))
      (state : State (recorderOf .golang .stc twoMessages
        admissible_twoMessages.maxLen_eq)),
        state.report = some [1500000000, 1600000000] ∧
          (system .cpp twoMessages (recorderOf .golang .stc twoMessages
            admissible_twoMessages.maxLen_eq)
              (reportFile .golang WsReport.binary64 twoMessages 100)).Run
                trace state ∧
          TransitionSystem.Meets ClockRuns trace := by
  have received : ((system .cpp twoMessages (recorderOf .golang .stc twoMessages
        admissible_twoMessages.maxLen_eq)
          (reportFile .golang WsReport.binary64 twoMessages 100)).executeUnder
      ClockRuns ⟨0, .outer 0, [], WsClient.startStc 2, none, false, [], []⟩
      [⟨.sender, 1⟩, ⟨.sender, 2900000000⟩, ⟨.sender, 3100000000⟩,
        ⟨.receiver, 4400000000⟩, ⟨.sender, 4500000000⟩,
        ⟨.receiver, 4700000000⟩, ⟨.sender, 4800000000⟩,
        ⟨.sender, 4800000000⟩]).map
      (fun last => (last.crashed, last.report, last.wire.length, last.sender,
        (recorderOf .golang .stc twoMessages
          admissible_twoMessages.maxLen_eq).samples last.recorder,
        last.clock)) =
      some (false, none, 0, .closed, [1500000000, 1600000000], 4800000000) :=
    rfl
  obtain ⟨last, executed, facts⟩ := Option.map_eq_some_iff.mp received
  simp only [Prod.mk.injEq, List.length_eq_zero_iff] at facts
  obtain ⟨running, unreported, empty, closed, samples, clock⟩ := facts
  have reached := fun started =>
    TransitionSystem.ReachableUnder.executeUnder started executed
  have atEnd := reached
    (.of_initial ⟨0, WsClient.startStc 2, by decide, by decide, rfl, rfl⟩)
  obtain ⟨lines, wrote⟩ := completes_reportFile WsReport.binary64_accurate
    (show 1 ≤ twoMessages.reportStep by decide)
    (show twoMessages.reportStep < intLimit .golang by decide) (le_refl 100)
    Nat.two_pos _ (congrArg List.length samples)
  have now : ClockRuns last ⟨.receiver, last.clock⟩ :=
    ⟨le_refl _, clock.trans_lt (by decide)⟩
  obtain ⟨trace, run, meets⟩ := atEnd.step now
    (step_report running unreported empty closed wrote)
  exact ⟨trace, _, congrArg some samples, run, meets⟩

end WsSession

end LatencyBenchmark
