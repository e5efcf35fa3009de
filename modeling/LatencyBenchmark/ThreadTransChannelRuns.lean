import LatencyBenchmark.ThreadTransChannelSlots
import LatencyBenchmark.ThreadTransChannelStamps

/-!
# What every run of the Go channel benchmark keeps

The invariants hold in every reachable state, also in those where main has
taken a late ready signal for a completion signal.
-/

namespace LatencyBenchmark

namespace ThreadTransChannel

variable {cntProducer cntConsumer : Nat} {limit : MakeLimit}
variable {config : ThreadTransConfig}
variable {state : State cntProducer cntConsumer}

/-- The invariants that need no bound on the number of consumers. -/
structure Invariant (limit : MakeLimit) (config : ThreadTransConfig)
    (state : State cntProducer cntConsumer) : Prop where
  phases : Phases limit config state
  traffic : Traffic config state
  stamps : Stamps state
  counters : Counters state

theorem invariant_of_reachable (someProducer : 0 < cntProducer)
    (someConsumer : 0 < cntConsumer)
    (reachable : (benchmarkWr limit config cntProducer cntConsumer).Reachable
      state) : Invariant limit config state := by
  apply reachable.invariant
  · rintro _ ⟨clock, rfl⟩
    exact ⟨phases_start clock, traffic_start clock, stamps_start clock,
      counters_start clock⟩
  · intro earlier action next _ taken invariant
    obtain ⟨phases, traffic, stamps, counters⟩ := invariant
    constructor
    · exact phases.step someProducer someConsumer taken
    · exact traffic.step phases taken
    · exact stamps.step phases traffic taken
    · exact counters.step phases traffic taken

theorem slots_of_reachable (someProducer : 0 < cntProducer)
    (someConsumer : 0 < cntConsumer) (few : cntConsumer ≤ 2 ^ 31)
    (reachable : (benchmarkWr limit config cntProducer cntConsumer).Reachable
      state) : Slots state := by
  apply reachable.invariant
  · rintro _ ⟨clock, rfl⟩
    exact slots_start clock
  · intro earlier action next earlierReachable taken slots
    have invariant :=
      invariant_of_reachable someProducer someConsumer earlierReachable
    exact slots.step few invariant.phases taken

/-- No block is duplicated, no latency is negative, and every consumer counts
into a slot of its own.  `idx` is behind by the block a consumer has received
and not yet counted, and the slots stay apart while the consumers' numbers fit
an `int32`. -/
theorem noDuplication (someProducer : 0 < cntProducer)
    (someConsumer : 0 < cntConsumer)
    (reachable : (benchmarkWr limit config cntProducer cntConsumer).Reachable
      state) :
    state.sent.Nodup ∧
      (∀ block,
        ∑ consumerId, (state.consumer consumerId).received.count block ≤ 1) ∧
      (∀ consumerId, (state.consumer consumerId).idx +
        (state.consumer consumerId).point.uncounted =
          (state.consumer consumerId).received.length) ∧
      (cntConsumer ≤ 2 ^ 31 →
        (∀ consumerId, (state.consumer consumerId).Numbered →
          0 ≤ (state.consumer consumerId).slot ∧
            (state.consumer consumerId).slot < cntConsumer) ∧
        ∀ consumerId other, (state.consumer consumerId).Numbered →
          (state.consumer other).Numbered →
            (state.consumer consumerId).slot = (state.consumer other).slot →
              consumerId = other) ∧
      state.nilsSent ≤ cntConsumer ∧
      (∀ block time, (state.blocks block).ts 2 = some time →
        ∃ first, (state.blocks block).ts 0 = some first ∧ first ≤ time) ∧
      ∀ block time, (state.blocks block).ts 1 = some time →
        ∃ first, (state.blocks block).ts 0 = some first ∧ first ≤ time := by
  have invariant := invariant_of_reachable someProducer someConsumer reachable
  refine ⟨invariant.traffic.nodup, invariant.traffic.sum_count_le_one,
    fun consumerId => (invariant.counters.valid consumerId).counted, ?_,
    invariant.phases.nilsSent_le, ?_, ?_⟩
  · intro few
    have slots := slots_of_reachable someProducer someConsumer few reachable
    constructor
    · intro consumerId numbered
      have bounds := slots.slot_bounds consumerId numbered
      have most := state.numbered_le
      omega
    · exact slots.distinct
  · intro block time stamped
    exact (invariant.stamps.later block 2 time (Or.inr rfl) stamped).2
  · intro block time stamped
    exact (invariant.stamps.later block 1 time (Or.inl rfl) stamped).2

/-- What `make` accepts on a machine with 48 address bits, where a block takes
200 bytes. -/
def amd64Limit : MakeLimit where
  blocks := 2 ^ 48 / 200
  blocks_lt := by norm_num

/-- One block in one loop. -/
def singleConfig : ThreadTransConfig where
  loop := 1
  cntPerLoop := 1
  loop_lt := by norm_num
  cntPerLoop_lt := by norm_num

/-- Two blocks in one loop. -/
def pairConfig : ThreadTransConfig where
  loop := 1
  cntPerLoop := 2
  loop_lt := by norm_num
  cntPerLoop_lt := by norm_num

/-- These actors step one after another at some time. -/
def atTime (time : Int) (actors : List (Actor cntProducer cntConsumer)) :
    List (Action cntProducer cntConsumer) :=
  actors.map (⟨·, time⟩)

/-- A producer with a loop to begin comes to the send of its first block. -/
def offerBlock (writer : Fin cntProducer) :
    List (Actor cntProducer cntConsumer) :=
  List.replicate 3 (.producer writer)

/-- The consumer receives the block and counts it. -/
def takeBlock (writer : Fin cntProducer) (reader : Fin cntConsumer) :
    List (Actor cntProducer cntConsumer) :=
  [.block writer reader, .consumer reader, .consumer reader]

/-- A producer that has sent its only block comes to its signal. -/
def finishLoop (writer : Fin cntProducer) :
    List (Actor cntProducer cntConsumer) :=
  List.replicate 4 (.producer writer)

/-- Two consumers are ready and two producers pass them a block each. -/
def pairDelivery (first second left right : Fin 2) : List (Action 2 2) :=
  atTime 0 [.main, .main, .main, .main, .consumer right, .consumer left,
      .consumerSignal right, .consumerSignal left, .main, .main, .main] ++
    atTime 1 (offerBlock first ++ offerBlock second) ++
      atTime 3 (takeBlock first left ++ takeBlock second right)

/-- The only producer hands the block to the only consumer. -/
def deliverRun (writer reader : Fin 1) : List (Action 1 1) :=
  [.main, .main, .main, .consumer reader, .consumerSignal reader, .main,
    .main, .producer writer, .producer writer, .producer writer,
    .block writer reader].map (⟨·, 0⟩)

theorem noDuplication_pair :
    ∃ state : State 2 2,
      (benchmarkWr amd64Limit pairConfig 2 2).Reachable state ∧
        state.sent = [1, 0] ∧ state.sent.Nodup ∧ state.nilsSent ≤ 2 := by
  have initial : (benchmarkWr amd64Limit pairConfig 2 2).initial
      (start 2 2 0) := ⟨0, rfl⟩
  have reachable := (TransitionSystem.Reachable.of_initial initial).execute
    (show (benchmarkWr amd64Limit pairConfig 2 2).execute (start 2 2 0)
      (pairDelivery 0 1 0 1) = some _ from rfl)
  have kept := noDuplication (by decide) (by decide) reachable
  exact ⟨_, reachable, rfl, kept.1, kept.2.2.2.2.1⟩

/-- Main has started the consumers before `i`. -/
def starting (cntProducer cntConsumer i : Nat) :
    State cntProducer cntConsumer :=
  { start cntProducer cntConsumer 0 with
    main := .startConsumers i
    consumer := fun consumerId : Fin cntConsumer =>
      if consumerId < i then ⟨.addReady, 0, 0, []⟩
      else ⟨.notStarted, 0, 0, []⟩ }

/-- The consumers before `n` have their numbers, and the others are about to
get theirs. -/
def numbering (cntProducer cntConsumer n : Nat) :
    State cntProducer cntConsumer :=
  { start cntProducer cntConsumer 0 with
    main := .ready
    consumer := fun consumerId : Fin cntConsumer =>
      if consumerId < n then ⟨.ready, toInt32 (consumerId + 1), 0, []⟩
      else ⟨.addReady, 0, 0, []⟩
    consumerReady := toInt32 n }

theorem reachable_starting (fits : cnt config ≤ limit.blocks) {i : Nat}
    (upTo : i ≤ cntConsumer) :
    (benchmarkWr limit config cntProducer cntConsumer).Reachable
      (starting cntProducer cntConsumer i) := by
  induction i with
  | zero =>
      have initial : (benchmarkWr limit config cntProducer cntConsumer).initial
          (start cntProducer cntConsumer 0) := ⟨0, rfl⟩
      have taken : (benchmarkWr limit config cntProducer cntConsumer).step
          (start cntProducer cntConsumer 0)
          ⟨.main, 0⟩ = some (starting cntProducer cntConsumer 0) := by
        simp only [benchmarkWr, step, mainStep, start, starting, le_refl,
          and_self, if_true, fits, Nat.not_lt_zero, if_false]
      exact (TransitionSystem.Reachable.of_initial initial).step taken
  | succ i induction =>
      have inside : i < cntConsumer := upTo
      have taken : (benchmarkWr limit config cntProducer cntConsumer).step
          (starting cntProducer cntConsumer i)
          ⟨.main, 0⟩ = some (starting cntProducer cntConsumer (i + 1)) := by
        simp only [benchmarkWr, step, mainStep, start, starting, le_refl,
          and_self, if_true, inside, dif_pos, State.setConsumer, lt_irrefl,
          if_false]
        rw [← ThreadFamily.update_lt inside]
      exact (induction inside.le).step taken

theorem reachable_numbering (fits : cnt config ≤ limit.blocks) {n : Nat}
    (upTo : n ≤ cntConsumer) :
    (benchmarkWr limit config cntProducer cntConsumer).Reachable
      (numbering cntProducer cntConsumer n) := by
  induction n with
  | zero =>
      have taken : (benchmarkWr limit config cntProducer cntConsumer).step
          (starting cntProducer cntConsumer cntConsumer)
          ⟨.main, 0⟩ = some (numbering cntProducer cntConsumer 0) := by
        simp [benchmarkWr, step, mainStep, start, starting, numbering, toInt32]
      exact (reachable_starting fits le_rfl).step taken
  | succ n induction =>
      have inside : n < cntConsumer := upTo
      have taken : (benchmarkWr limit config cntProducer cntConsumer).step
          (numbering cntProducer cntConsumer n)
          ⟨.consumer ⟨n, inside⟩, 0⟩ =
            some (numbering cntProducer cntConsumer (n + 1)) := by
        simp only [benchmarkWr, step, consumerStep, start, numbering,
          le_refl, and_self, if_true, State.setConsumer, lt_irrefl, if_false,
          toInt32_toInt32_add]
        rw [← ThreadFamily.update_lt inside]
        rfl
      exact (induction inside.le).step taken

/-- In one state a consumer has received a block it has not counted.  In
another, one of too many consumers has wrapped around to a slot that
`consumer_read_num` does not have. -/
theorem idx_behind_and_slot_negative :
    (∃ state : State 1 1,
      (benchmarkWr amd64Limit singleConfig 1 1).Reachable state ∧
      (state.consumer 0).received = [0] ∧ (state.consumer 0).idx = 0) ∧
    ∃ state : State 1 (2 ^ 31 + 1),
      (benchmarkWr amd64Limit singleConfig 1 (2 ^ 31 + 1)).Reachable state ∧
        ∃ consumerId, (state.consumer consumerId).Numbered ∧
          (state.consumer consumerId).slot < 0 := by
  constructor
  · have initial : (benchmarkWr amd64Limit singleConfig 1 1).initial
        (start 1 1 0) := ⟨0, rfl⟩
    have reachable := (TransitionSystem.Reachable.of_initial initial).execute
      (show (benchmarkWr amd64Limit singleConfig 1 1).execute (start 1 1 0)
        (deliverRun 0 0) = some _ from rfl)
    exact ⟨_, reachable, rfl, rfl⟩
  · have fits : cnt singleConfig ≤ amd64Limit.blocks := by decide
    have reachable : (benchmarkWr amd64Limit singleConfig 1
        (2 ^ 31 + 1)).Reachable (numbering 1 (2 ^ 31 + 1) (2 ^ 31 + 1)) :=
      reachable_numbering fits le_rfl
    have last : (numbering 1 (2 ^ 31 + 1) (2 ^ 31 + 1)).consumer
        ⟨2 ^ 31, by norm_num⟩ = ⟨.ready, toInt32 (2 ^ 31 + 1), 0, []⟩ := by
      simp [numbering]
    refine ⟨_, reachable, ⟨2 ^ 31, by norm_num⟩, ?_⟩
    rw [last]
    constructor
    · simp [Consumer.Numbered]
    · have slot : toInt32 (toInt32 (2 ^ 31 + 1) - 1) = -2 ^ 31 := by decide
      simp only [Consumer.slot, if_true, slot]
      norm_num

end ThreadTransChannel

end LatencyBenchmark
