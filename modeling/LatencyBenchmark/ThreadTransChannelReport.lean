import LatencyBenchmark.ThreadTransChannelRuns
import LatencyBenchmark.ThreadTransChannelSignals

/-!
# What the Go channel benchmark has done at its report

Main leaves the join loop when its consumer counter is full.  While no late
ready signal is counted, every goroutine has completed by then and every block
has arrived.  A ready signal that is taken for a producer's completion lets
main stop the consumers before anything is sent.
-/

namespace LatencyBenchmark

namespace ThreadTransChannel

variable {cntProducer cntConsumer : Nat} {limit : MakeLimit}
variable {config : ThreadTransConfig}
variable {state : State cntProducer cntConsumer}

theorem countsOnly_of_reachableUnder (someProducer : 0 < cntProducer)
    (someConsumer : 0 < cntConsumer)
    (reachable : (benchmarkWr limit config cntProducer
      cntConsumer).ReachableUnder Understood state) : state.CountsOnly := by
  apply reachable.invariant
  · rintro _ ⟨clock, rfl⟩
    trivial
  · intro earlier action next earlierReachable understood taken counts
    have invariant := invariant_of_reachable someProducer someConsumer
      earlierReachable.reachable
    exact countsOnly_step invariant.phases counts understood taken

theorem State.CountsOnly.all_complete (counts : state.CountsOnly)
    (atReport : state.main = .report) :
    (∀ producerId, state.producer producerId = .complete) ∧
      ∀ consumerId, (state.consumer consumerId).point = .complete := by
  unfold State.CountsOnly at counts
  rw [atReport] at counts
  obtain ⟨producers, consumers⟩ := counts
  constructor
  · have all : state.completeProducers = Fintype.card (Fin cntProducer) :=
      le_antisymm ThreadFamily.count_le_card
        ((Fintype.card_fin cntProducer).trans_le producers)
    exact ThreadFamily.count_eq_card_iff.mp all
  · have all : state.completeConsumers = Fintype.card (Fin cntConsumer) :=
      le_antisymm ThreadFamily.count_le_card
        ((Fintype.card_fin cntConsumer).trans_le consumers)
    exact ThreadFamily.count_eq_card_iff.mp all

/-- Complete producers have sent every block of every loop. -/
theorem Traffic.mem_sent_iff_lt (traffic : Traffic config state)
    (someProducer : 0 < cntProducer)
    (complete : ∀ producerId, state.producer producerId = .complete)
    {block : Nat} :
    block ∈ state.sent ↔ block < config.loop * config.cntPerLoop := by
  rw [traffic.mem_sent]
  constructor
  · rintro ⟨producerId, owns, earlier⟩
    have inside := owns.index_lt producerId.isLt
    have positive : 0 < config.cntPerLoop := Nat.zero_lt_of_lt inside
    rw [complete producerId] at earlier
    rcases earlier with earlier | ⟨_, earlier⟩
    · exact (Nat.div_lt_iff_lt_mul positive).mp earlier
    · exact absurd earlier (Nat.not_lt_zero _)
  · intro inside
    have positive : 0 < config.cntPerLoop := by
      rcases Nat.eq_zero_or_pos config.cntPerLoop with none | positive
      · rw [none, Nat.mul_zero] at inside
        exact absurd inside (Nat.not_lt_zero _)
      · exact positive
    obtain ⟨worker, isProducer, owns⟩ :=
      IndexRange.exists_owns someProducer (Nat.mod_lt block positive)
    refine ⟨⟨worker, isProducer⟩, owns, Or.inl ?_⟩
    rw [complete]
    exact (Nat.div_lt_iff_lt_mul positive).mpr inside

theorem Traffic.length_sent (traffic : Traffic config state)
    (someProducer : 0 < cntProducer)
    (complete : ∀ producerId, state.producer producerId = .complete) :
    state.sent.length = config.loop * config.cntPerLoop := by
  have same : state.sent.toFinset =
      Finset.range (config.loop * config.cntPerLoop) := by
    ext block
    rw [List.mem_toFinset, Finset.mem_range]
    exact traffic.mem_sent_iff_lt someProducer complete
  have card := congrArg Finset.card same
  rwa [List.toFinset_card_of_nodup traffic.nodup, Finset.card_range] at card

/-- Complete consumers have stored their counts in all the slots. -/
theorem Slots.sum_consumerReadNum (slots : Slots state)
    (counters : Counters state)
    (complete : ∀ consumerId,
      (state.consumer consumerId).point = .complete) :
    ∑ index, state.consumerReadNum index =
      ∑ consumerId, (state.consumer consumerId).received.length := by
  have stored : ∀ consumerId,
      (state.consumer consumerId).point.Stored := by
    intro consumerId
    rw [complete]
    trivial
  obtain ⟨slotOf, bijective, slotOf_eq⟩ :=
    slots.bijective fun consumerId => (stored consumerId).numbered
  rw [← bijective.sum_comp]
  apply Finset.sum_congr rfl
  intro consumerId _
  have counted := (counters.valid consumerId).counted
  rw [complete] at counted
  rw [slots.stored consumerId (stored consumerId) _ (slotOf_eq consumerId)]
  exact counted

/-- When all goroutines have completed, the consumers' counts add up to the
number of blocks. -/
theorem sum_consumerReadNum_of_complete (someProducer : 0 < cntProducer)
    (someConsumer : 0 < cntConsumer)
    (reachable : (benchmarkWr limit config cntProducer cntConsumer).Reachable
      state)
    (atReport : state.main = .report)
    (producers : ∀ producerId, state.producer producerId = .complete)
    (consumers : ∀ consumerId,
      (state.consumer consumerId).point = .complete) :
    ∑ index, state.consumerReadNum index =
      config.loop * config.cntPerLoop := by
  have invariant := invariant_of_reachable someProducer someConsumer
    reachable
  have few : cntConsumer < 2 ^ 31 := by
    apply invariant.counters.cntConsumer_lt
    rw [atReport]
    trivial
  have slots := slots_of_reachable someProducer someConsumer few.le reachable
  rw [slots.sum_consumerReadNum invariant.counters consumers,
    invariant.traffic.sum_length,
    invariant.traffic.length_sent someProducer producers]

/-- At the report of a run in which main takes no ready signal for a
completion, every block has been received and stamped and the consumers'
counts add up to the number of blocks. -/
theorem noLostBlock_of_report (someProducer : 0 < cntProducer)
    (someConsumer : 0 < cntConsumer)
    (reachable : (benchmarkWr limit config cntProducer
      cntConsumer).ReachableUnder Understood state)
    (atReport : state.main = .report) :
    (∀ block < config.loop * config.cntPerLoop,
      (∃ consumerId, block ∈ (state.consumer consumerId).received) ∧
        ((state.blocks block).ts 0).isSome ∧
        ((state.blocks block).ts 1).isSome ∧
        ((state.blocks block).ts 2).isSome) ∧
      ∑ index, state.consumerReadNum index =
        config.loop * config.cntPerLoop := by
  have invariant := invariant_of_reachable someProducer someConsumer
    reachable.reachable
  have counts := countsOnly_of_reachableUnder someProducer someConsumer
    reachable
  obtain ⟨producers, consumers⟩ := counts.all_complete atReport
  constructor
  · intro block inside
    have mem :=
      (invariant.traffic.mem_sent_iff_lt someProducer producers).mpr inside
    obtain ⟨consumerId, received⟩ :=
      invariant.traffic.mem_sent_iff_received.mp mem
    refine ⟨⟨consumerId, received⟩,
      invariant.stamps.begin_of_sent block mem, ?_, ?_⟩
    · rcases invariant.stamps.end_of_sent block mem with stamped | ending
      · exact stamped
      · obtain ⟨producerId, i, j, point⟩ := ending
        rw [producers] at point
        cases point
    · have stamped :=
        (invariant.stamps.consumer_stamped consumerId).read block received
      rcases stamped with point | stamped
      · rw [consumers] at point
        cases point
      · exact stamped
  · exact sum_consumerReadNum_of_complete someProducer someConsumer
      reachable.reachable atReport producers consumers

/-- After the delivery of the two blocks all goroutines complete. -/
def pairReport (first second left right : Fin 2) : List (Action 2 2) :=
  pairDelivery first second left right ++
    atTime 4 (finishLoop first ++ finishLoop second ++
      [.producerSignal second, .producerSignal first, .nil right, .nil left,
        .main, .consumer left, .consumer right, .consumerSignal left,
        .consumerSignal right])

theorem noLostBlock_of_report_pair :
    ∃ state : State 2 2,
      (benchmarkWr amd64Limit pairConfig 2 2).ReachableUnder Understood state ∧
        state.main = .report ∧
        (∀ block < 2, ∃ consumerId,
          block ∈ (state.consumer consumerId).received) ∧
        ∑ index, state.consumerReadNum index = 2 := by
  have initial : (benchmarkWr amd64Limit pairConfig 2 2).initial
      (start 2 2 0) := ⟨0, rfl⟩
  have reachable :=
    (TransitionSystem.ReachableUnder.of_initial initial).executeUnder
      (show (benchmarkWr amd64Limit pairConfig 2 2).executeUnder Understood
        (start 2 2 0) (pairReport 0 1 0 1) = some _ from rfl)
  have delivered :=
    noLostBlock_of_report (by decide) (by decide) reachable rfl
  exact ⟨_, reachable, rfl, fun block inside => (delivered.1 block inside).1,
    delivered.2⟩

/-- The slow consumer gets number 1 and the fast one, which signals first,
number 2.  Main starts the producer and takes the late ready signal for its
completion. -/
def lateReadyRun (slow fast : Fin 2) : List (Action 1 2) :=
  [.main, .main, .main, .main, .consumer slow, .consumer fast,
    .consumerSignal fast, .main, .main, .consumerSignal slow, .nil slow,
    .nil fast, .main, .consumer slow, .consumer fast, .consumerSignal slow,
    .consumerSignal fast].map (⟨·, 0⟩)

/-- Main reports and no consumer has received the only block. -/
theorem report_without_block :
    ∃ state : State 1 2,
      (benchmarkWr amd64Limit singleConfig 1 2).Reachable state ∧
      state.main = .report ∧
      (∀ consumerId, 0 ∉ (state.consumer consumerId).received) ∧
      (state.blocks 0).ts 0 = none ∧
      ∑ index, state.consumerReadNum index = 0 := by
  have initial : (benchmarkWr amd64Limit singleConfig 1 2).initial
      (start 1 2 0) := ⟨0, rfl⟩
  have reachable := (TransitionSystem.Reachable.of_initial initial).execute
    (show (benchmarkWr amd64Limit singleConfig 1 2).execute (start 1 2 0)
      (lateReadyRun 0 1) = some _ from rfl)
  exact ⟨_, reachable, rfl, by decide, rfl, by decide⟩

end ThreadTransChannel

end LatencyBenchmark
