import LatencyBenchmark.ProducerProgress
import Mathlib.Data.Fintype.Card

/-!
# Message ids in 32-bit arithmetic

The record count, the messages of a producer, its offset and the ids are each
computed in wrapping `int` arithmetic, while the loops run over the true
numbers of rounds and records.  Every id finds a slot of its own exactly when
the true number of messages fits an `int`: when it does not, there are more
messages than slots, even if the wrapped record count is positive.
-/

namespace LatencyBenchmark

namespace ThreadTrans

variable {config : LatencyBenchmarkConfig}

/-- A message that a producer's loops reach. -/
structure MessageIndex (config : LatencyBenchmarkConfig) where
  producerId : Fin config.producer.toNat
  round : Fin config.totalRounds.toNat
  i : Fin config.recordPerRound.toNat
  deriving DecidableEq

/-- The id its producer computes for a message. -/
def MessageIndex.id (message : MessageIndex config) : Int :=
  messageId config message.producerId message.round message.i

/-- The ids are slots of the record arrays and different messages have
different ones. -/
structure OwnSlots (config : LatencyBenchmarkConfig) : Prop where
  in_range : ∀ message : MessageIndex config,
    0 ≤ message.id ∧ message.id < recordCount config
  injective : ∀ first second : MessageIndex config,
    first.id = second.id → first = second

/-- A configuration of positive `int`s for which the constructor and the
allocation of the messages succeed. -/
structure Constructible (config : LatencyBenchmarkConfig) : Prop where
  rounds : 1 ≤ config.totalRounds
  records : 1 ≤ config.recordPerRound
  producers : 1 ≤ config.producer
  positive : 0 < recordCount config

/-- The record count, the ids and the number of messages do not depend on the
consumers or the capacity. -/
theorem Constructible.admissible (constructible : Constructible config)
    (fits : config.totalRounds * config.recordPerRound * config.producer <
      2 ^ 31) :
    Admissible { config with consumer := 1, capacity := 1 } where
  rounds := constructible.rounds
  records := constructible.records
  producers := Int.le_of_lt constructible.producers
  consumers := le_refl 1
  capacity := le_refl 1
  fits := fits

/-- Without overflow the id is the message's position among all messages. -/
theorem Constructible.id_eq (constructible : Constructible config)
    (fits : config.totalRounds * config.recordPerRound * config.producer <
      2 ^ 31) (message : MessageIndex config) :
    message.id = (message.producerId * perProducer config +
      (message.round * config.recordPerRound.toNat + message.i) : Nat) :=
  (constructible.admissible fits).messageId_eq message.producerId.isLt
    message.round.isLt message.i.isLt

/-- Without overflow every message has a slot of its own. -/
theorem Constructible.ownSlots (constructible : Constructible config)
    (fits : config.totalRounds * config.recordPerRound * config.producer <
      2 ^ 31) : OwnSlots config where
  in_range := by
    intro message
    have inside := id_lt_messageCount message.producerId.isLt
      (index_lt_perProducer message.round.isLt message.i.isLt)
    have count : recordCount config = messageCount config :=
      (constructible.admissible fits).recordCount_eq
    rw [constructible.id_eq fits, count]
    constructor
    · exact Int.natCast_nonneg _
    · exact_mod_cast inside
  injective := by
    intro first second same
    rw [constructible.id_eq fits, constructible.id_eq fits,
      Nat.cast_inj] at same
    obtain ⟨producers, rest⟩ := digits_unique
      (index_lt_perProducer first.round.isLt first.i.isLt)
      (index_lt_perProducer second.round.isLt second.i.isLt) same
    obtain ⟨rounds, records⟩ :=
      digits_unique first.i.isLt second.i.isLt rest
    obtain ⟨producerId, round, i⟩ := first
    obtain ⟨otherProducer, otherRound, otherI⟩ := second
    cases Fin.ext producers
    cases Fin.ext rounds
    cases Fin.ext records
    rfl

/-- With a slot of its own for every message there are no more messages than
slots. -/
theorem OwnSlots.card_le (ownSlots : OwnSlots config) :
    messageCount config ≤ (recordCount config).toNat := by
  let slot : Fin config.producer.toNat × Fin config.totalRounds.toNat ×
      Fin config.recordPerRound.toNat → Fin (recordCount config).toNat :=
    fun index =>
      ⟨(MessageIndex.mk index.1 index.2.1 index.2.2).id.toNat, by
        have inside := ownSlots.in_range ⟨index.1, index.2.1, index.2.2⟩
        omega⟩
  have injective : Function.Injective slot := by
    rintro ⟨producerId, round, i⟩ ⟨otherProducer, otherRound, otherI⟩ same
    have inside := ownSlots.in_range ⟨producerId, round, i⟩
    have otherInside :=
      ownSlots.in_range ⟨otherProducer, otherRound, otherI⟩
    have sameSlot :
        (⟨producerId, round, i⟩ : MessageIndex config).id.toNat =
          (⟨otherProducer, otherRound, otherI⟩ :
            MessageIndex config).id.toNat := Fin.mk.inj same
    have sameId : (⟨producerId, round, i⟩ : MessageIndex config).id =
        (⟨otherProducer, otherRound, otherI⟩ : MessageIndex config).id := by
      omega
    cases ownSlots.injective _ _ sameId
    rfl
  have cards := Fintype.card_le_of_injective slot injective
  simp only [Fintype.card_prod, Fintype.card_fin] at cards
  exact cards

/-- **Message ids.**  For every configuration that can be constructed each
message has a slot of its own if and only if the number of messages fits an
`int`. -/
theorem ownSlots_iff_fits (constructible : Constructible config) :
    OwnSlots config ↔
      config.totalRounds * config.recordPerRound * config.producer <
        2 ^ 31 := by
  constructor
  · intro ownSlots
    have cards := ownSlots.card_le
    have slots : recordCount config < 2 ^ 31 := toInt32_lt _
    have positive := constructible.positive
    have rounds := Int.toNat_of_nonneg
      (Int.le_of_lt constructible.rounds)
    have records := Int.toNat_of_nonneg
      (Int.le_of_lt constructible.records)
    have producers := Int.toNat_of_nonneg
      (Int.le_of_lt constructible.producers)
    have count : (messageCount config : Int) =
        config.totalRounds * config.recordPerRound * config.producer := by
      unfold messageCount perProducer
      push_cast
      rw [rounds, records, producers]
      ring
    omega
  · exact constructible.ownSlots

theorem ownSlots_iff_fits_default :
    OwnSlots {} ↔ (100 : Int) * 10 * 1 < 2 ^ 31 :=
  ownSlots_iff_fits ⟨by decide, by decide, by decide, by decide⟩

/-- 65536 rounds of 65537 records: the record count wraps to 65536, and the
first message of the second round has id 65537. -/
theorem wrapped_count_loses_slots :
    Constructible { totalRounds := 65536, recordPerRound := 65537 } ∧
      recordCount { totalRounds := 65536, recordPerRound := 65537 } = 65536 ∧
      messageId { totalRounds := 65536, recordPerRound := 65537 } 0 1 0 =
        65537 ∧
      ¬OwnSlots { totalRounds := 65536, recordPerRound := 65537 } := by
  refine ⟨⟨by decide, by decide, by decide, by decide⟩, by decide, by decide,
    ?_⟩
  intro ownSlots
  have inside := ownSlots.in_range ⟨⟨0, by decide⟩, ⟨1, by decide⟩,
    ⟨0, by decide⟩⟩
  exact absurd inside.2 (by decide)

end ThreadTrans

end LatencyBenchmark
