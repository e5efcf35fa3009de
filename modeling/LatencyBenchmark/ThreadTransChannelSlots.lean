import LatencyBenchmark.ThreadTransChannelConsumers

/-!
# Slots of `consumer_read_num`

`atomic.AddInt32` gives the consumers consecutive numbers, so while these fit
an `int32` every consumer has a slot of its own and its total stays there.
-/

namespace LatencyBenchmark

namespace ThreadTransChannel

variable {cntProducer cntConsumer : Nat} {limit : MakeLimit}
variable {config : ThreadTransConfig}
variable {state next : State cntProducer cntConsumer}

/-- How many consumers have obtained a number. -/
def State.numbered (state : State cntProducer cntConsumer) : Nat :=
  ThreadFamily.count Consumer.Numbered state.consumer

/-- The consumer has stored its count. -/
def ConsumerPoint.Stored : ConsumerPoint → Prop
  | .signal | .complete => True
  | _ => False

/-- The numbers given out are those below the number of consumers that have
one. -/
structure Slots (state : State cntProducer cntConsumer) : Prop where
  counter : state.consumerReady = toInt32 state.numbered
  slot_bounds : ∀ consumerId, (state.consumer consumerId).Numbered →
    0 ≤ (state.consumer consumerId).slot ∧
      (state.consumer consumerId).slot < state.numbered
  ready_idx : ∀ consumerId, (state.consumer consumerId).point = .ready →
    (state.consumer consumerId).consumerIdx =
      toInt32 ((state.consumer consumerId).slot + 1)
  distinct : ∀ consumerId other, (state.consumer consumerId).Numbered →
    (state.consumer other).Numbered →
      (state.consumer consumerId).slot = (state.consumer other).slot →
        consumerId = other
  stored : ∀ consumerId, (state.consumer consumerId).point.Stored →
    ∀ index : Fin cntConsumer,
      (index : Int) = (state.consumer consumerId).slot →
        state.consumerReadNum index = (state.consumer consumerId).idx

theorem State.numbered_le (state : State cntProducer cntConsumer) :
    state.numbered ≤ cntConsumer :=
  ThreadFamily.count_le_card.trans_eq (Fintype.card_fin cntConsumer)

theorem ConsumerPoint.Stored.numbered {consumer : Consumer}
    (stored : consumer.point.Stored) : consumer.Numbered := by
  constructor
  · intro point
    rw [point] at stored
    exact stored.elim
  · intro point
    rw [point] at stored
    exact stored.elim

theorem slots_start (clock : Int) :
    Slots (start cntProducer cntConsumer clock) where
  counter := by
    have none : (start cntProducer cntConsumer clock).numbered = 0 := by
      apply ThreadFamily.count_eq_zero_iff.mpr
      simp [start, Consumer.Numbered]
    rw [none]
    rfl
  slot_bounds := by simp [start, Consumer.Numbered]
  ready_idx := by simp [start]
  distinct := by simp [start, Consumer.Numbered]
  stored := by simp [start, ConsumerPoint.Stored]

theorem Slots.congr (slots : Slots state)
    (consumer : next.consumer = state.consumer)
    (consumerReady : next.consumerReady = state.consumerReady)
    (consumerReadNum : next.consumerReadNum = state.consumerReadNum) :
    Slots next := by
  obtain ⟨counter, bounds, ready, distinct, stored⟩ := slots
  unfold State.numbered at counter bounds
  rw [← consumer] at counter bounds ready distinct stored
  rw [← consumerReady] at counter
  rw [← consumerReadNum] at stored
  exact ⟨counter, bounds, ready, distinct, stored⟩

/-- A consumer that keeps its number keeps the slots.  Its own slot is checked
once it has stored, and the others' must not be overwritten. -/
theorem Slots.updateConsumer (slots : Slots state)
    {consumerId : Fin cntConsumer} {consumer : Consumer}
    (moved : next.consumer =
      Function.update state.consumer consumerId consumer)
    (numbered : consumer.Numbered ↔ (state.consumer consumerId).Numbered)
    (slot : consumer.slot = (state.consumer consumerId).slot)
    (notReady : consumer.point ≠ .ready)
    (stored : consumer.point.Stored → ∀ index : Fin cntConsumer,
      (index : Int) = consumer.slot →
        next.consumerReadNum index = consumer.idx)
    (consumerReady : next.consumerReady = state.consumerReady)
    (others : ∀ other, other ≠ consumerId →
      (state.consumer other).point.Stored → ∀ index : Fin cntConsumer,
        (index : Int) = (state.consumer other).slot →
          next.consumerReadNum index = state.consumerReadNum index) :
    Slots next := by
  have same : next.numbered = state.numbered := by
    unfold State.numbered
    rw [moved]
    exact ThreadFamily.count_update_same numbered
  have old : ∀ other,
      ((next.consumer other).Numbered ↔ (state.consumer other).Numbered) ∧
        (next.consumer other).slot = (state.consumer other).slot := by
    rw [moved]
    exact ThreadFamily.forall_update
      (fun other (member : Consumer) =>
        (member.Numbered ↔ (state.consumer other).Numbered) ∧
          member.slot = (state.consumer other).slot)
      (fun _ => ⟨Iff.rfl, rfl⟩) ⟨numbered, slot⟩
  constructor
  · rw [consumerReady, same]
    exact slots.counter
  · intro other hasNumber
    rw [(old other).2, same]
    exact slots.slot_bounds other ((old other).1.mp hasNumber)
  · rw [moved]
    exact ThreadFamily.forall_update
      (fun _ (member : Consumer) => member.point = .ready →
        member.consumerIdx = toInt32 (member.slot + 1))
      slots.ready_idx (fun point => absurd point notReady)
  · intro first second firstNumber secondNumber equal
    rw [(old first).2, (old second).2] at equal
    exact slots.distinct first second ((old first).1.mp firstNumber)
      ((old second).1.mp secondNumber) equal
  · intro other hasStored index atSlot
    rw [moved] at hasStored atSlot ⊢
    by_cases isMover : other = consumerId
    · subst isMover
      rw [Function.update_self] at hasStored atSlot ⊢
      exact stored hasStored index atSlot
    · rw [Function.update_of_ne isMover] at hasStored atSlot ⊢
      rw [others other isMover hasStored index atSlot]
      exact slots.stored other hasStored index atSlot

/-- The next number is the next free slot. -/
theorem Slots.addReady (slots : Slots state) (few : cntConsumer ≤ 2 ^ 31)
    {consumerId : Fin cntConsumer} {consumer : Consumer}
    (old : (state.consumer consumerId).point = .addReady)
    (moved : next.consumer =
      Function.update state.consumer consumerId consumer)
    (new : consumer.point = .ready)
    (number : consumer.consumerIdx = toInt32 (state.consumerReady + 1))
    (consumerReady : next.consumerReady = toInt32 (state.consumerReady + 1))
    (consumerReadNum : next.consumerReadNum = state.consumerReadNum) :
    Slots next := by
  have notYet : ¬(state.consumer consumerId).Numbered := by
    simp [Consumer.Numbered, old]
  have hasNumber : consumer.Numbered := by
    simp [Consumer.Numbered, new]
  have more : next.numbered = 1 + state.numbered := by
    unfold State.numbered
    rw [moved]
    exact ThreadFamily.count_update_gain hasNumber notYet
  have bound := next.numbered_le
  have slot : consumer.slot = state.numbered := by
    unfold Consumer.slot
    rw [if_pos new, number, slots.counter, toInt32_toInt32_add,
      toInt32_toInt32_sub, Int.add_sub_cancel]
    exact toInt32_eq_self (by omega) (by omega)
  have earlier : ∀ other, other ≠ consumerId →
      next.consumer other = state.consumer other := by
    intro other different
    rw [moved, Function.update_of_ne different]
  have mover : next.consumer consumerId = consumer := by
    rw [moved, Function.update_self]
  constructor
  · rw [consumerReady, slots.counter, toInt32_toInt32_add, more]
    congr 1
    omega
  · intro other otherNumber
    by_cases isMover : other = consumerId
    · rw [isMover, mover, slot, more]
      omega
    · rw [earlier other isMover] at otherNumber ⊢
      have bounds := slots.slot_bounds other otherNumber
      rw [more]
      omega
  · intro other point
    by_cases isMover : other = consumerId
    · rw [isMover, mover, slot, number, slots.counter, toInt32_toInt32_add]
    · rw [earlier other isMover] at point ⊢
      exact slots.ready_idx other point
  · intro first second firstNumber secondNumber equal
    by_cases firstMoves : first = consumerId
    · by_cases secondMoves : second = consumerId
      · rw [firstMoves, secondMoves]
      · rw [earlier second secondMoves] at secondNumber equal
        rw [firstMoves, mover, slot] at equal
        have bounds := slots.slot_bounds second secondNumber
        omega
    · rw [earlier first firstMoves] at firstNumber equal
      by_cases secondMoves : second = consumerId
      · rw [secondMoves, mover, slot] at equal
        have bounds := slots.slot_bounds first firstNumber
        omega
      · rw [earlier second secondMoves] at secondNumber equal
        exact slots.distinct first second firstNumber secondNumber equal
  · intro other hasStored index atSlot
    have isOther : other ≠ consumerId := by
      intro same
      rw [same, mover, new] at hasStored
      exact hasStored.elim
    rw [earlier other isOther] at hasStored atSlot ⊢
    rw [consumerReadNum]
    exact slots.stored other hasStored index atSlot

/-- Storing to one's own slot leaves the others' slots alone. -/
theorem Slots.store (slots : Slots state) {consumerId : Fin cntConsumer}
    (point : (state.consumer consumerId).point = .store)
    (inside : (state.consumer consumerId).consumerIdx.toNat < cntConsumer ∧
      0 ≤ (state.consumer consumerId).consumerIdx) :
    Slots { state.setConsumer consumerId
        { state.consumer consumerId with point := .signal } with
      consumerReadNum := Function.update state.consumerReadNum
        ⟨(state.consumer consumerId).consumerIdx.toNat, inside.1⟩
        (state.consumer consumerId).idx } := by
  have ownSlot : (state.consumer consumerId).slot =
      (state.consumer consumerId).consumerIdx := by
    simp [Consumer.slot, point]
  have hasNumber : (state.consumer consumerId).Numbered := by
    simp [Consumer.Numbered, point]
  refine slots.updateConsumer rfl ?_ ?_ (by simp) ?_ rfl ?_
  · simp [Consumer.Numbered, point]
  · simp [Consumer.slot, point]
  · intro _ index atSlot
    have same : index =
        ⟨(state.consumer consumerId).consumerIdx.toNat, inside.1⟩ := by
      apply Fin.ext
      simp only [Consumer.slot, reduceCtorEq, if_false] at atSlot
      exact (Int.toNat_natCast _).symm.trans (congrArg Int.toNat atSlot)
    rw [same]
    exact Function.update_self ..
  · intro other different hasStored index atSlot
    apply Function.update_of_ne
    intro same
    apply different
    apply slots.distinct other consumerId hasStored.numbered hasNumber
    rw [← atSlot, ownSlot, same]
    exact Int.toNat_of_nonneg inside.2

theorem Slots.consumerMove (slots : Slots state)
    (few : cntConsumer ≤ 2 ^ 31) {consumerId : Fin cntConsumer}
    (move : ConsumerMove state consumerId next) : Slots next := by
  cases move with
  | addReady point => exact slots.addReady few point rfl rfl rfl rfl rfl
  | stamp point | count point =>
      refine slots.updateConsumer rfl ?_ ?_ (by simp) False.elim rfl
        (fun _ _ _ _ _ => rfl)
      · simp [Consumer.Numbered, point]
      · simp [Consumer.slot, point]
  | store point inside => exact slots.store point inside
  | storePanics point outside => exact slots.congr rfl rfl rfl

theorem Slots.mainMove (slots : Slots state)
    (phases : Phases limit config state)
    (move : MainMove limit config state next) : Slots next := by
  cases move with
  | @startConsumer i point inside =>
      have sleeping := phases.consumer_sleeping point inside
      refine slots.updateConsumer rfl ?_ ?_ (by simp) False.elim rfl
        (fun _ _ _ _ _ => rfl)
      · simp [Consumer.Numbered, sleeping]
      · simp [Consumer.slot, sleeping]
  | make point fits | makePanics point tooLong | startedConsumers point done
  | startProducer point inside | startedProducers point done
  | sentNils point done => exact slots.congr rfl rfl rfl

theorem Slots.rendezvous (slots : Slots state)
    {actor : Actor cntProducer cntConsumer}
    (move : Rendezvous state actor next) : Slots next := by
  cases move with
  | producerSignal sends receives => exact slots.congr rfl rfl rfl
  | readySignal point _ | block _ point | nil _ _ point =>
      refine slots.updateConsumer rfl ?_ ?_ (by simp) False.elim rfl
        (fun _ _ _ _ _ => rfl)
      · simp [Consumer.Numbered, point]
      · simp [Consumer.slot, point]
  | @completeSignal consumerId _ sends receives =>
      have slot : (state.consumer consumerId).slot =
          (state.consumer consumerId).consumerIdx := by
        simp [Consumer.slot, sends]
      refine slots.updateConsumer rfl ?_ ?_ (by simp) ?_ rfl
        (fun _ _ _ _ _ => rfl)
      · simp [Consumer.Numbered, sends]
      · simp [Consumer.slot, sends]
      · intro _ index atSlot
        have hasStored : (state.consumer consumerId).point.Stored := by
          simp [sends, ConsumerPoint.Stored]
        apply slots.stored consumerId hasStored index
        rw [slot]
        simpa [Consumer.slot] using atSlot

/-- Every step keeps the slots. -/
theorem Slots.step (slots : Slots state) (few : cntConsumer ≤ 2 ^ 31)
    (phases : Phases limit config state)
    {action : Action cntProducer cntConsumer}
    (taken : ThreadTransChannel.step limit config state action = some next) :
    Slots next := by
  have now : Slots { state with clock := action.time } :=
    slots.congr rfl rfl rfl
  have phasesNow : Phases limit config { state with clock := action.time } :=
    phases.congr rfl rfl rfl rfl
  obtain ⟨_, move⟩ := step_cases taken
  cases move with
  | main move => exact now.mainMove phasesNow move
  | producer move => cases move <;> exact now.congr rfl rfl rfl
  | consumer move => exact now.consumerMove few move
  | rendezvous move => exact now.rendezvous move

/-- The slots of consumers that all have a number are all the slots. -/
theorem Slots.bijective (slots : Slots state)
    (numbered : ∀ consumerId, (state.consumer consumerId).Numbered) :
    ∃ slotOf : Fin cntConsumer → Fin cntConsumer,
      Function.Bijective slotOf ∧ ∀ consumerId,
        (slotOf consumerId : Int) = (state.consumer consumerId).slot := by
  have inside : ∀ consumerId, ∃ index : Fin cntConsumer,
      (index : Int) = (state.consumer consumerId).slot := by
    intro consumerId
    have bounds := slots.slot_bounds consumerId (numbered consumerId)
    have most := state.numbered_le
    refine ⟨⟨(state.consumer consumerId).slot.toNat, by omega⟩, ?_⟩
    exact Int.toNat_of_nonneg bounds.1
  choose slotOf slotOf_eq using inside
  refine ⟨slotOf, ?_, slotOf_eq⟩
  apply Finite.injective_iff_bijective.mp
  intro first second same
  apply slots.distinct first second (numbered first) (numbered second)
  rw [← slotOf_eq, ← slotOf_eq, same]

end ThreadTransChannel

end LatencyBenchmark
