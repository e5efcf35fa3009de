import LatencyBenchmark.ThreadTransChannelRuns
import LatencyBenchmark.ThreadTransChannelSignals

/-!
# Ready signals of the Go channel benchmark

The ready loop ends with the signal of the last number, not with the last
signal, so other consumers may still have theirs to send.  Main never receives
one of those while it sends its nils.
-/

namespace LatencyBenchmark

namespace ThreadTransChannel

variable {cntProducer cntConsumer : Nat} {limit : MakeLimit}
variable {config : ThreadTransConfig}
variable {state next : State cntProducer cntConsumer}

/-- How a step of an actor changes a consumer's standing with the ready
loop. -/
structure Continues (actor : Actor cntProducer cntConsumer)
    (consumerId : Fin cntConsumer) (before after : Consumer) : Prop where
  slot : before.Numbered → after.slot = before.slot
  signalled : before.point.SignalledReady → after.point.SignalledReady
  of_signalled : after.point.SignalledReady → before.point.SignalledReady ∨
    actor = .consumerSignal consumerId ∧ before.point = .ready

section Continues

variable {actor : Actor cntProducer cntConsumer}

theorem Continues.refl (consumerId : Fin cntConsumer) (consumer : Consumer) :
    Continues actor consumerId consumer consumer :=
  ⟨fun _ => rfl, id, Or.inl⟩

/-- A consumer that stays on its side of the ready signal. -/
theorem Continues.of_iff {consumerId : Fin cntConsumer}
    {before after : Consumer}
    (slot : before.Numbered → after.slot = before.slot)
    (same : after.point.SignalledReady ↔ before.point.SignalledReady) :
    Continues actor consumerId before after :=
  ⟨slot, same.mpr, fun signalled => Or.inl (same.mp signalled)⟩

/-- Only the consumer that moves has to be looked at. -/
theorem continues_of_moved {mover : Fin cntConsumer} {consumer : Consumer}
    (moved : next.consumer = Function.update state.consumer mover consumer)
    (continues : Continues actor mover (state.consumer mover) consumer)
    (consumerId : Fin cntConsumer) :
    Continues actor consumerId (state.consumer consumerId)
      (next.consumer consumerId) := by
  rw [moved]
  exact ThreadFamily.forall_update
    (fun other member =>
      Continues actor other (state.consumer other) member)
    (fun other => .refl other _) continues consumerId

theorem MainMove.continues (phases : Phases limit config state)
    (move : MainMove limit config state next) (consumerId : Fin cntConsumer) :
    Continues actor consumerId (state.consumer consumerId)
      (next.consumer consumerId) := by
  cases move with
  | startConsumer point inside =>
      have sleeping := phases.consumer_sleeping point inside
      refine continues_of_moved rfl (.of_iff ?_ ?_) consumerId
      · simp [Consumer.Numbered, sleeping]
      · simp [ConsumerPoint.SignalledReady, sleeping]
  | make | makePanics | startedConsumers | startProducer
  | startedProducers | sentNils => exact .refl _ _

theorem ConsumerMove.continues {mover : Fin cntConsumer}
    (move : ConsumerMove state mover next) (consumerId : Fin cntConsumer) :
    Continues actor consumerId (state.consumer consumerId)
      (next.consumer consumerId) := by
  cases move with
  | addReady point =>
      refine continues_of_moved rfl (.of_iff ?_ ?_) consumerId
      · simp [Consumer.Numbered, point]
      · simp [ConsumerPoint.SignalledReady, point]
  | stamp point | count point | store point inside =>
      refine continues_of_moved rfl (.of_iff ?_ ?_) consumerId
      · simp [Consumer.slot, point]
      · simp [ConsumerPoint.SignalledReady, point]
  | storePanics point outside => exact .refl _ _

theorem Rendezvous.continues (move : Rendezvous state actor next)
    (consumerId : Fin cntConsumer) :
    Continues actor consumerId (state.consumer consumerId)
      (next.consumer consumerId) := by
  cases move with
  | producerSignal sends receives => exact .refl _ _
  | readySignal sends receives =>
      refine continues_of_moved rfl ⟨?_, ?_, ?_⟩ consumerId
      · simp [Consumer.slot, sends]
      · intro _
        trivial
      · intro _
        exact Or.inr ⟨rfl, sends⟩
  | completeSignal point _ | block _ point | nil _ _ point =>
      refine continues_of_moved rfl (.of_iff ?_ ?_) consumerId
      · simp [Consumer.slot, point]
      · simp [ConsumerPoint.SignalledReady, point]

end Continues

/-- A consumer keeps its slot and, once signalled, stays signalled. -/
theorem continues_step (phases : Phases limit config state)
    {action : Action cntProducer cntConsumer}
    (taken : ThreadTransChannel.step limit config state action = some next)
    (consumerId : Fin cntConsumer) :
    Continues action.actor consumerId (state.consumer consumerId)
      (next.consumer consumerId) := by
  have now : Phases limit config { state with clock := action.time } :=
    phases.congr rfl rfl rfl rfl
  obtain ⟨_, move⟩ := step_cases taken
  cases move with
  | main move => exact move.continues now consumerId
  | producer move => cases move <;> exact .refl _ _
  | consumer move => exact move.continues consumerId
  | rendezvous move => exact move.continues consumerId

theorem ConsumerPoint.SignalledReady.numbered {consumer : Consumer}
    (signalled : consumer.point.SignalledReady) : consumer.Numbered := by
  constructor
  · intro point
    rw [point] at signalled
    exact signalled
  · intro point
    rw [point] at signalled
    exact signalled

theorem Received.leftReadyLoop {tmp : Int} {main after : MainPoint}
    (receives : Received cntProducer cntConsumer tmp main after)
    (left : main.LeftReadyLoop) : after.LeftReadyLoop := by
  cases receives with
  | lastReady | ready => exact left.elim
  | lastProducer | producer | lastConsumer | consumer | ignored => trivial

theorem Rendezvous.leftReadyLoop {actor : Actor cntProducer cntConsumer}
    (move : Rendezvous state actor next) (left : state.main.LeftReadyLoop) :
    next.main.LeftReadyLoop := by
  cases move with
  | producerSignal _ receives | readySignal _ receives
  | completeSignal _ receives => exact receives.leftReadyLoop left
  | block => exact left
  | nil => trivial

/-- Main does not come back to the ready loop. -/
theorem leftReadyLoop_step {action : Action cntProducer cntConsumer}
    (taken : ThreadTransChannel.step limit config state action = some next)
    (left : state.main.LeftReadyLoop) : next.main.LeftReadyLoop := by
  obtain ⟨_, move⟩ := step_cases taken
  cases move with
  | main move =>
      cases move with
      | make point | startConsumer point | startedConsumers point =>
          have atStart : state.main = _ := point
          rw [atStart] at left
          exact left.elim
      | makePanics => exact left
      | startProducer | startedProducers | sentNils => trivial
  | producer move =>
      rw [move.keepsCounts.1]
      exact left
  | consumer move =>
      rw [move.keepsCounts.1]
      exact left
  | rendezvous move => exact move.leftReadyLoop left

/-- The value of a ready signal is what main receives. -/
theorem received_of_readySignal {action : Action cntProducer cntConsumer}
    (taken : ThreadTransChannel.step limit config state action = some next)
    {consumerId : Fin cntConsumer}
    (sends : action.actor = .consumerSignal consumerId)
    (ready : (state.consumer consumerId).point = .ready) :
    Received cntProducer cntConsumer (state.consumer consumerId).consumerIdx
      state.main next.main := by
  unfold ThreadTransChannel.step at taken
  split at taken
  · dsimp only at taken
    rw [sends] at taken
    cases Rendezvous.of_consumerSignalStep taken with
    | readySignal _ receives => exact receives
    | completeSignal point _ =>
        have point : (state.consumer consumerId).point = .signal := point
        rw [ready] at point
        cases point
  · cases taken

/-- A ready signal carries the number of the slot. -/
theorem Slots.readySignal_eq (slots : Slots state)
    (few : cntConsumer < 2 ^ 31) {consumerId : Fin cntConsumer}
    (ready : (state.consumer consumerId).point = .ready) :
    (state.consumer consumerId).consumerIdx =
      (state.consumer consumerId).slot + 1 := by
  have numbered : (state.consumer consumerId).Numbered := by
    simp [Consumer.Numbered, ready]
  have bounds := slots.slot_bounds consumerId numbered
  have most := state.numbered_le
  rw [slots.ready_idx consumerId ready]
  exact toInt32_eq_self (by omega) (by omega)

/-- While main is in the ready loop it has not seen the last number. -/
def WaitsForLast (state : State cntProducer cntConsumer) : Prop :=
  ¬state.main.LeftReadyLoop → ∀ consumerId,
    (state.consumer consumerId).point.SignalledReady →
      (state.consumer consumerId).slot + 1 ≠ cntConsumer

theorem waitsForLast_step (phases : Phases limit config state)
    (slots : Slots state)
    (few : cntConsumer < 2 ^ 31) (waits : WaitsForLast state)
    {action : Action cntProducer cntConsumer}
    (taken : ThreadTransChannel.step limit config state action = some next) :
    WaitsForLast next := by
  intro waiting consumerId signalled
  have continues := continues_step phases taken consumerId
  have before : ¬state.main.LeftReadyLoop :=
    fun left => waiting (leftReadyLoop_step taken left)
  rcases continues.of_signalled signalled with already | ⟨sends, ready⟩
  · rw [continues.slot already.numbered]
    exact waits before consumerId already
  · have numbered : (state.consumer consumerId).Numbered := by
      simp [Consumer.Numbered, ready]
    rw [continues.slot numbered, ← slots.readySignal_eq few ready]
    have receives := received_of_readySignal taken sends ready
    generalize (state.consumer consumerId).consumerIdx = tmp at receives
    generalize state.main = main at receives before
    generalize next.main = after at receives waiting
    cases receives with
    | lastReady | lastProducer | producer | lastConsumer | consumer
    | ignored => exact absurd trivial waiting
    | ready notLast => exact notLast

/-- Every consumer has signalled ready only when the last number has been
seen. -/
theorem WaitsForLast.leftReadyLoop (waits : WaitsForLast state)
    (slots : Slots state) (someConsumer : 0 < cntConsumer)
    (signalled : ∀ consumerId,
      (state.consumer consumerId).point.SignalledReady) :
    state.main.LeftReadyLoop := by
  by_contra waiting
  obtain ⟨slotOf, bijective, slotOf_eq⟩ :=
    slots.bijective fun consumerId => (signalled consumerId).numbered
  obtain ⟨last, isLast⟩ :=
    bijective.surjective ⟨cntConsumer - 1, by omega⟩
  apply waits waiting last (signalled last)
  rw [← slotOf_eq last, isLast]
  simp only
  omega

/-- Main is in the loop around `c <- nil`. -/
def MainPoint.SendingNils : MainPoint → Prop
  | .sendNil _ _ _ => True
  | _ => False

/-- One more 1 and main sends its nils. -/
def MainPoint.AwaitsLastProducer (cntProducer : Nat) : MainPoint → Prop
  | .join cntProducerComplete _ => cntProducerComplete + 1 = cntProducer
  | _ => False

instance : DecidablePred (MainPoint.AwaitsLastProducer cntProducer)
  | .join cntProducerComplete _ =>
      inferInstanceAs (Decidable (cntProducerComplete + 1 = cntProducer))
  | .make | .startConsumers _ | .ready | .startProducers _ | .sendNil _ _ _
  | .report => inferInstanceAs (Decidable False)

/-- When main receives the 1 that makes it send its nils, every consumer but
the sender has passed its ready send. -/
def NilsFindReceivers (state : State cntProducer cntConsumer)
    (action : Action cntProducer cntConsumer) : Prop :=
  state.main.AwaitsLastProducer cntProducer →
    (∀ producerId, action.actor = .producerSignal producerId →
      ∀ consumerId, (state.consumer consumerId).point.SignalledReady) ∧
    ∀ sender, action.actor = .consumerSignal sender →
      (state.consumer sender).point = .ready →
        (state.consumer sender).consumerIdx = 1 →
          ∀ consumerId, consumerId ≠ sender →
            (state.consumer consumerId).point.SignalledReady

instance (state : State cntProducer cntConsumer)
    (action : Action cntProducer cntConsumer) :
    Decidable (NilsFindReceivers state action) :=
  inferInstanceAs (Decidable (_ → (∀ _, _ → ∀ _, _) ∧
    ∀ _, _ → _ → _ → ∀ _, _ → _))

/-- No consumer is left behind when main sends nils. -/
def AllSignalled (state : State cntProducer cntConsumer) : Prop :=
  state.main.SendingNils → ∀ consumerId,
    (state.consumer consumerId).point.SignalledReady

theorem Received.lastProducer_of_sendingNils {tmp : Int}
    {main after : MainPoint}
    (receives : Received cntProducer cntConsumer tmp main after)
    (sending : after.SendingNils) :
    tmp = 1 ∧ main.AwaitsLastProducer cntProducer := by
  cases receives with
  | lastProducer one last => exact ⟨one, last⟩
  | lastReady | ready | producer | lastConsumer | consumer | ignored =>
      exact sending.elim

theorem Rendezvous.allSignalled {actor : Actor cntProducer cntConsumer}
    {time : Int} (signalled : AllSignalled state)
    (allowed : NilsFindReceivers state ⟨actor, time⟩)
    (move : Rendezvous state actor next) : AllSignalled next := by
  intro sending consumerId
  have continues := move.continues consumerId
  cases move with
  | producerSignal sends receives =>
      have last := (receives.lastProducer_of_sendingNils sending).2
      exact continues.signalled ((allowed last).1 _ rfl consumerId)
  | @readySignal sender _ sends receives =>
      obtain ⟨one, last⟩ := receives.lastProducer_of_sendingNils sending
      by_cases isSender : consumerId = sender
      · subst isSender
        simp [State.setConsumer, ConsumerPoint.SignalledReady]
      · exact continues.signalled
          ((allowed last).2 sender rfl sends one consumerId isSender)
  | completeSignal sends receives =>
      cases (receives.lastProducer_of_sendingNils sending).1
  | block => exact continues.signalled (signalled sending consumerId)
  | nil sends =>
      apply continues.signalled
      apply signalled
      rw [sends]
      trivial

theorem MainMove.allSignalled
    (signalled : AllSignalled state) (move : MainMove limit config state next) :
    AllSignalled next := by
  intro sending consumerId
  cases move with
  | makePanics => exact signalled sending consumerId
  | make | startConsumer | startedConsumers | startProducer
  | startedProducers | sentNils => exact sending.elim

/-- The condition keeps every consumer within reach of its nil. -/
theorem allSignalled_step (phases : Phases limit config state)
    (signalled : AllSignalled state)
    {action : Action cntProducer cntConsumer}
    (allowed : NilsFindReceivers state action)
    (taken : ThreadTransChannel.step limit config state action = some next) :
    AllSignalled next := by
  have now : AllSignalled { state with clock := action.time } := signalled
  have continues := continues_step phases taken
  obtain ⟨_, move⟩ := step_cases taken
  cases move with
  | main move => exact move.allSignalled now
  | producer move =>
      intro sending consumerId
      rw [move.keepsCounts.1] at sending
      exact (continues consumerId).signalled (signalled sending consumerId)
  | consumer move =>
      intro sending consumerId
      rw [move.keepsCounts.1] at sending
      exact (continues consumerId).signalled (signalled sending consumerId)
  | rendezvous move =>
      have allowedNow : NilsFindReceivers { state with clock := action.time }
          ⟨action.actor, action.time⟩ := allowed
      exact move.allSignalled now allowedNow

end ThreadTransChannel

end LatencyBenchmark
