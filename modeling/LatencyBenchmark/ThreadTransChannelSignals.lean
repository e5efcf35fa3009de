import LatencyBenchmark.ThreadTransChannelPhases

/-!
# What main's counters say

Main counts the values it receives in the join loop.  Every completion adds to
the right counter, so a counter is never below the number of goroutines that
have completed.  It stays at that number as long as no late ready signal looks
like a completion.
-/

namespace LatencyBenchmark

namespace ThreadTransChannel

variable {cntProducer cntConsumer : Nat} {limit : MakeLimit}
variable {config : ThreadTransConfig}
variable {state next : State cntProducer cntConsumer}

def State.completeProducers (state : State cntProducer cntConsumer) : Nat :=
  ThreadFamily.count (· = .complete) state.producer

def State.completeConsumers (state : State cntProducer cntConsumer) : Nat :=
  ThreadFamily.count (fun consumer : Consumer => consumer.point = .complete)
    state.consumer

/-- No completion is missing from the counters. -/
def MainPoint.CountsAll (completeProducers completeConsumers : Nat) :
    MainPoint → Prop
  | .join cntProducerComplete cntConsumerComplete
  | .sendNil _ cntProducerComplete cntConsumerComplete =>
      completeProducers ≤ cntProducerComplete ∧
        completeConsumers ≤ cntConsumerComplete
  | .report => True
  | .make | .startConsumers _ | .ready | .startProducers _ =>
      completeProducers = 0 ∧ completeConsumers = 0

def State.CountsAll (state : State cntProducer cntConsumer) : Prop :=
  state.main.CountsAll state.completeProducers state.completeConsumers

/-- Nothing but completions is in the counters. -/
def MainPoint.CountsOnly (cntProducer cntConsumer : Nat)
    (completeProducers completeConsumers : Nat) : MainPoint → Prop
  | .join cntProducerComplete cntConsumerComplete
  | .sendNil _ cntProducerComplete cntConsumerComplete =>
      cntProducerComplete ≤ completeProducers ∧
        cntConsumerComplete ≤ completeConsumers
  | .report =>
      cntProducer ≤ completeProducers ∧ cntConsumer ≤ completeConsumers
  | .make | .startConsumers _ | .ready | .startProducers _ => True

def State.CountsOnly (state : State cntProducer cntConsumer) : Prop :=
  state.main.CountsOnly cntProducer cntConsumer state.completeProducers
    state.completeConsumers

/-- Main receives in the join loop. -/
def MainPoint.Joining : MainPoint → Prop
  | .join _ _ => True
  | _ => False

instance : DecidablePred MainPoint.Joining
  | .join _ _ => inferInstanceAs (Decidable True)
  | .make | .startConsumers _ | .ready | .startProducers _ | .sendNil _ _ _
  | .report => inferInstanceAs (Decidable False)

/-- Main takes no ready signal of this step for a completion. -/
def Understood (state : State cntProducer cntConsumer)
    (action : Action cntProducer cntConsumer) : Prop :=
  ∀ consumerId, action.actor = .consumerSignal consumerId →
    (state.consumer consumerId).point = .ready → state.main.Joining →
      (state.consumer consumerId).consumerIdx ≠ 1 ∧
        (state.consumer consumerId).consumerIdx ≠ 2

instance (state : State cntProducer cntConsumer)
    (action : Action cntProducer cntConsumer) :
    Decidable (Understood state action) :=
  inferInstanceAs (Decidable (∀ _, _ → _ → _ → _))

theorem completeProducers_of_moved {producerId : Fin cntProducer}
    {point : ProducerPoint}
    (moved : next.producer = Function.update state.producer producerId point)
    (old : state.producer producerId ≠ .complete)
    (new : point ≠ .complete) :
    next.completeProducers = state.completeProducers := by
  unfold State.completeProducers
  rw [moved]
  exact ThreadFamily.count_update_same (iff_of_false new old)

theorem completeConsumers_of_moved {consumerId : Fin cntConsumer}
    {consumer : Consumer}
    (moved : next.consumer =
      Function.update state.consumer consumerId consumer)
    (old : (state.consumer consumerId).point ≠ .complete)
    (new : consumer.point ≠ .complete) :
    next.completeConsumers = state.completeConsumers := by
  unfold State.completeConsumers
  rw [moved]
  exact ThreadFamily.count_update_same (iff_of_false new old)

/-- A producer completes only by its signal. -/
theorem ProducerMove.keepsCounts {producerId : Fin cntProducer}
    (move : ProducerMove config state producerId next) :
    next.main = state.main ∧
      next.completeProducers = state.completeProducers ∧
        next.completeConsumers = state.completeConsumers := by
  cases move with
  | issuePanics point inRange outside => exact ⟨rfl, rfl, rfl⟩
  | nextLoop point | finish point | issue point | endRange point
  | stampBegin point | stampEnd point | wake point =>
      exact ⟨rfl, completeProducers_of_moved rfl (by simp [point]) (by simp),
        rfl⟩

/-- A consumer completes only by its signal. -/
theorem ConsumerMove.keepsCounts {consumerId : Fin cntConsumer}
    (move : ConsumerMove state consumerId next) :
    next.main = state.main ∧
      next.completeProducers = state.completeProducers ∧
        next.completeConsumers = state.completeConsumers := by
  cases move with
  | storePanics point outside => exact ⟨rfl, rfl, rfl⟩
  | addReady point | stamp point | count point | store point =>
      exact ⟨rfl, rfl,
        completeConsumers_of_moved rfl (by simp [point]) (by simp)⟩

/-- Starting a goroutine completes none. -/
theorem MainMove.keepsCounts (phases : Phases limit config state)
    (move : MainMove limit config state next) :
    next.completeProducers = state.completeProducers ∧
      next.completeConsumers = state.completeConsumers := by
  cases move with
  | make | makePanics | startedConsumers | startedProducers | sentNils =>
      exact ⟨rfl, rfl⟩
  | @startConsumer i point inside =>
      have sleeping := phases.consumer_sleeping point inside
      exact ⟨rfl,
        completeConsumers_of_moved rfl (by simp [sleeping]) (by simp)⟩
  | @startProducer i point inside =>
      have sleeping := phases.producer_sleeping point inside
      exact ⟨completeProducers_of_moved rfl (by simp [sleeping]) (by simp),
        rfl⟩

theorem completeProducers_of_block {producerId : Fin cntProducer}
    {i j idx : Nat}
    (moved : next.producer =
      Function.update state.producer producerId (.stampEnd i j idx))
    (sends : state.producer producerId = .send i j idx) :
    next.completeProducers = state.completeProducers :=
  completeProducers_of_moved moved (by simp [sends]) (by simp)

theorem completeConsumers_of_received {consumerId : Fin cntConsumer}
    {consumer : Consumer}
    (moved : next.consumer =
      Function.update state.consumer consumerId consumer)
    (receives : (state.consumer consumerId).point = .receive)
    (new : consumer.point ≠ .complete) :
    next.completeConsumers = state.completeConsumers :=
  completeConsumers_of_moved moved (by simp [receives]) new

theorem completeProducers_of_signal {producerId : Fin cntProducer}
    (moved : next.producer =
      Function.update state.producer producerId .complete)
    (old : state.producer producerId = .signal) :
    next.completeProducers = 1 + state.completeProducers := by
  unfold State.completeProducers
  rw [moved]
  exact ThreadFamily.count_update_gain rfl (by simp [old])

theorem completeConsumers_of_signal {consumerId : Fin cntConsumer}
    {consumer : Consumer}
    (moved : next.consumer =
      Function.update state.consumer consumerId consumer)
    (old : (state.consumer consumerId).point = .signal)
    (new : consumer.point = .complete) :
    next.completeConsumers = 1 + state.completeConsumers := by
  unfold State.completeConsumers
  rw [moved]
  exact ThreadFamily.count_update_gain new (by simp [old])

/-- A consumer's completion signal comes after the ready loop. -/
theorem Phases.not_ready_of_signal (phases : Phases limit config state)
    {consumerId : Fin cntConsumer}
    (sends : (state.consumer consumerId).point = .signal) :
    state.main ≠ .ready := by
  intro atReady
  have gotNil : (state.consumer consumerId).GotNil := by
    simp [Consumer.GotNil, ConsumerPoint.GotNil, sends]
  have sent := phases.nils_sent
  rw [atReady] at sent
  exact phases.nilsSent_ne_zero gotNil sent

/-- A producer's completion signal comes after the ready loop. -/
theorem Phases.not_ready_of_producer (phases : Phases limit config state)
    {producerId : Fin cntProducer}
    (sends : state.producer producerId = .signal) :
    state.main ≠ .ready := by
  intro atReady
  have active := phases.producer_started producerId
  simp [sends, atReady, MainPoint.ProducerStarted] at active

/-- A consumer has its nil only when the producer counter is full. -/
theorem Phases.full_of_signal (phases : Phases limit config state)
    {consumerId : Fin cntConsumer}
    {cntProducerComplete cntConsumerComplete : Nat}
    (point : state.main = .join cntProducerComplete cntConsumerComplete)
    (sends : (state.consumer consumerId).point = .signal) :
    cntProducer ≤ cntProducerComplete := by
  have gotNil : (state.consumer consumerId).GotNil := by
    simp [Consumer.GotNil, ConsumerPoint.GotNil, sends]
  have some := phases.nilsSent_ne_zero gotNil
  have sent := phases.nils_sent
  rw [point] at sent
  simp only [MainPoint.NilsSent] at sent
  omega

section CountsAll

theorem countsAll_start (clock : Int) :
    (start cntProducer cntConsumer clock).CountsAll := by
  constructor
  · apply ThreadFamily.count_eq_zero_iff.mpr
    simp [start]
  · apply ThreadFamily.count_eq_zero_iff.mpr
    simp [start]

theorem MainMove.countsAll (phases : Phases limit config state)
    (counts : state.CountsAll) (move : MainMove limit config state next) :
    next.CountsAll := by
  obtain ⟨producers, consumers⟩ := move.keepsCounts phases
  unfold State.CountsAll at counts ⊢
  rw [producers, consumers]
  cases move with
  | makePanics point tooLong => exact counts
  | startedProducers point done =>
      rw [point] at counts
      exact ⟨counts.1.le, counts.2.le⟩
  | make point | startConsumer point | startedConsumers point
  | startProducer point | sentNils point =>
      rw [point] at counts
      exact counts

/-- A completion that main receives in the join loop is counted. -/
theorem Received.countsAll {tmp : Int} {main after : MainPoint}
    (receives : Received cntProducer cntConsumer tmp main after)
    {producers consumers : Nat} (counts : main.CountsAll producers consumers)
    {newProducers newConsumers : Nat}
    (inReady : main = .ready → newProducers = 0 ∧ newConsumers = 0)
    (one : newProducers ≤ producers + if tmp = 1 then 1 else 0)
    (two : newConsumers ≤ consumers + if tmp = 2 then 1 else 0) :
    after.CountsAll newProducers newConsumers := by
  cases receives with
  | lastReady last | ready notLast => exact inReady rfl
  | lastProducer isOne last | producer isOne notLast =>
      subst isOne
      simp only [MainPoint.CountsAll] at counts ⊢
      norm_num at one two
      omega
  | lastConsumer isTwo last => trivial
  | consumer isTwo notLast =>
      subst isTwo
      simp only [MainPoint.CountsAll] at counts ⊢
      norm_num at one two
      omega
  | ignored notOne notTwo =>
      rw [if_neg notOne] at one
      rw [if_neg notTwo] at two
      simp only [MainPoint.CountsAll] at counts ⊢
      omega

theorem Rendezvous.countsAll (phases : Phases limit config state)
    (counts : state.CountsAll) {actor : Actor cntProducer cntConsumer}
    (move : Rendezvous state actor next) : next.CountsAll := by
  unfold State.CountsAll at counts ⊢
  cases move with
  | @producerSignal producerId main sends receives =>
      have later := phases.not_ready_of_producer sends
      apply receives.countsAll counts
      · exact fun atReady => absurd atReady later
      · rw [completeProducers_of_signal rfl sends, if_pos rfl]
        omega
      · exact Nat.le_add_right _ _
  | readySignal sends receives =>
      apply receives.countsAll counts
      · intro atReady
        rw [atReady] at counts
        refine ⟨counts.1, Eq.trans ?_ counts.2⟩
        exact completeConsumers_of_moved rfl (by simp [sends]) (by simp)
      · exact Nat.le_add_right _ _
      · apply le_trans (Eq.le ?_) (Nat.le_add_right _ _)
        exact completeConsumers_of_moved rfl (by simp [sends]) (by simp)
  | @completeSignal consumerId main sends receives =>
      have later := phases.not_ready_of_signal sends
      apply receives.countsAll counts
      · exact fun atReady => absurd atReady later
      · exact Nat.le_add_right _ _
      · rw [completeConsumers_of_signal rfl sends rfl, if_pos rfl]
        omega
  | block sends receives =>
      rw [completeProducers_of_block rfl sends,
        completeConsumers_of_received rfl receives (by simp)]
      exact counts
  | nil sends inside receives =>
      rw [completeConsumers_of_received rfl receives (by simp)]
      rw [sends] at counts
      exact counts

/-- The counters miss no completion, whatever else main counts. -/
theorem countsAll_step (phases : Phases limit config state)
    (counts : state.CountsAll) {action : Action cntProducer cntConsumer}
    (taken : ThreadTransChannel.step limit config state action = some next) :
    next.CountsAll := by
  have phasesNow : Phases limit config { state with clock := action.time } :=
    phases.congr rfl rfl rfl rfl
  have now : State.CountsAll { state with clock := action.time } := counts
  obtain ⟨_, move⟩ := step_cases taken
  cases move with
  | main move => exact move.countsAll phasesNow now
  | producer move =>
      obtain ⟨main, producers, consumers⟩ := move.keepsCounts
      unfold State.CountsAll
      rw [main, producers, consumers]
      exact now
  | consumer move =>
      obtain ⟨main, producers, consumers⟩ := move.keepsCounts
      unfold State.CountsAll
      rw [main, producers, consumers]
      exact now
  | rendezvous move => exact move.countsAll phasesNow now

end CountsAll

section CountsOnly

theorem MainMove.countsOnly (phases : Phases limit config state)
    (counts : state.CountsOnly) (move : MainMove limit config state next) :
    next.CountsOnly := by
  obtain ⟨producers, consumers⟩ := move.keepsCounts phases
  unfold State.CountsOnly at counts ⊢
  rw [producers, consumers]
  cases move with
  | makePanics point tooLong => exact counts
  | startedProducers point done => exact ⟨Nat.zero_le _, Nat.zero_le _⟩
  | sentNils point done =>
      rw [point] at counts
      exact counts
  | make | startConsumer | startedConsumers | startProducer => trivial

/-- A value that main receives in the join loop counts a completion. -/
theorem Received.countsOnly {tmp : Int} {main after : MainPoint}
    (receives : Received cntProducer cntConsumer tmp main after)
    {producers consumers : Nat}
    (counts : main.CountsOnly cntProducer cntConsumer producers consumers)
    {newProducers newConsumers : Nat}
    (joining : ∀ cntProducerComplete cntConsumerComplete,
      main = .join cntProducerComplete cntConsumerComplete →
        (producers + if tmp = 1 then 1 else 0) ≤ newProducers ∧
          (consumers + if tmp = 2 then 1 else 0) ≤ newConsumers ∧
            (tmp = 2 → cntProducer ≤ cntProducerComplete)) :
    after.CountsOnly cntProducer cntConsumer newProducers newConsumers := by
  cases receives with
  | lastReady last | ready notLast => trivial
  | lastProducer isOne last | producer isOne notLast =>
      obtain ⟨one, two, _⟩ := joining _ _ rfl
      subst isOne
      simp only [MainPoint.CountsOnly] at counts ⊢
      norm_num at one two
      omega
  | lastConsumer isTwo last | consumer isTwo notLast =>
      obtain ⟨one, two, full⟩ := joining _ _ rfl
      have filled := full isTwo
      subst isTwo
      simp only [MainPoint.CountsOnly] at counts ⊢
      norm_num at one two
      omega
  | ignored notOne notTwo =>
      obtain ⟨one, two, _⟩ := joining _ _ rfl
      rw [if_neg notOne] at one
      rw [if_neg notTwo] at two
      simp only [MainPoint.CountsOnly] at counts ⊢
      omega

theorem Rendezvous.countsOnly (phases : Phases limit config state)
    (counts : state.CountsOnly) {actor : Actor cntProducer cntConsumer}
    {time : Int} (understood : Understood state ⟨actor, time⟩)
    (move : Rendezvous state actor next) : next.CountsOnly := by
  unfold State.CountsOnly at counts ⊢
  cases move with
  | producerSignal sends receives =>
      apply receives.countsOnly counts
      intro _ _ _
      refine ⟨?_, le_rfl, fun two => by cases two⟩
      rw [if_pos rfl, Nat.add_comm]
      apply Eq.ge
      exact completeProducers_of_signal rfl sends
  | readySignal sends receives =>
      apply receives.countsOnly counts
      intro _ _ atJoin
      have joining : state.main.Joining := by
        rw [atJoin]
        trivial
      obtain ⟨notOne, notTwo⟩ := understood _ rfl sends joining
      rw [if_neg notOne, if_neg notTwo]
      refine ⟨le_rfl, ?_, fun two => absurd two notTwo⟩
      apply Eq.ge
      exact completeConsumers_of_moved rfl (by simp [sends]) (by simp)
  | completeSignal sends receives =>
      apply receives.countsOnly counts
      intro _ _ atJoin
      refine ⟨le_rfl, ?_, fun _ => phases.full_of_signal atJoin sends⟩
      rw [if_pos rfl, Nat.add_comm]
      apply Eq.ge
      exact completeConsumers_of_signal rfl sends rfl
  | block sends receives =>
      rw [completeProducers_of_block rfl sends,
        completeConsumers_of_received rfl receives (by simp)]
      exact counts
  | nil sends inside receives =>
      rw [completeConsumers_of_received rfl receives (by simp)]
      rw [sends] at counts
      exact counts

/-- The counters hold nothing but completions while main takes no ready
signal for one. -/
theorem countsOnly_step (phases : Phases limit config state)
    (counts : state.CountsOnly) {action : Action cntProducer cntConsumer}
    (understood : Understood state action)
    (taken : ThreadTransChannel.step limit config state action = some next) :
    next.CountsOnly := by
  have phasesNow : Phases limit config { state with clock := action.time } :=
    phases.congr rfl rfl rfl rfl
  have now : State.CountsOnly { state with clock := action.time } := counts
  obtain ⟨_, move⟩ := step_cases taken
  cases move with
  | main move => exact move.countsOnly phasesNow now
  | producer move =>
      obtain ⟨main, producers, consumers⟩ := move.keepsCounts
      unfold State.CountsOnly
      rw [main, producers, consumers]
      exact now
  | consumer move =>
      obtain ⟨main, producers, consumers⟩ := move.keepsCounts
      unfold State.CountsOnly
      rw [main, producers, consumers]
      exact now
  | rendezvous move =>
      have taken : Understood { state with clock := action.time }
          ⟨action.actor, action.time⟩ := understood
      exact move.countsOnly phasesNow now taken

end CountsOnly

end ThreadTransChannel

end LatencyBenchmark
