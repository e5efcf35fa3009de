import LatencyBenchmark.ThreadFamily
import LatencyBenchmark.TransitionSystem
import LatencyBenchmark.WsRecorder

/-!
# Concurrent calls of `OnRead`

The hub of the Go server may call `OnRead` for different peers from different
goroutines.  The bound check, the store and the increment of `Idx` are
separate statements and nothing locks the service, so calls that interleave
there share a slot or run past the end of `Elapsed`.  Calls that keep apart
at these statements record one sample each.
-/

namespace LatencyBenchmark

namespace WsServiceRace

/-- The statement at which the call of a peer's `OnRead` stands. -/
inductive CallPoint (Payload : Type) where
  /-- No call. -/
  | outside
  /-- At `if this.Idx > this.MaxLen-1`. -/
  | entered (message : Payload)
  /-- At `ts := time.Now()`. -/
  | checked (message : Payload)
  /-- At `var block lc.TimestampBlock`. -/
  | timed (ts : Timespec) (message : Payload)
  /-- At `json.Unmarshal(message, &block)`. -/
  | declared (ts : Timespec) (message : Payload)
  /-- At `elapsed := ...`. -/
  | decoded (ts : Timespec) (block : TimestampBlock)
  /-- At `this.Elapsed[this.Idx] = elapsed`. -/
  | computed (elapsed : Int)
  /-- At `this.Idx++`. -/
  | stored

namespace CallPoint

variable {Payload : Type}

def IsEntered : CallPoint Payload → Prop
  | .entered _ => True
  | _ => False

/-- The call has passed the bound check and not yet incremented `Idx`. -/
def IsInside : CallPoint Payload → Prop
  | .outside => False
  | .entered _ => False
  | _ => True

def IsStored : CallPoint Payload → Prop
  | .stored => True
  | _ => False

instance : DecidablePred (IsEntered : CallPoint Payload → Prop)
  | .entered _ => inferInstanceAs (Decidable True)
  | .outside | .checked _ | .timed _ _ | .declared _ _ | .decoded _ _
  | .computed _ | .stored => inferInstanceAs (Decidable False)

instance : DecidablePred (IsInside : CallPoint Payload → Prop)
  | .outside | .entered _ => inferInstanceAs (Decidable False)
  | .checked _ | .timed _ _ | .declared _ _ | .decoded _ _ | .computed _
  | .stored => inferInstanceAs (Decidable True)

instance : DecidablePred (IsStored : CallPoint Payload → Prop)
  | .stored => inferInstanceAs (Decidable True)
  | .outside | .entered _ | .checked _ | .timed _ _ | .declared _ _
  | .decoded _ _ | .computed _ => inferInstanceAs (Decidable False)

end CallPoint

structure State (Peer Payload : Type) where
  service : SampleBuffer
  point : Peer → CallPoint Payload
  /-- A goroutine indexed outside `Elapsed`, which ends the process. -/
  panicked : Bool
  /-- The number of calls of `OnRead` so far. -/
  started : Nat
  /-- The slots stored to, one for each store. -/
  stores : List Int

inductive Action (Peer Payload : Type) where
  /-- The hub calls `OnRead` for a peer. -/
  | call (peer : Peer) (message : Payload)
  /-- The call of a peer executes its next statement, at some time. -/
  | run (peer : Peer) (now : Timespec)

variable {Peer Payload : Type} [DecidableEq Peer]

def State.moveTo (state : State Peer Payload) (peer : Peer)
    (point : CallPoint Payload) : State Peer Payload :=
  { state with point := Function.update state.point peer point }

/-- One statement of `OnRead`. -/
def runStatement (unmarshal : Payload → TimestampBlock)
    (state : State Peer Payload) (peer : Peer) (now : Timespec) :
    Option (State Peer Payload) :=
  match state.point peer with
  | .outside => none
  | .entered message =>
      if state.service.IsFull then some (state.moveTo peer .outside)
      else some (state.moveTo peer (.checked message))
  | .checked message => some (state.moveTo peer (.timed now message))
  | .timed ts message => some (state.moveTo peer (.declared ts message))
  | .declared ts message =>
      some (state.moveTo peer (.decoded ts (unmarshal message)))
  | .decoded ts block =>
      some (state.moveTo peer (.computed (WsService.elapsed ts block)))
  | .computed elapsed =>
      match state.service.store elapsed with
      | none => some { state with panicked := true }
      | some service =>
          some { state.moveTo peer .stored with
            service := service
            stores := state.stores ++ [state.service.idx] }
  | .stored =>
      some { state.moveTo peer .outside with
        service := state.service.advance }

def step (unmarshal : Payload → TimestampBlock) (state : State Peer Payload)
    (action : Action Peer Payload) : Option (State Peer Payload) :=
  if state.panicked = true then
    none
  else
    match action with
    | .call peer message =>
        match state.point peer with
        | .outside =>
            some { state.moveTo peer (.entered message) with
              started := state.started + 1 }
        | _ => none
    | .run peer now => runStatement unmarshal state peer now

/-- The service before the first call. -/
def start (maxLen : Nat) : State Peer Payload where
  service := FillBuffer.empty 0 maxLen
  point := fun _ => .outside
  panicked := false
  started := 0
  stores := []

def system (unmarshal : Payload → TimestampBlock) (maxLen : Nat) :
    TransitionSystem (State Peer Payload) (Action Peer Payload) where
  initial := fun state => state = start maxLen
  step := step unmarshal

/-- A call that runs without interruption does what `OnRead` does. -/
theorem execute_call_eq_onRead (unmarshal : Payload → TimestampBlock)
    (maxLen : Nat) {state : State Peer Payload} {peer : Peer}
    (alive : state.panicked = false) (outside : state.point peer = .outside)
    (message : Payload) (now : Timespec) :
    ((system unmarshal maxLen).execute state (.call peer message ::
        List.replicate (if state.service.IsFull then 1 else 7)
          (.run peer now))).map State.service =
      WsService.onRead unmarshal state.service (now, message) := by
  unfold WsService.onRead FillBuffer.put
  by_cases full : state.service.IsFull
  · rw [if_pos full, if_pos full]
    simp [TransitionSystem.execute, system, step, runStatement,
      State.moveTo, alive, outside, full]
  · rw [if_neg full, if_neg full]
    dsimp only
    cases wrote : state.service.store
        (WsService.elapsed now (unmarshal message)) with
    | none =>
        simp [TransitionSystem.execute, system, step, runStatement,
          State.moveTo, alive, outside, full, wrote]
    | some service =>
        simp [TransitionSystem.execute, system, step, runStatement,
          State.moveTo, alive, outside, full, wrote]

section Separation

variable [Fintype Peer]

/-- The number of calls between their bound check and their increment. -/
def State.insideCount (state : State Peer Payload) : Nat :=
  ThreadFamily.count CallPoint.IsInside state.point

/-- A call passes the bound check only if there is a slot left for it beside
those of the calls already inside, and stores only while no other call is
between its store and its increment. -/
def KeepsApart (state : State Peer Payload) : CallPoint Payload → Prop
  | .entered _ => ¬ state.service.IsFull →
      state.service.idx + state.insideCount < state.service.maxLen
  | .computed _ => ∀ other, ¬ (state.point other).IsStored
  | .outside | .checked _ | .timed _ _ | .declared _ _ | .decoded _ _
  | .stored => True

instance (state : State Peer Payload) : DecidablePred (KeepsApart state)
  | .entered _ => inferInstanceAs (Decidable (¬ _ → _ < _))
  | .computed _ =>
      inferInstanceAs (Decidable (∀ other, ¬ (state.point other).IsStored))
  | .outside | .checked _ | .timed _ _ | .declared _ _ | .decoded _ _
  | .stored => inferInstanceAs (Decidable True)

/-- Every statement of a call is executed when it keeps apart. -/
def Separated (state : State Peer Payload) : Action Peer Payload → Prop
  | .call _ _ => True
  | .run peer _ => KeepsApart state (state.point peer)

instance (state : State Peer Payload) : DecidablePred (Separated state)
  | .call _ _ => inferInstanceAs (Decidable True)
  | .run peer _ =>
      inferInstanceAs (Decidable (KeepsApart state (state.point peer)))

end Separation

/-! ## What a step does -/

/-- The kinds of steps. -/
inductive Moves (state : State Peer Payload) :
    Action Peer Payload → State Peer Payload → Prop
  | called {peer : Peer} {message : Payload}
      (was : state.point peer = .outside) :
      Moves state (.call peer message)
        { state.moveTo peer (.entered message) with
          started := state.started + 1 }
  | returned {peer : Peer} {now : Timespec} {message : Payload}
      (was : state.point peer = .entered message)
      (full : state.service.IsFull) :
      Moves state (.run peer now) (state.moveTo peer .outside)
  | passed {peer : Peer} {now : Timespec} {message : Payload}
      (was : state.point peer = .entered message)
      (room : ¬ state.service.IsFull) :
      Moves state (.run peer now) (state.moveTo peer (.checked message))
  | computing {peer : Peer} {now : Timespec} {point : CallPoint Payload}
      (wasInside : (state.point peer).IsInside)
      (notStored : ¬ (state.point peer).IsStored)
      (inside : point.IsInside) (stillNot : ¬ point.IsStored) :
      Moves state (.run peer now) (state.moveTo peer point)
  | stored {peer : Peer} {now : Timespec} {elapsed : Int}
      {service : SampleBuffer} (was : state.point peer = .computed elapsed)
      (wrote : state.service.store elapsed = some service) :
      Moves state (.run peer now)
        { state.moveTo peer .stored with
          service := service
          stores := state.stores ++ [state.service.idx] }
  | panicked {peer : Peer} {now : Timespec} {elapsed : Int}
      (was : state.point peer = .computed elapsed)
      (outside : state.service.store elapsed = none) :
      Moves state (.run peer now) { state with panicked := true }
  | advanced {peer : Peer} {now : Timespec}
      (was : state.point peer = .stored) :
      Moves state (.run peer now)
        { state.moveTo peer .outside with service := state.service.advance }

variable {unmarshal : Payload → TimestampBlock} {maxLen : Nat}
  {state next : State Peer Payload} {action : Action Peer Payload}

theorem moves_of_runStatement {peer : Peer} {now : Timespec}
    (taken : runStatement unmarshal state peer now = some next) :
    Moves state (.run peer now) next := by
  unfold runStatement at taken
  cases point : state.point peer with
  | outside =>
      rw [point] at taken
      cases taken
  | entered message =>
      simp only [point] at taken
      split at taken
      · next full =>
          rw [← Option.some.inj taken]
          exact .returned point full
      · next room =>
          rw [← Option.some.inj taken]
          exact .passed point room
  | checked message =>
      simp only [point] at taken
      rw [← Option.some.inj taken]
      exact .computing (point ▸ trivial) (point ▸ id) trivial id
  | timed ts message =>
      simp only [point] at taken
      rw [← Option.some.inj taken]
      exact .computing (point ▸ trivial) (point ▸ id) trivial id
  | declared ts message =>
      simp only [point] at taken
      rw [← Option.some.inj taken]
      exact .computing (point ▸ trivial) (point ▸ id) trivial id
  | decoded ts block =>
      simp only [point] at taken
      rw [← Option.some.inj taken]
      exact .computing (point ▸ trivial) (point ▸ id) trivial id
  | computed elapsed =>
      simp only [point] at taken
      cases wrote : state.service.store elapsed with
      | none =>
          simp only [wrote] at taken
          rw [← Option.some.inj taken]
          exact .panicked point wrote
      | some service =>
          simp only [wrote] at taken
          rw [← Option.some.inj taken]
          exact .stored point wrote
  | stored =>
      simp only [point] at taken
      rw [← Option.some.inj taken]
      exact .advanced point

theorem moves_of_step (taken : step unmarshal state action = some next) :
    Moves state action next := by
  unfold step at taken
  split at taken
  · cases taken
  · cases action with
    | call peer message =>
        dsimp only at taken
        split at taken
        · next point =>
            rw [← Option.some.inj taken]
            exact .called point
        · cases taken
    | run peer now => exact moves_of_runStatement taken

/-! ## Calls that keep apart -/

variable [Fintype Peer]

/-- The number of calls at their bound check. -/
def State.enteredCount (state : State Peer Payload) : Nat :=
  ThreadFamily.count CallPoint.IsEntered state.point

/-- The number of calls between their store and their increment. -/
def State.storedCount (state : State Peer Payload) : Nat :=
  ThreadFamily.count CallPoint.IsStored state.point

/-- The first slots are stored to in order, there is a slot for each call
inside, and calls have been turned away only once all slots were taken. -/
structure Orderly (maxLen : Nat) (state : State Peer Payload) : Prop where
  alive : state.panicked = false
  maxLen_eq : state.service.maxLen = maxLen
  length_slots : state.service.slots.length = maxLen
  idx_nonneg : 0 ≤ state.service.idx
  room : state.service.idx + state.insideCount ≤ maxLen
  storedCount_le : state.storedCount ≤ 1
  stores_eq : state.stores =
    (List.range (state.service.idx.toNat + state.storedCount)).map Nat.cast
  calls : (state.started : Int) =
      state.service.idx + state.insideCount + state.enteredCount ∨
    (state.service.idx = maxLen ∧
      state.service.idx + state.insideCount + state.enteredCount ≤
        state.started)

omit [DecidableEq Peer] in
/-- A full service has no call inside and all its slots taken. -/
theorem Orderly.idx_eq_of_full (orderly : Orderly maxLen state)
    (full : state.service.IsFull) :
    state.service.idx = maxLen ∧ state.insideCount = 0 := by
  have room := orderly.room
  unfold FillBuffer.IsFull at full
  rw [orderly.maxLen_eq] at full
  omega

omit [DecidableEq Peer] in
/-- A call at its store finds its slot inside the array. -/
theorem Orderly.store_eq_some (orderly : Orderly maxLen state) {peer : Peer}
    (inside : (state.point peer).IsInside) (elapsed : Int) :
    state.service.store elapsed = some { state.service with
      slots := state.service.slots.set state.service.idx.toNat elapsed } := by
  have counted : 0 < state.insideCount := ThreadFamily.count_pos inside
  have room := orderly.room
  apply FillBuffer.store_eq_some elapsed orderly.idx_nonneg
  rw [orderly.length_slots]
  omega

section Moved

variable {peer : Peer} {point : CallPoint Payload}

/-- A new call. -/
theorem Orderly.called (orderly : Orderly maxLen state) {message : Payload}
    (was : state.point peer = .outside) :
    Orderly maxLen { state.moveTo peer (.entered message) with
      started := state.started + 1 } := by
  have inside : (state.moveTo peer (.entered message)).insideCount =
      state.insideCount :=
    ThreadFamily.count_update_same (by rw [was]; exact Iff.rfl)
  have stored : (state.moveTo peer (.entered message)).storedCount =
      state.storedCount :=
    ThreadFamily.count_update_same (by rw [was]; exact Iff.rfl)
  have entered : (state.moveTo peer (.entered message)).enteredCount =
      1 + state.enteredCount :=
    ThreadFamily.count_update_gain trivial (by rw [was]; exact id)
  have calls := orderly.calls
  exact { orderly with
    room := inside ▸ orderly.room
    storedCount_le := stored ▸ orderly.storedCount_le
    stores_eq := stored ▸ orderly.stores_eq
    calls := by
      change ((state.started + 1 : Nat) : Int) = state.service.idx +
          (state.moveTo peer (.entered message)).insideCount +
            (state.moveTo peer (.entered message)).enteredCount ∨
        (state.service.idx = maxLen ∧ state.service.idx +
          (state.moveTo peer (.entered message)).insideCount +
            (state.moveTo peer (.entered message)).enteredCount ≤
              ((state.started + 1 : Nat) : Int))
      omega }

/-- A call turned away by the bound check. -/
theorem Orderly.returned (orderly : Orderly maxLen state) {message : Payload}
    (was : state.point peer = .entered message)
    (full : state.service.IsFull) :
    Orderly maxLen (state.moveTo peer .outside) := by
  have inside : (state.moveTo peer .outside).insideCount =
      state.insideCount :=
    ThreadFamily.count_update_same (by rw [was]; exact Iff.rfl)
  have stored : (state.moveTo peer .outside).storedCount =
      state.storedCount :=
    ThreadFamily.count_update_same (by rw [was]; exact Iff.rfl)
  have entered : 1 + (state.moveTo peer .outside).enteredCount =
      state.enteredCount :=
    ThreadFamily.count_update_lose id (by rw [was]; trivial)
  have calls := orderly.calls
  have taken := orderly.idx_eq_of_full full
  exact { orderly with
    room := inside ▸ orderly.room
    storedCount_le := stored ▸ orderly.storedCount_le
    stores_eq := stored ▸ orderly.stores_eq
    calls := by
      change (state.started : Int) = state.service.idx +
          (state.moveTo peer .outside).insideCount +
            (state.moveTo peer .outside).enteredCount ∨
        (state.service.idx = maxLen ∧ state.service.idx +
          (state.moveTo peer .outside).insideCount +
            (state.moveTo peer .outside).enteredCount ≤ state.started)
      omega }

/-- A call that passes the bound check while there is a slot for it. -/
theorem Orderly.passed (orderly : Orderly maxLen state) {message : Payload}
    (was : state.point peer = .entered message)
    (slotLeft : state.service.idx + state.insideCount < maxLen) :
    Orderly maxLen (state.moveTo peer (.checked message)) := by
  have inside : (state.moveTo peer (.checked message)).insideCount =
      1 + state.insideCount :=
    ThreadFamily.count_update_gain trivial (by rw [was]; exact id)
  have stored : (state.moveTo peer (.checked message)).storedCount =
      state.storedCount :=
    ThreadFamily.count_update_same (by rw [was]; exact Iff.rfl)
  have entered : 1 + (state.moveTo peer (.checked message)).enteredCount =
      state.enteredCount :=
    ThreadFamily.count_update_lose id (by rw [was]; trivial)
  have calls := orderly.calls
  exact { orderly with
    room := by
      change state.service.idx +
        (state.moveTo peer (.checked message)).insideCount ≤ (maxLen : Int)
      omega
    storedCount_le := stored ▸ orderly.storedCount_le
    stores_eq := stored ▸ orderly.stores_eq
    calls := by
      change (state.started : Int) = state.service.idx +
          (state.moveTo peer (.checked message)).insideCount +
            (state.moveTo peer (.checked message)).enteredCount ∨
        (state.service.idx = maxLen ∧ state.service.idx +
          (state.moveTo peer (.checked message)).insideCount +
            (state.moveTo peer (.checked message)).enteredCount ≤
              state.started)
      omega }

/-- A statement that touches local variables only. -/
theorem Orderly.computing (orderly : Orderly maxLen state)
    (wasInside : (state.point peer).IsInside)
    (notStored : ¬ (state.point peer).IsStored)
    (inside : point.IsInside) (stillNot : ¬ point.IsStored) :
    Orderly maxLen (state.moveTo peer point) := by
  have notEntered {point : CallPoint Payload} (inside : point.IsInside) :
      ¬ point.IsEntered := by
    cases point with
    | entered message => exact inside.elim
    | outside | checked | timed | declared | decoded | computed
    | stored => exact id
  have sameInside : (state.moveTo peer point).insideCount =
      state.insideCount :=
    ThreadFamily.count_update_same (iff_of_true inside wasInside)
  have sameStored : (state.moveTo peer point).storedCount =
      state.storedCount :=
    ThreadFamily.count_update_same (iff_of_false stillNot notStored)
  have sameEntered : (state.moveTo peer point).enteredCount =
      state.enteredCount :=
    ThreadFamily.count_update_same
      (iff_of_false (notEntered inside) (notEntered wasInside))
  exact { orderly with
    room := sameInside ▸ orderly.room
    storedCount_le := sameStored ▸ orderly.storedCount_le
    stores_eq := sameStored ▸ orderly.stores_eq
    calls := by
      rw [sameInside, sameEntered]
      exact orderly.calls }

/-- A call that stores while no other one stands before its increment. -/
theorem Orderly.stored (orderly : Orderly maxLen state) {elapsed : Int}
    (was : state.point peer = .computed elapsed)
    (alone : ∀ other, ¬ (state.point other).IsStored) :
    Orderly maxLen { state.moveTo peer .stored with
      service := { state.service with
        slots := state.service.slots.set state.service.idx.toNat elapsed }
      stores := state.stores ++ [state.service.idx] } := by
  have inside : (state.moveTo peer .stored).insideCount =
      state.insideCount :=
    ThreadFamily.count_update_same (by rw [was]; exact Iff.rfl)
  have noneStored : state.storedCount = 0 :=
    ThreadFamily.count_eq_zero_iff.mpr alone
  have stored : (state.moveTo peer .stored).storedCount =
      1 + state.storedCount :=
    ThreadFamily.count_update_gain trivial (alone peer)
  have entered : (state.moveTo peer .stored).enteredCount =
      state.enteredCount :=
    ThreadFamily.count_update_same (by rw [was]; exact Iff.rfl)
  have nonneg := orderly.idx_nonneg
  exact { orderly with
    length_slots := by
      rw [List.length_set]
      exact orderly.length_slots
    room := inside ▸ orderly.room
    storedCount_le := by
      change (state.moveTo peer .stored).storedCount ≤ 1
      omega
    stores_eq := by
      change state.stores ++ [state.service.idx] =
        (List.range (state.service.idx.toNat +
          (state.moveTo peer .stored).storedCount)).map Nat.cast
      rw [stored, noneStored, orderly.stores_eq, noneStored, Nat.add_zero,
        Nat.add_zero, List.range_succ, List.map_append, List.map_singleton,
        Int.toNat_of_nonneg nonneg]
    calls := inside ▸ entered ▸ orderly.calls }

/-- A call that increments `Idx` leaves its slot taken. -/
theorem Orderly.advanced (orderly : Orderly maxLen state)
    (was : state.point peer = .stored) :
    Orderly maxLen { state.moveTo peer .outside with
      service := state.service.advance } := by
  have inside : 1 + (state.moveTo peer .outside).insideCount =
      state.insideCount :=
    ThreadFamily.count_update_lose id (by rw [was]; trivial)
  have stored : 1 + (state.moveTo peer .outside).storedCount =
      state.storedCount :=
    ThreadFamily.count_update_lose id (by rw [was]; trivial)
  have entered : (state.moveTo peer .outside).enteredCount =
      state.enteredCount :=
    ThreadFamily.count_update_same (by rw [was]; exact Iff.rfl)
  have calls := orderly.calls
  have room := orderly.room
  have nonneg := orderly.idx_nonneg
  have single := orderly.storedCount_le
  exact { orderly with
    idx_nonneg := by
      change 0 ≤ state.service.idx + 1
      omega
    room := by
      change state.service.idx + 1 +
        (state.moveTo peer .outside).insideCount ≤ (maxLen : Int)
      omega
    storedCount_le := by
      change (state.moveTo peer .outside).storedCount ≤ 1
      omega
    stores_eq := by
      change state.stores = (List.range ((state.service.idx + 1).toNat +
        (state.moveTo peer .outside).storedCount)).map Nat.cast
      rw [orderly.stores_eq]
      congr 2
      omega
    calls := by
      change (state.started : Int) = state.service.idx + 1 +
          (state.moveTo peer .outside).insideCount +
            (state.moveTo peer .outside).enteredCount ∨
        (state.service.idx + 1 = maxLen ∧ state.service.idx + 1 +
          (state.moveTo peer .outside).insideCount +
            (state.moveTo peer .outside).enteredCount ≤ state.started)
      omega }

end Moved

theorem Orderly.step (orderly : Orderly maxLen state)
    (separated : Separated state action)
    (taken : WsServiceRace.step unmarshal state action = some next) :
    Orderly maxLen next := by
  cases moves_of_step taken with
  | called was => exact orderly.called was
  | returned was full => exact orderly.returned was full
  | passed was room =>
      simp only [Separated, KeepsApart, was] at separated
      have slotLeft := separated room
      rw [orderly.maxLen_eq] at slotLeft
      exact orderly.passed was slotLeft
  | computing wasInside notStored inside stillNot =>
      exact orderly.computing wasInside notStored inside stillNot
  | @stored peer _ _ _ was wrote =>
      simp only [Separated, KeepsApart, was] at separated
      have inside : (state.point peer).IsInside := by
        rw [was]
        trivial
      rw [orderly.store_eq_some inside] at wrote
      rw [← Option.some.inj wrote]
      exact orderly.stored was separated
  | @panicked peer _ _ was outside =>
      have inside : (state.point peer).IsInside := by
        rw [was]
        trivial
      rw [orderly.store_eq_some inside] at outside
      cases outside
  | advanced was => exact orderly.advanced was

/-- A number of statements of a peer's call, at one time. -/
def statements (count : Nat) (peer : Fin 2) : List (Action (Fin 2) Message) :=
  List.replicate count (.run peer ⟨1700000001, 7⟩)

end WsServiceRace

end LatencyBenchmark
