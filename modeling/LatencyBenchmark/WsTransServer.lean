import LatencyBenchmark.EventFilter
import LatencyBenchmark.WsDisconnect

/-!
# Rejected connections of the C++ server

`onConnection` closes a connection that asks for another URL than the
configured one.  The callbacks after it do not look at the connection they
are called for: a message is recorded whoever sent it, and the first
disconnection, also of a closed connection, writes the report and ends the
process.
-/

namespace LatencyBenchmark

namespace WsTransServer

/-- A connection and the URL it asked for. -/
structure Connection where
  id : Nat
  url : String
  deriving DecidableEq, Repr

/-- The callbacks of the hub, with the time at which a message is handled. -/
inductive Event where
  | connection (ws : Connection)
  | message (ws : Connection) (arrival : Timespec × Message)
  | disconnection (ws : Connection)

def Event.ws : Event → Connection
  | .connection ws => ws
  | .message ws _ => ws
  | .disconnection ws => ws

/-- What the server does to its sockets. -/
inductive SocketCall where
  | send (ws : Connection)
  | close (ws : Connection)
  deriving DecidableEq, Repr

structure Server where
  handle : SampleBuffer
  /-- `ws_`. -/
  ws : Option Connection
  calls : List SocketCall
  /-- The samples of the report that was written. -/
  report : Option (List Int)
  running : Bool

/-- `run` before the first event. -/
def start (config : WsConfig) : Server where
  handle := WsHandle.new config
  ws := none
  calls := []
  report := none
  running := true

/-- `WsHandle::onConnection`. -/
def onConnection (config : WsConfig) (server : Server) (ws : Connection) :
    Server :=
  if ws.url ≠ config.url then
    { server with calls := server.calls ++ [.close ws] }
  else
    { server with ws := some ws }

/-- The loops of `run` that send `loop * cnt_per_loop` messages and close the
connection. -/
def sendMessages (config : WsConfig) (server : Server) (ws : Connection) :
    Server :=
  { server with
    calls := server.calls ++
      List.replicate (config.loop.toNat * config.cntPerLoop.toNat) (.send ws)
        ++ [.close ws] }

/-- One callback of a running process; `opened` tells whether the report file
can be opened. -/
def handleEvent (config : WsConfig) (opened : Bool) (server : Server) :
    Event → Server
  | .connection ws =>
      let connected := onConnection config server ws
      if WsHandle.HasDirection config "stc" then
        sendMessages config connected ws
      else
        connected
  | .message _ arrival =>
      match WsHandle.onMessage server.handle arrival with
      | none => { server with running := false }
      | some handle => { server with handle := handle }
  | .disconnection _ =>
      -- `onDisconnection`, then `exit(0)`.
      let written :=
        if WsHandle.HasDirection config "cts" then
          if opened then some server.handle.contents else none
        else
          server.report
      { server with report := written, running := false }

/-- A callback reaches the process only while it runs. -/
def onEvent (config : WsConfig) (opened : Bool) (server : Server)
    (event : Event) : Server :=
  if server.running = true then handleEvent config opened server event
  else server

/-- What can be seen of the server: the recorded samples, the samples of the
report, if one was written, and whether the process is still there. -/
def observe (server : Server) : List Int × Option (List Int) × Bool :=
  (server.handle.contents, server.report, server.running)

/-- The events of accepted connections. -/
def isAccepted (config : WsConfig) (event : Event) : Bool :=
  event.ws.url = config.url

/-- Rejected connections change nothing that can be seen, at any moment. -/
def IgnoresRejected (config : WsConfig) (opened : Bool)
    (events : List Event) : Prop :=
  EventFilter.SameView (onEvent config opened) observe (start config)
    (isAccepted config) events

/-- An event that the handle passes over: a message it drops, because it is
full or the message is not JSON, or a connection. -/
def Harmless (handle : SampleBuffer) : Event → Prop
  | .connection _ => True
  | .message _ arrival => handle.IsFull ∨ arrival.2.document = none
  | .disconnection _ => False

/-- The server after the events. -/
def serve (config : WsConfig) (opened : Bool) (events : List Event) : Server :=
  events.foldl (onEvent config opened) (start config)

/-! ## What an event changes -/

/-- The part of the server on which everything that can be seen depends. -/
def core (server : Server) : SampleBuffer × Option (List Int) × Bool :=
  (server.handle, server.report, server.running)

variable {config : WsConfig} {opened : Bool}

theorem observe_eq_of_core_eq {first second : Server}
    (same : core first = core second) : observe first = observe second :=
  congrArg (fun core : SampleBuffer × Option (List Int) × Bool =>
    (core.1.contents, core.2)) same

/-- A new connection, accepted or not, concerns its socket only. -/
theorem core_connection (server : Server) (ws : Connection) :
    core (handleEvent config opened server (.connection ws)) =
      core server := by
  have connected : core (onConnection config server ws) = core server := by
    unfold onConnection
    split <;> rfl
  unfold handleEvent
  dsimp only
  split
  · exact connected
  · exact connected

/-- What an event changes depends on what it changes alone. -/
theorem core_onEvent_congr {first second : Server} (event : Event)
    (same : core first = core second) :
    core (onEvent config opened first event) =
      core (onEvent config opened second event) := by
  obtain ⟨handles, rest⟩ := Prod.mk.inj same
  obtain ⟨reports, states⟩ := Prod.mk.inj rest
  unfold onEvent
  rw [states]
  split
  · cases event with
    | connection ws => rw [core_connection, core_connection, same]
    | message ws arrival =>
        unfold handleEvent
        dsimp only
        rw [handles]
        cases WsHandle.onMessage second.handle arrival with
        | none =>
            unfold core
            dsimp only
            rw [reports]
        | some handle =>
            unfold core
            dsimp only
            rw [reports, states]
    | disconnection ws =>
        unfold handleEvent core
        dsimp only
        rw [handles, reports]
  · exact same

/-- The handler leaves its samples alone exactly when the message is
dropped. -/
theorem onMessage_cases_dropped (handle : SampleBuffer)
    (arrival : Timespec × Message) :
    ((handle.IsFull ∨ arrival.2.document = none) ∧
      WsHandle.onMessage handle arrival = some handle) ∨
    (¬ (handle.IsFull ∨ arrival.2.document = none) ∧
      ∀ next, WsHandle.onMessage handle arrival = some next →
        next.contents ≠ handle.contents) := by
  by_cases dropped : handle.IsFull ∨ arrival.2.document = none
  · exact Or.inl ⟨dropped, WsHandle.onMessage_of_dropped dropped⟩
  · right
    obtain ⟨room, parsed⟩ := not_or.mp dropped
    refine ⟨dropped, fun next received => ?_⟩
    rw [WsHandle.onMessage_eq_bind room parsed] at received
    obtain ⟨sample, _, stored⟩ := Option.bind_eq_some_iff.mp received
    exact FillBuffer.contents_ne_of_put stored

/-- A harmless event changes nothing that matters. -/
theorem core_onEvent_of_harmless {server : Server} {event : Event}
    (harmless : server.running = true → Harmless server.handle event) :
    core (onEvent config opened server event) = core server := by
  unfold onEvent
  split
  · next running =>
      cases event with
      | connection ws => exact core_connection server ws
      | message ws arrival =>
          rcases onMessage_cases_dropped server.handle arrival with
            ⟨_, unchanged⟩ | ⟨effective, _⟩
          · unfold handleEvent
            dsimp only
            rw [unchanged]
          · exact absurd (harmless running) effective
      | disconnection ws => exact (harmless running).elim
  · rfl

/-- An event that changes nothing that can be seen is harmless. -/
theorem harmless_of_observe_eq {server : Server} {event : Event}
    (unchanged : observe (onEvent config opened server event) =
      observe server) (running : server.running = true) :
    Harmless server.handle event := by
  unfold onEvent at unchanged
  rw [if_pos running] at unchanged
  obtain ⟨sameSamples, rest⟩ := Prod.mk.inj unchanged
  have sameState := (Prod.mk.inj rest).2
  rw [running] at sameState
  cases event with
  | connection ws => trivial
  | message ws arrival =>
      rcases onMessage_cases_dropped server.handle arrival with
        ⟨dropped, _⟩ | ⟨_, effective⟩
      · exact dropped
      · unfold handleEvent at sameSamples sameState
        dsimp only at sameSamples sameState
        cases received : WsHandle.onMessage server.handle arrival with
        | none =>
            rw [received] at sameState
            cases sameState
        | some next =>
            rw [received] at sameSamples
            exact absurd sameSamples (effective next received)
  | disconnection ws => cases sameState

/-! ## When rejected connections do not show -/

/-- Rejected connections change nothing that can be seen exactly when, while
the server runs, none of them is disconnected or sends a message that is not
dropped. -/
theorem ignoresRejected_iff_harmless (config : WsConfig) (opened : Bool)
    (events : List Event) :
    IgnoresRejected config opened events ↔
      ∀ before event after, events = before ++ event :: after →
        isAccepted config event = false →
          (serve config opened before).running = true →
            Harmless (serve config opened before).handle event := by
  constructor
  · intro ignores before event after split rejected running
    have unchanged := EventFilter.SameView.unchanged ignores
    exact harmless_of_observe_eq
      (unchanged before event after split rejected) running
  · intro harmless before after split
    have unchanged : EventFilter.Unchanged (onEvent config opened) core
        (start config) (isAccepted config) events :=
      fun before event after split rejected =>
        core_onEvent_of_harmless (harmless before event after split rejected)
    have same := unchanged.sameView fun _ _ event equal =>
      core_onEvent_congr event equal
    exact observe_eq_of_core_eq (same before after split)

/-- A connection for another URL is closed, and its disconnection ends the
server with a report while the accepted connection is still there. -/
theorem rejected_disconnection_ends_server :
    observe (serve (oneMessageConfig "cts") true
        [.connection ⟨1, "/ws"⟩, .connection ⟨2, "/other"⟩,
          .disconnection ⟨2, "/other"⟩]) = ([], some [], false) ∧
    observe (serve (oneMessageConfig "cts") true
        [.connection ⟨1, "/ws"⟩]) = ([], none, true) ∧
    ¬ IgnoresRejected (oneMessageConfig "cts") true
        [.connection ⟨1, "/ws"⟩, .connection ⟨2, "/other"⟩,
          .disconnection ⟨2, "/other"⟩] := by
  refine ⟨by decide, by decide, fun ignores => ?_⟩
  have same := ignores _ [] (List.append_nil _).symm
  have sameState := (Prod.mk.inj (Prod.mk.inj same).2).2
  revert sameState
  decide

end WsTransServer

end LatencyBenchmark
