import Pulse.Client.Session
import Pulse.Transition.Run

/-!
# Life cycle of a session's connection

What a session does about its connection depends on few of its variables: the state,
the sockets, the two timers of the connection and the flag of an explicit close.
`SessionLifecycle` is the session without the rest, and its events are what is left of
the session's events. Requests, acknowledgements and retransmissions do not touch it.
-/

namespace Pulse

open Collections Js

structure SessionLifecycle where
  state : ClientSessionState := .disconnected
  /-- The readiness of each socket. -/
  sockets : List ReadyState := []
  ws : Option Nat := none
  reconnectTimer : Bool := false
  connectionTimeoutTimer : Bool := false
  isExplicitlyClosed : Bool := false
  disconnecting : Nat := 0
  deriving DecidableEq, Repr

inductive LifecycleEvent
  | unrelated
  | connect (constructed : Bool)
  | disconnect
  /-- The rest of `disconnect`. -/
  | disconnected
  /-- A `SYS_CONNECT_ACK`, with or without rooms to join again. -/
  | acknowledged (rooms : Bool)
  /-- The rest of `resubscribeRooms`. -/
  | resubscribed
  | reconnectTimeout (constructed : Bool)
  | connectionTimeout
  | opened (w : Nat)
  | closing (w : Nat)
  | closed (w : Nat)
  | error (w : Nat)
  deriving DecidableEq, Repr

namespace SessionLifecycle

def readyState (l : SessionLifecycle) : Option ReadyState := l.ws.bind fun w => l.sockets[w]?

def setReadyState (l : SessionLifecycle) (w : Nat) (readyState : ReadyState) : SessionLifecycle :=
  { l with sockets := l.sockets.modify w fun _ => readyState }

def handleDisconnectOrError (autoReconnect : Bool) (l : SessionLifecycle) : SessionLifecycle :=
  if l.isExplicitlyClosed || !autoReconnect then l
  else { l with state := .reconnectingBackoff, reconnectTimer := true }

def connect (autoReconnect : Bool) (l : SessionLifecycle) (constructed : Bool) :
    SessionLifecycle :=
  let l := { l with isExplicitlyClosed := false, reconnectTimer := false, state := .connecting }
  if constructed then
    { l with
      sockets := l.sockets ++ [.connecting]
      ws := some l.sockets.length
      connectionTimeoutTimer := true }
  else { l with state := .disconnected }.handleDisconnectOrError autoReconnect

def closeSocket (l : SessionLifecycle) : SessionLifecycle :=
  match l.ws with
  | none => l
  | some w => if l.readyState = some .closed then l else l.setReadyState w .closing

def disconnect (l : SessionLifecycle) : SessionLifecycle :=
  let l :=
    { l with isExplicitlyClosed := true, reconnectTimer := false, connectionTimeoutTimer := false }
  if l.readyState = some .open ∨ l.readyState = some .connecting then
    { l.closeSocket with disconnecting := l.disconnecting + 1 }
  else { l with ws := none, state := .disconnected }

def connectionTimeout (autoReconnect : Bool) (l : SessionLifecycle) : SessionLifecycle :=
  let l := { l with connectionTimeoutTimer := false }
  if l.state = .connecting ∨ l.state = .authenticating then
    { l.closeSocket with state := .disconnected }.handleDisconnectOrError autoReconnect
  else l

def handleClose (autoReconnect : Bool) (l : SessionLifecycle) (w : Nat) : SessionLifecycle :=
  let wasConnected := decide (l.state = .connected)
  let l :=
    { l.setReadyState w .closed with state := .disconnected, connectionTimeoutTimer := false }
  if wasConnected && !l.isExplicitlyClosed then l.handleDisconnectOrError autoReconnect else l

def handleError (autoReconnect : Bool) (l : SessionLifecycle) (w : Nat) : SessionLifecycle :=
  let l := l.setReadyState w .closing
  if l.state = .connecting then
    { l with connectionTimeoutTimer := false, state := .disconnected }.handleDisconnectOrError
      autoReconnect
  else l

def apply (autoReconnect : Bool) (l : SessionLifecycle) : LifecycleEvent → SessionLifecycle
  | .unrelated => l
  | .connect constructed => l.connect autoReconnect constructed
  | .disconnect => l.disconnect
  | .disconnected =>
      { l with disconnecting := l.disconnecting - 1, ws := none, state := .disconnected }
  | .acknowledged rooms =>
      { l with
        connectionTimeoutTimer := false
        state := if rooms then .resubscribingRooms else .connected }
  | .resubscribed => { l with state := .connected }
  | .reconnectTimeout constructed =>
      let l := { l with reconnectTimer := false }
      if l.isExplicitlyClosed then l else l.connect autoReconnect constructed
  | .connectionTimeout => l.connectionTimeout autoReconnect
  | .opened w => { l.setReadyState w .open with state := .authenticating }
  | .closing w => l.setReadyState w .closing
  | .closed w => l.handleClose autoReconnect w
  | .error w => l.handleError autoReconnect w

/-- Closing the current socket changes its readiness only. -/
theorem closeSocket_eq (l : SessionLifecycle) :
    l.closeSocket = { l with sockets := l.closeSocket.sockets } := by
  rw [closeSocket]
  split
  · rfl
  · split <;> rfl

@[simp] theorem closeSocket_state (l : SessionLifecycle) : l.closeSocket.state = l.state := by
  rw [closeSocket_eq]

@[simp] theorem closeSocket_ws (l : SessionLifecycle) : l.closeSocket.ws = l.ws := by
  rw [closeSocket_eq]

@[simp] theorem closeSocket_isExplicitlyClosed (l : SessionLifecycle) :
    l.closeSocket.isExplicitlyClosed = l.isExplicitlyClosed := by
  rw [closeSocket_eq]

@[simp] theorem closeSocket_disconnecting (l : SessionLifecycle) :
    l.closeSocket.disconnecting = l.disconnecting := by
  rw [closeSocket_eq]

/-- There is no current socket, or it is closed. -/
def Lost (l : SessionLifecycle) : Prop := ∀ readyState ∈ l.readyState, readyState = .closed

theorem setReadyState_readyState (l : SessionLifecycle) (w : Nat) (readyState : ReadyState) :
    (l.setReadyState w readyState).readyState =
      if l.ws = some w then l.readyState.map fun _ => readyState else l.readyState := by
  simp only [setReadyState, SessionLifecycle.readyState]
  cases l.ws with
  | none => rfl
  | some v =>
      simp only [Option.bind_some, List.getElem?_modify, Option.some.injEq, eq_comm (a := w)]
      split <;> simp

/-- A socket which does not close is not lost. -/
theorem Lost.of_setReadyState {l : SessionLifecycle} {w : Nat} {readyState : ReadyState}
    (h : (l.setReadyState w readyState).Lost) (live : readyState ≠ .closed) : l.Lost := by
  intro r hr
  rw [Lost, setReadyState_readyState] at h
  split at h
  · rw [hr] at h
    exact absurd (h readyState rfl) live
  · exact h r hr

theorem Lost.of_closeSocket {l : SessionLifecycle} (h : l.closeSocket.Lost) : l.Lost := by
  rw [closeSocket] at h
  split at h
  · exact h
  · split at h
    · exact h
    · exact h.of_setReadyState (by decide)

end SessionLifecycle

/-- What an event of a session means for its connection. -/
def SessionEvent.lifecycle (s : PulseClientSession) : SessionEvent → LifecycleEvent
  | .connect constructed _ => .connect constructed
  | .disconnect => .disconnect
  | .disconnected => .disconnected
  | .resubscribed _ => .resubscribed
  | .reconnectTimeout constructed _ => .reconnectTimeout constructed
  | .connectionTimeout _ => .connectionTimeout
  | .opened w => .opened w
  | .message _ envelope _ =>
      if envelope.type = .sysConnectAck then .acknowledged (decide (s.desiredRooms.size > 0))
      else .unrelated
  | .closing w => .closing w
  | .closed w _ => .closed w
  | .error w _ => .error w
  | .sendEnvelope .. | .joinRoom .. | .joinRooms .. | .leaveRoom .. | .sendRoomMessage ..
  | .sendDirectMessage .. | .ackTimeout _ => .unrelated

namespace PulseClientSession

def lifecycle (s : PulseClientSession) : SessionLifecycle :=
  { state := s.state
    sockets := s.sockets.map (·.readyState)
    ws := s.ws
    reconnectTimer := s.reconnectTimer
    connectionTimeoutTimer := s.connectionTimeoutTimer
    isExplicitlyClosed := s.isExplicitlyClosed
    disconnecting := s.disconnecting }

section lifecycle

variable (o : SessionOptions) (s : PulseClientSession)

@[simp] theorem lifecycle_readyState : s.lifecycle.readyState = s.readyState := by
  simp [SessionLifecycle.readyState, readyState, lifecycle]

@[simp] theorem modifyEntry_lifecycle (i : Nat) (f : InFlightEntry → InFlightEntry) :
    (s.modifyEntry i f).lifecycle = s.lifecycle := rfl

@[simp] theorem clearTimeout_lifecycle (timer : Option Nat) :
    (s.clearTimeout timer).lifecycle = s.lifecycle := rfl

@[simp] theorem armAckTimeout_lifecycle (correlationId : String) (entry : Nat) :
    (s.armAckTimeout correlationId entry).lifecycle = s.lifecycle := rfl

theorem map_readyState_modify (sockets : List ClientSocket) (w : Nat)
    (f : ClientSocket → ClientSocket) (g : ReadyState → ReadyState)
    (h : ∀ socket, (f socket).readyState = g socket.readyState) :
    (sockets.modify w f).map (·.readyState) = (sockets.map (·.readyState)).modify w g := by
  refine List.ext_getElem? fun i => ?_
  simp only [List.getElem?_map, List.getElem?_modify]
  cases sockets[i]? with
  | none => rfl
  | some socket =>
      by_cases hi : w = i
      · simp [hi, h]
      · simp [hi]

@[simp] theorem setReadyState_lifecycle (w : Nat) (readyState : ReadyState) :
    (s.setReadyState w readyState).lifecycle = s.lifecycle.setReadyState w readyState := by
  simp only [lifecycle, setReadyState, SessionLifecycle.setReadyState]
  rw [map_readyState_modify s.sockets w (fun socket => { socket with readyState })
    (fun _ => readyState) fun _ => rfl]

@[simp] theorem transmitFrame_lifecycle (envelope : PulseEventEnvelope) :
    (s.transmitFrame envelope).lifecycle = s.lifecycle := by
  rw [transmitFrame]
  split
  · rfl
  · rename_i w _
    split
    · have hsockets : (s.sockets.modify w fun socket =>
          { socket with sent := socket.sent ++ [envelope] }).map (·.readyState) =
            s.sockets.map (·.readyState) := by
        rw [map_readyState_modify s.sockets w (fun socket =>
          { socket with sent := socket.sent ++ [envelope] }) id fun _ => rfl, List.modify_id]
      simp only [lifecycle, hsockets]
    · rfl

@[simp] theorem sendEnvelope_lifecycle (options : PulseEventEnvelope) (generated : String) :
    (s.sendEnvelope o options generated).1.lifecycle = s.lifecycle := by
  simp only [sendEnvelope]
  split
  · rfl
  · split
    · rw [transmitFrame_lifecycle]
      rfl
    · rw [transmitFrame_lifecycle]
      rfl

@[simp] theorem flushEntry_lifecycle (correlationId : String) (i : Nat) :
    (s.flushEntry correlationId i).lifecycle = s.lifecycle := by
  rw [flushEntry]
  split
  · rfl
  · rw [armAckTimeout_lifecycle, transmitFrame_lifecycle]
    rfl

theorem foldl_lifecycle {α : Type*} {f : PulseClientSession → α → PulseClientSession}
    (h : ∀ s a, (f s a).lifecycle = s.lifecycle) (s : PulseClientSession) (l : List α) :
    (l.foldl f s).lifecycle = s.lifecycle := by
  induction l generalizing s with
  | nil => rfl
  | cons a l ih => rw [List.foldl_cons, ih, h]

@[simp] theorem flushRetryQueue_lifecycle :
    s.flushRetryQueue.lifecycle = { s.lifecycle with state := .flushRetryQueue } := by
  rw [flushRetryQueue]
  exact foldl_lifecycle (fun s (entry : String × Nat) => s.flushEntry_lifecycle entry.1 entry.2)
    _ _

theorem setState_lifecycle (state : ClientSessionState) :
    (s.setState state).lifecycle = { s.lifecycle with state } := rfl

theorem handleDisconnectOrError_lifecycle (random : ℚ) :
    (s.handleDisconnectOrError o random).lifecycle =
      s.lifecycle.handleDisconnectOrError o.autoReconnect := by
  simp only [handleDisconnectOrError, SessionLifecycle.handleDisconnectOrError]
  have hflag : s.lifecycle.isExplicitlyClosed = s.isExplicitlyClosed := rfl
  rw [hflag]
  split <;> rfl

theorem closeSocket_lifecycle : s.closeSocket.lifecycle = s.lifecycle.closeSocket := by
  have hws : s.lifecycle.ws = s.ws := rfl
  simp only [closeSocket, SessionLifecycle.closeSocket, hws, lifecycle_readyState]
  cases s.ws with
  | none => rfl
  | some w =>
      simp only
      split
      · rfl
      · exact setReadyState_lifecycle s w _

theorem connect_lifecycle (constructed : Bool) (random : ℚ) :
    (s.connect o constructed random).lifecycle =
      s.lifecycle.connect o.autoReconnect constructed := by
  cases constructed with
  | true => simp [connect, SessionLifecycle.connect, lifecycle]
  | false => exact handleDisconnectOrError_lifecycle o _ random

/-- What `disconnect` does with the socket. -/
theorem disconnect_socket_lifecycle :
    PulseClientSession.lifecycle
      (if s.readyState = some .open ∨ s.readyState = some .connecting then
        { s.closeSocket with disconnecting := s.disconnecting + 1 }
      else { s with ws := none, state := .disconnected }) =
    if s.lifecycle.readyState = some .open ∨ s.lifecycle.readyState = some .connecting then
      { s.lifecycle.closeSocket with disconnecting := s.lifecycle.disconnecting + 1 }
    else { s.lifecycle with ws := none, state := .disconnected } := by
  rw [lifecycle_readyState]
  split
  · rw [← closeSocket_lifecycle]
    rfl
  · rfl

theorem disconnect_lifecycle : s.disconnect.lifecycle = s.lifecycle.disconnect := by
  have hrejected := foldl_lifecycle
    (f := fun s (entry : String × Nat) => s.rejectEntry entry.2) (fun _ _ => rfl)
    { s with isExplicitlyClosed := true, reconnectTimer := false, connectionTimeoutTimer := false }
    s.inFlightQueue.entries
  have hrest : PulseClientSession.lifecycle { s.inFlightQueue.entries.foldl
      (fun s entry => s.rejectEntry entry.2) { s with
        isExplicitlyClosed := true, reconnectTimer := false, connectionTimeoutTimer := false } with
      inFlightQueue := ∅ } = { s.lifecycle with
        isExplicitlyClosed := true, reconnectTimer := false, connectionTimeoutTimer := false } :=
    hrejected
  rw [SessionLifecycle.disconnect, ← hrest]
  exact disconnect_socket_lifecycle _

theorem handleConnectAck_lifecycle (stamp : Stamp) :
    (s.handleConnectAck o stamp).lifecycle =
      s.lifecycle.apply o.autoReconnect (.acknowledged (decide (s.desiredRooms.size > 0))) := by
  simp only [handleConnectAck, SessionLifecycle.apply]
  by_cases hrooms : s.desiredRooms.size > 0
  · simp only [hrooms, if_true, decide_true]
    exact sendEnvelope_lifecycle o _ _ _
  · simp only [hrooms, if_false, decide_false]
    rw [setState_lifecycle, flushRetryQueue_lifecycle]
    rfl

theorem handleAck_lifecycle (envelope : PulseEventEnvelope) :
    (s.handleAck envelope).lifecycle = s.lifecycle := by
  rw [handleAck]
  split
  · rfl
  · split
    · rfl
    · split <;> rfl

theorem handleClose_lifecycle (w : Nat) (random : ℚ) :
    (s.handleClose o w random).lifecycle = s.lifecycle.handleClose o.autoReconnect w := by
  have hclosed : PulseClientSession.lifecycle
      { (s.setReadyState w .closed).setState .disconnected with connectionTimeoutTimer := false } =
      { s.lifecycle.setReadyState w .closed with
        state := .disconnected, connectionTimeoutTimer := false } := by
    rw [← setReadyState_lifecycle]
    rfl
  cases hlost : decide (s.state = .connected) && !s.isExplicitlyClosed with
  | true =>
      have hsession : s.handleClose o w random = handleDisconnectOrError o
          { (s.setReadyState w .closed).setState .disconnected with
            connectionTimeoutTimer := false } random := if_pos hlost
      rw [hsession, handleDisconnectOrError_lifecycle, hclosed]
      exact (if_pos hlost).symm
  | false =>
      have hsession : s.handleClose o w random =
          { (s.setReadyState w .closed).setState .disconnected with
            connectionTimeoutTimer := false } := if_neg (Bool.eq_false_iff.mp hlost)
      rw [hsession, hclosed]
      exact (if_neg (Bool.eq_false_iff.mp hlost)).symm

theorem handleError_lifecycle (w : Nat) (random : ℚ) :
    (s.handleError o w random).lifecycle = s.lifecycle.handleError o.autoReconnect w := by
  by_cases hstate : s.state = .connecting
  · have hsession : s.handleError o w random = handleDisconnectOrError o
        { s.setReadyState w .closing with
          connectionTimeoutTimer := false, state := .disconnected } random := if_pos hstate
    have herror : PulseClientSession.lifecycle
        { s.setReadyState w .closing with
          connectionTimeoutTimer := false, state := .disconnected } =
        { s.lifecycle.setReadyState w .closing with
          connectionTimeoutTimer := false, state := .disconnected } := by
      rw [← setReadyState_lifecycle]
      rfl
    rw [hsession, handleDisconnectOrError_lifecycle, herror]
    exact (if_pos hstate).symm
  · have hsession : s.handleError o w random = s.setReadyState w .closing := if_neg hstate
    rw [hsession, setReadyState_lifecycle]
    exact (if_neg hstate).symm

theorem ackTimeout_lifecycle (timer : AckTimer) :
    (s.ackTimeout o timer).lifecycle = s.lifecycle := by
  rw [ackTimeout]
  split
  · rfl
  · split
    · rw [armAckTimeout_lifecycle, transmitFrame_lifecycle, modifyEntry_lifecycle]
    · rfl

/-- The connection of a session follows its own life cycle. -/
theorem step_lifecycle {o : SessionOptions} {s t : PulseClientSession} {e : SessionEvent}
    (h : s.step o e = some t) :
    t.lifecycle = s.lifecycle.apply o.autoReconnect (e.lifecycle s) := by
  cases e with
  | connect constructed random =>
      cases h
      exact connect_lifecycle o s constructed random
  | sendEnvelope | joinRoom | joinRooms | leaveRoom | sendRoomMessage | sendDirectMessage =>
      cases h
      exact sendEnvelope_lifecycle o _ _ _
  | disconnect =>
      cases h
      exact disconnect_lifecycle s
  | disconnected =>
      simp only [step] at h
      split at h
      · cases h
      · cases h
        rfl
  | resubscribed i =>
      simp only [step, Option.bind_eq_some_iff] at h
      obtain ⟨awaited, -, h⟩ := h
      split at h
      · cases h
        rw [resubscribed, setState_lifecycle, flushRetryQueue_lifecycle]
        rfl
      · cases h
  | ackTimeout timer =>
      simp only [step, Option.map_eq_some_iff] at h
      obtain ⟨t, -, rfl⟩ := h
      exact ackTimeout_lifecycle o _ t
  | reconnectTimeout constructed random =>
      simp only [step, Option.ite_none_right_eq_some, Option.some.injEq] at h
      obtain ⟨-, rfl⟩ := h
      simp only [SessionEvent.lifecycle, SessionLifecycle.apply]
      have hflag : s.lifecycle.isExplicitlyClosed = s.isExplicitlyClosed := rfl
      rw [hflag]
      split
      · rfl
      · exact connect_lifecycle o _ constructed random
  | connectionTimeout random =>
      simp only [step, Option.ite_none_right_eq_some, Option.some.injEq] at h
      obtain ⟨-, rfl⟩ := h
      simp only [connectionTimeout, SessionEvent.lifecycle, SessionLifecycle.apply,
        SessionLifecycle.connectionTimeout]
      have hstate : s.lifecycle.state = s.state := rfl
      rw [hstate]
      split
      · rw [handleDisconnectOrError_lifecycle, setState_lifecycle, closeSocket_lifecycle]
        rfl
      · rfl
  | opened w =>
      simp only [step, Option.ite_none_right_eq_some, Option.some.injEq] at h
      obtain ⟨-, rfl⟩ := h
      rw [setState_lifecycle, setReadyState_lifecycle]
      rfl
  | message w envelope stamp =>
      simp only [step, Option.ite_none_right_eq_some, Option.some.injEq] at h
      obtain ⟨-, rfl⟩ := h
      simp only [handleIncomingEnvelope, SessionEvent.lifecycle]
      split
      · exact handleConnectAck_lifecycle o s stamp
      · split
        · exact handleAck_lifecycle s envelope
        · rfl
  | closing w =>
      simp only [step, Option.ite_none_right_eq_some, Option.some.injEq] at h
      obtain ⟨-, rfl⟩ := h
      exact setReadyState_lifecycle s w .closing
  | closed w random =>
      simp only [step, Option.ite_none_right_eq_some, Option.some.injEq] at h
      obtain ⟨-, rfl⟩ := h
      exact handleClose_lifecycle o s w random
  | error w random =>
      simp only [step, Option.ite_none_right_eq_some, Option.some.injEq] at h
      obtain ⟨-, rfl⟩ := h
      exact handleError_lifecycle o s w random

end lifecycle

end PulseClientSession

end Pulse
