import Pulse.Core.Connections
import Pulse.Transition.Run

/-!
# Admission of upgrade requests

The upgrade handler of `PulseServer` reserves a slot of `ConnectionManager`
before the handshake and hands the reservation over to the registered
connection, or returns it when the request is refused or its socket closes. An
embedded gateway is asked first, and the handler is suspended until it answers.

A socket emits `close` once, and a listener added later does not see it. `ws`
completes a handshake only on a socket which is still readable and writable,
and otherwise drops it without a callback.
-/

namespace Pulse

open Collections Transition

namespace ConnectionManager

def setMaxConnections (m : ConnectionManager) (max : Nat) : ConnectionManager :=
  { m with maxConnections := if 0 < max then some max else none }

/-- Registered and pending connections leave room for another one. -/
def hasFreeSlot (m : ConnectionManager) : Bool :=
  m.maxConnections.all fun max => m.connections.size + m.pendingConnections < max

def tryAcquireSlot (m : ConnectionManager) : ConnectionManager × Bool :=
  if m.hasFreeSlot then ({ m with pendingConnections := m.pendingConnections + 1 }, true)
  else (m, false)

def releasePendingSlot (m : ConnectionManager) : ConnectionManager :=
  if m.pendingConnections > 0 then { m with pendingConnections := m.pendingConnections - 1 }
  else m

def clear (m : ConnectionManager) : ConnectionManager :=
  { m with connections := ∅, userConnections := ∅ }

@[simp] theorem releasePendingSlot_pendingConnections (m : ConnectionManager) :
    m.releasePendingSlot.pendingConnections = m.pendingConnections - 1 := by
  rw [releasePendingSlot]
  split
  · rfl
  · omega

@[simp] theorem releasePendingSlot_connections (m : ConnectionManager) :
    m.releasePendingSlot.connections = m.connections := by
  rw [releasePendingSlot]
  split <;> rfl

@[simp] theorem releasePendingSlot_maxConnections (m : ConnectionManager) :
    m.releasePendingSlot.maxConnections = m.maxConnections := by
  rw [releasePendingSlot]
  split <;> rfl

@[simp] theorem removeConnection_pendingConnections (m : ConnectionManager) (c : ConnectionId) :
    (m.removeConnection c).1.pendingConnections = m.pendingConnections := by
  rw [removeConnection]
  split <;> rfl

@[simp] theorem removeConnection_maxConnections (m : ConnectionManager) (c : ConnectionId) :
    (m.removeConnection c).1.maxConnections = m.maxConnections := by
  rw [removeConnection]
  split <;> rfl

theorem mem_keys_removeConnection {m : ConnectionManager} {c c' : ConnectionId}
    (h : c' ∈ (m.removeConnection c).1.connections.keys) : c' ∈ m.connections.keys := by
  rw [removeConnection] at h
  split at h
  · exact h
  · exact (OrderedMap.mem_keys_delete.mp h).2

theorem size_removeConnection_le (m : ConnectionManager) (c : ConnectionId) :
    (m.removeConnection c).1.connections.size ≤ m.connections.size := by
  rw [removeConnection]
  split
  · exact Nat.le_refl _
  · rename_i connection hc
    have hsize := OrderedMap.size_delete_of_mem (OrderedMap.mem_keys_of_get? hc)
    simp only
    omega

theorem size_addConnection {m : ConnectionManager} {connection : Connection}
    (fresh : connection.connectionId ∉ m.connections.keys) :
    (m.addConnection connection).connections.size = m.connections.size + 1 :=
  OrderedMap.size_set_of_not_mem fresh

end ConnectionManager

/-- The socket of a request: `ended` is no longer readable and writable, and
`closed` has emitted its `close` event. -/
inductive UpgradeSocket
  | open
  | ended
  | closed
  deriving DecidableEq, Repr

/-- `socket.end` and `socket.destroy`; the `close` event comes later. -/
def UpgradeSocket.shut : UpgradeSocket → UpgradeSocket
  | .open => .ended
  | socket => socket

inductive UpgradePhase
  /-- The handler awaits the embedded gateway. -/
  | gateway
  /-- The authenticated request was handed to `wss.handleUpgrade`. -/
  | handshake (userId : UserId)
  /-- `ws` gave the handshake up, and there is no callback. -/
  | dropped
  | registered
  /-- Answered with an error, or taken over by the gateway. -/
  | finished
  deriving DecidableEq, Repr

/-- One run of the upgrade handler; `slotClaimed` is its variable of this name, and
`listening` says that `onEarlyClose` is attached to the socket. -/
structure Upgrade where
  socket : UpgradeSocket := .open
  phase : UpgradePhase := .gateway
  slotClaimed : Bool := false
  listening : Bool := false
  deriving DecidableEq, Repr

namespace Upgrade

/-- The request is answered with an error. -/
def reject (u : Upgrade) : Upgrade :=
  { u with phase := .finished, socket := u.socket.shut }

/-- The listeners are attached, and `ws` gets the request. -/
def handOver (u : Upgrade) (userId : UserId) : Upgrade :=
  { u with phase := .handshake userId, slotClaimed := true, listening := true }

/-- Neither registered nor refused, and its socket has not closed; a suspended handler is in
progress in any case. -/
def InProgress (u : Upgrade) : Prop :=
  match u.phase with
  | .gateway => True
  | .handshake _ | .dropped => u.socket ≠ .closed
  | .registered | .finished => False

instance (u : Upgrade) : Decidable u.InProgress := by
  unfold InProgress
  split <;> infer_instance

/-- The changes of an upgrade that touch no slot. -/
inductive Quiet (u : Upgrade) : Upgrade → Prop
  | handled (h : u.phase = .gateway) : Quiet u { u with phase := .finished }
  | rejected (h : u.phase = .gateway) : Quiet u u.reject
  | dropped {userId} (h : u.phase = .handshake userId) :
      Quiet u { u with phase := .dropped, socket := u.socket.shut }
  | ended (h : u.socket = .open) : Quiet u { u with socket := .ended }

/-- The slot of this request can no longer be returned. -/
def Leaked (u : Upgrade) : Prop := u.slotClaimed = true ∧ u.socket = .closed

instance (u : Upgrade) : Decidable u.Leaked :=
  inferInstanceAs (Decidable (u.slotClaimed = true ∧ u.socket = .closed))

end Upgrade

/-- The part of `PulseServer` that admits connections; `notified` are the connections which
the `SYS_SHUTDOWN` broadcast of `drain` went to. -/
structure Admission where
  connectionManager : ConnectionManager := {}
  isShuttingDown : Bool := false
  upgrades : List Upgrade := []
  notified : List ConnectionId := []
  deriving DecidableEq, Repr

inductive AdmissionEvent
  /-- A request arrives; `userId` is the outcome of its authentication, if that comes to pass
  without an answer of the gateway. -/
  | upgrade (originAllowed : Bool) (userId : Option UserId)
  /-- The gateway took the `i`-th request over. -/
  | gatewayHandled (i : Nat)
  | gatewayDeclined (i : Nat) (userId : Option UserId)
  | gatewayFailed (i : Nat)
  /-- The callback of `wss.handleUpgrade`. -/
  | upgraded (i : Nat) (connectionId : ConnectionId)
  | dropped (i : Nat)
  /-- The client stops sending. -/
  | socketEnded (i : Nat)
  | socketError (i : Nat)
  | socketClosed (i : Nat)
  /-- The socket of a registered connection closes. -/
  | disconnect (connectionId : ConnectionId)
  /-- `drain`, called directly or by `stop`. -/
  | drain
  /-- `stop` ends. -/
  | stopped
  deriving DecidableEq, Repr

namespace Admission

def initial (max : Nat) : Admission :=
  { connectionManager := ConnectionManager.setMaxConnections {} max }

def setUpgrade (s : Admission) (i : Nat) (u : Upgrade) : Admission :=
  { s with upgrades := s.upgrades.set i u }

/-- A request arrives, and its handler begins. -/
def arrive (s : Admission) : Admission := { s with upgrades := s.upgrades ++ [{}] }

/-- The handler from its admission control on. -/
def admissionControl (s : Admission) (i : Nat) (u : Upgrade) (userId : Option UserId) : Admission :=
  let (connectionManager, acquired) := s.connectionManager.tryAcquireSlot
  if acquired then
    match userId with
    | none =>
        { s with connectionManager := connectionManager.releasePendingSlot }.setUpgrade i u.reject
    | some userId => { s with connectionManager }.setUpgrade i (u.handOver userId)
  else s.setUpgrade i u.reject

/-- The handler up to its `await`, or to its end. -/
def upgrade (embedded : Bool) (s : Admission) (originAllowed : Bool)
    (userId : Option UserId) : Admission :=
  let u : Upgrade := {}
  let i := s.upgrades.length
  let s := s.arrive
  if s.isShuttingDown then s.setUpgrade i u.reject
  else if !originAllowed then s.setUpgrade i u.reject
  else if embedded then s
  else s.admissionControl i u userId

/-- `onEarlyClose`, where it is attached, when the socket reaches a new state. -/
def onEarlyClose (s : Admission) (i : Nat) (u : Upgrade) (socket : UpgradeSocket) : Admission :=
  let u := { u with socket }
  if u.listening && u.slotClaimed then
    { s with connectionManager := s.connectionManager.releasePendingSlot }.setUpgrade i
      { u with slotClaimed := false }
  else s.setUpgrade i u

def register (s : Admission) (i : Nat) (u : Upgrade) (connection : Connection) : Admission :=
  { s with connectionManager := s.connectionManager.addConnection connection }.setUpgrade i
    { u with phase := .registered, slotClaimed := false, listening := false }

def drain (s : Admission) : Admission :=
  if s.isShuttingDown then s
  else { s with isShuttingDown := true, notified := s.connectionManager.connections.keys }

/-- The end of `cleanupAndFinalize`. -/
def finalize (s : Admission) : Admission :=
  { s with connectionManager := s.connectionManager.clear, isShuttingDown := false }

/-- `embedded` says whether there is an embedded gateway. -/
def step (embedded : Bool) (s : Admission) : AdmissionEvent → Option Admission
  | .upgrade originAllowed userId => some (s.upgrade embedded originAllowed userId)
  | .gatewayHandled i => do
      let u ← s.upgrades[i]?
      if u.phase = .gateway then some (s.setUpgrade i { u with phase := .finished }) else none
  | .gatewayDeclined i userId => do
      let u ← s.upgrades[i]?
      if u.phase = .gateway then some (s.admissionControl i u userId) else none
  | .gatewayFailed i => do
      let u ← s.upgrades[i]?
      if u.phase = .gateway then some (s.setUpgrade i u.reject) else none
  | .upgraded i connectionId => do
      let u ← s.upgrades[i]?
      match u.phase with
      | .handshake userId =>
          if u.socket = .open ∧ connectionId ∉ s.connectionManager.connections.keys then
            some (s.register i u { connectionId, userId })
          else none
      | _ => none
  | .dropped i => do
      let u ← s.upgrades[i]?
      match u.phase with
      | .handshake _ => some (s.setUpgrade i { u with phase := .dropped, socket := u.socket.shut })
      | _ => none
  | .socketEnded i => do
      let u ← s.upgrades[i]?
      if u.socket = .open then some (s.setUpgrade i { u with socket := .ended }) else none
  | .socketError i => do
      let u ← s.upgrades[i]?
      if u.socket = .closed then none else some (s.onEarlyClose i u .ended)
  | .socketClosed i => do
      let u ← s.upgrades[i]?
      if u.socket = .closed then none else some (s.onEarlyClose i u .closed)
  | .disconnect connectionId =>
      some { s with
        connectionManager := (s.connectionManager.removeConnection connectionId).1 }
  | .drain => some s.drain
  | .stopped => if s.isShuttingDown then some s.finalize else none

/-- The upgrades that hold a slot and were neither registered nor released. -/
def holders (s : Admission) : Nat := s.upgrades.countP (·.slotClaimed)

/-- No upgrade is in progress. -/
def Idle (s : Admission) : Prop := ∀ u ∈ s.upgrades, ¬ u.InProgress

instance (s : Admission) : Decidable s.Idle :=
  inferInstanceAs (Decidable (∀ u ∈ s.upgrades, ¬ u.InProgress))

/-- The request gets a slot and is handed to `ws`. -/
def claim (s : Admission) (i : Nat) (u : Upgrade) (userId : UserId) : Admission :=
  { s with
    connectionManager :=
      { s.connectionManager with
        pendingConnections := s.connectionManager.pendingConnections + 1 } }.setUpgrade i
    (u.handOver userId)

/-- What a step does apart from claiming a slot. -/
inductive Move (s : Admission) : AdmissionEvent → Admission → Prop
  | quiet {e i u u'} (found : s.upgrades[i]? = some u) (quiet : u.Quiet u') :
      Move s e (s.setUpgrade i u')
  | earlyClose {e i u socket} (found : s.upgrades[i]? = some u) (live : u.socket ≠ .closed)
      (shut : socket ≠ .open) : Move s e (s.onEarlyClose i u socket)
  | register {i u userId connectionId} (found : s.upgrades[i]? = some u)
      (handshake : u.phase = .handshake userId) (live : u.socket = .open)
      (fresh : connectionId ∉ s.connectionManager.connections.keys) :
      Move s (.upgraded i connectionId) (s.register i u { connectionId, userId })
  | disconnect {e} (connectionId : ConnectionId) :
      Move s e { s with
        connectionManager := (s.connectionManager.removeConnection connectionId).1 }
  | drain : Move s .drain s.drain
  | stopped (draining : s.isShuttingDown = true) : Move s .stopped s.finalize

theorem admissionControl_cases (s : Admission) (i : Nat) (u : Upgrade) (userId : Option UserId) :
    (∃ user, userId = some user ∧ s.connectionManager.hasFreeSlot = true ∧
      s.admissionControl i u userId = s.claim i u user) ∨
    ((userId = none ∨ s.connectionManager.hasFreeSlot = false) ∧
      s.admissionControl i u userId = s.setUpgrade i u.reject) := by
  cases hfree : s.connectionManager.hasFreeSlot with
  | false =>
      refine Or.inr ⟨Or.inr rfl, ?_⟩
      simp [admissionControl, ConnectionManager.tryAcquireSlot, hfree]
  | true =>
      cases userId with
      | none =>
          refine Or.inr ⟨Or.inl rfl, ?_⟩
          simp [admissionControl, ConnectionManager.tryAcquireSlot, hfree,
            ConnectionManager.releasePendingSlot]
      | some user =>
          refine Or.inl ⟨user, rfl, rfl, ?_⟩
          simp [admissionControl, ConnectionManager.tryAcquireSlot, hfree, claim]

theorem upgrade_cases (embedded : Bool) (s : Admission) (originAllowed : Bool)
    (userId : Option UserId) :
    s.upgrade embedded originAllowed userId = s.arrive ∨
    s.upgrade embedded originAllowed userId =
      s.arrive.setUpgrade s.upgrades.length (Upgrade.reject {}) ∨
    (s.isShuttingDown = false ∧ s.upgrade embedded originAllowed userId =
      s.arrive.admissionControl s.upgrades.length {} userId) := by
  simp only [upgrade]
  split
  · exact Or.inr (Or.inl rfl)
  · rename_i hrunning
    split
    · exact Or.inr (Or.inl rfl)
    · split
      · exact Or.inl rfl
      · exact Or.inr (Or.inr ⟨Bool.eq_false_iff.mpr hrunning, rfl⟩)

/-- A step brings a new request, or the gateway's refusal of one, or it is a move. -/
theorem step_cases {embedded : Bool} {s t : Admission} {e : AdmissionEvent}
    (h : step embedded s e = some t) :
    (∃ originAllowed userId, e = .upgrade originAllowed userId ∧
      t = s.upgrade embedded originAllowed userId) ∨
    (∃ i u userId, e = .gatewayDeclined i userId ∧ s.upgrades[i]? = some u ∧
      u.phase = .gateway ∧ t = s.admissionControl i u userId) ∨
    (∀ i userId, e ≠ .gatewayDeclined i userId) ∧ s.Move e t := by
  cases e with
  | upgrade originAllowed userId =>
      cases h
      exact Or.inl ⟨originAllowed, userId, rfl, rfl⟩
  | gatewayDeclined i userId =>
      simp only [step, Option.bind_eq_bind, Option.bind_eq_some_iff,
        Option.ite_none_right_eq_some, Option.some.injEq] at h
      obtain ⟨u, hu, hphase, rfl⟩ := h
      exact Or.inr (Or.inl ⟨i, u, userId, rfl, hu, hphase, rfl⟩)
  | gatewayHandled i =>
      simp only [step, Option.bind_eq_bind, Option.bind_eq_some_iff,
        Option.ite_none_right_eq_some, Option.some.injEq] at h
      obtain ⟨u, hu, hphase, rfl⟩ := h
      exact Or.inr (Or.inr ⟨nofun, .quiet hu (.handled hphase)⟩)
  | gatewayFailed i =>
      simp only [step, Option.bind_eq_bind, Option.bind_eq_some_iff,
        Option.ite_none_right_eq_some, Option.some.injEq] at h
      obtain ⟨u, hu, hphase, rfl⟩ := h
      exact Or.inr (Or.inr ⟨nofun, .quiet hu (.rejected hphase)⟩)
  | upgraded i connectionId =>
      simp only [step, Option.bind_eq_bind, Option.bind_eq_some_iff] at h
      obtain ⟨u, hu, h⟩ := h
      split at h
      · rename_i userId hphase
        split at h
        · rename_i hlive
          cases h
          exact Or.inr (Or.inr ⟨nofun, .register hu hphase hlive.1 hlive.2⟩)
        · cases h
      · cases h
  | dropped i =>
      simp only [step, Option.bind_eq_bind, Option.bind_eq_some_iff] at h
      obtain ⟨u, hu, h⟩ := h
      split at h
      · rename_i userId hphase
        cases h
        exact Or.inr (Or.inr ⟨nofun, .quiet hu (.dropped hphase)⟩)
      · cases h
  | socketEnded i =>
      simp only [step, Option.bind_eq_bind, Option.bind_eq_some_iff,
        Option.ite_none_right_eq_some, Option.some.injEq] at h
      obtain ⟨u, hu, hlive, rfl⟩ := h
      exact Or.inr (Or.inr ⟨nofun, .quiet hu (.ended hlive)⟩)
  | socketError i =>
      simp only [step, Option.bind_eq_bind, Option.bind_eq_some_iff,
        Option.ite_none_left_eq_some, Option.some.injEq] at h
      obtain ⟨u, hu, hlive, rfl⟩ := h
      exact Or.inr (Or.inr ⟨nofun, .earlyClose hu hlive (by decide)⟩)
  | socketClosed i =>
      simp only [step, Option.bind_eq_bind, Option.bind_eq_some_iff,
        Option.ite_none_left_eq_some, Option.some.injEq] at h
      obtain ⟨u, hu, hlive, rfl⟩ := h
      exact Or.inr (Or.inr ⟨nofun, .earlyClose hu hlive (by decide)⟩)
  | disconnect connectionId =>
      cases h
      exact Or.inr (Or.inr ⟨nofun, .disconnect connectionId⟩)
  | drain =>
      cases h
      exact Or.inr (Or.inr ⟨nofun, .drain⟩)
  | stopped =>
      simp only [step, Option.ite_none_right_eq_some, Option.some.injEq] at h
      obtain ⟨hdraining, rfl⟩ := h
      exact Or.inr (Or.inr ⟨nofun, .stopped hdraining⟩)

end Admission

end Pulse
