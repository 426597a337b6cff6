import Pulse.Chaos.FaultProxy
import Pulse.Core.SocketStates

/-!
# Heartbeats

`HeartbeatManager` sweeps over the registered connections: a quiet one is sent a
ping, a dead one is closed and, 150 ms later, terminated. It runs over a node whose
connections note when they were last heard. Timers fire when they are due or later.
-/

namespace Pulse

open Collections Js

/-- The options of `HeartbeatManager`. -/
structure HeartbeatOptions where
  intervalMs : Nat
  timeoutMs : Nat
  sweepTickMs : Option Nat := none

namespace HeartbeatOptions

def getSweepTickMs (o : HeartbeatOptions) : Nat :=
  o.sweepTickMs.getD (max 20 (min o.intervalMs o.timeoutMs / 2))

/-- The silence after which a connection counts as dead. -/
def thresholdMs (o : HeartbeatOptions) : Nat := o.intervalMs + o.timeoutMs

/-- The period of `setInterval`. -/
def sweepDelay (o : HeartbeatOptions) : Nat := timeoutDelay o.getSweepTickMs

end HeartbeatOptions

structure HeartbeatManager where
  /-- When the interval timer is due next. -/
  timer : Option Int := none
  isRunning : Bool := false

/-- The delay of the fallback termination. -/
def fallbackDelay : Nat := 150

/-- A node with the connection fields which heartbeats use. -/
structure WatchedNode where
  node : Node
  now : Int := 0
  heartbeatManager : HeartbeatManager := {}
  lastSeenAt : ConnectionId → Int := fun _ => 0
  isHeartbeatTimedOut : ConnectionId → Bool := fun _ => false
  /-- The connections whose TCP handle was destroyed. -/
  terminated : ConnectionId → Bool := fun _ => false
  /-- The fallback terminations, with the time at which they are due. -/
  fallbackTimers : List (Connection × Int) := []

inductive WatchedEvent
  | elapse (ms : Nat)
  | node (e : NodeEvent)
  /-- A transport ping or pong of the peer. -/
  | keepalive (connectionId : ConnectionId)
  /-- The interval timer fires; `eventIds` are generated for the pings. -/
  | sweep (eventIds : ConnectionId → EventId)
  /-- The `i`-th fallback timer fires. -/
  | fallback (i : Nat)
  | start
  | stop

/-- The clock readings of an event are those of the moment. -/
def NodeEvent.Timely (now : Int) : NodeEvent → Prop
  | .connect _ tick | .frame _ _ tick | .resume _ _ tick | .redisMessage _ _ tick => tick.now = now
  | _ => True

instance (now : Int) : ∀ e : NodeEvent, Decidable (e.Timely now)
  | .connect _ tick | .frame _ _ tick | .resume _ _ tick | .redisMessage _ _ tick =>
      inferInstanceAs (Decidable (tick.now = now))
  | .close _ | .subscriptionSettled .. | .publishSettled | .link _ | .setPresenceManager
  | .transport .. => isTrue trivial

namespace WatchedNode

/-- The `SYS_PING` of a sweep. -/
def pingEnvelope (eventId : EventId) (now : Int) : PulseEventEnvelope :=
  { eventId
    type := .sysPing
    timestamp := .ofInt now
    senderId := "system"
    payload := [("timestamp", .num (.ofInt now))] }

def touch (s : WatchedNode) (connectionId : ConnectionId) : WatchedNode :=
  { s with lastSeenAt := Function.update s.lastSeenAt connectionId s.now }

/-- `conn.terminate()`; a closed socket has no handle left. -/
def terminate (s : WatchedNode) (connection : Connection) : WatchedNode :=
  let socket := s.node.sockets connection.connectionId
  if socket.readyState = .closed then s
  else
    { s with
      node :=
        { s.node with
          sockets := Function.update s.node.sockets connection.connectionId
            { socket with readyState := .closing } }
      terminated := Function.update s.terminated connection.connectionId true }

/-- One turn of the loop of `checkHeartbeats`. -/
def checkHeartbeat (o : HeartbeatOptions) (eventIds : ConnectionId → EventId) (s : WatchedNode)
    (connection : Connection) : WatchedNode :=
  let c := connection.connectionId
  let elapsedSinceLastSeen := s.now - s.lastSeenAt c
  if elapsedSinceLastSeen > o.thresholdMs then
    if s.isHeartbeatTimedOut c then s.terminate connection
    else
      { s with
        isHeartbeatTimedOut := Function.update s.isHeartbeatTimedOut c true
        node := s.node.closeSocket connection 1002 "Heartbeat timeout: connection unresponsive"
        fallbackTimers := s.fallbackTimers ++ [(connection, s.now + fallbackDelay)] }
  else if elapsedSinceLastSeen ≥ o.intervalMs then
    { s with node := (s.node.send connection (pingEnvelope (eventIds c) s.now)).1 }
  else s

def checkHeartbeats (o : HeartbeatOptions) (eventIds : ConnectionId → EventId)
    (s : WatchedNode) : WatchedNode :=
  s.node.memberships.hub.connectionManager.connections.values.foldl
    (checkHeartbeat o eventIds) s

/-- The callback of a fallback timer. -/
def fireFallback (s : WatchedNode) (connection : Connection) : WatchedNode :=
  let readyState := (s.node.sockets connection.connectionId).readyState
  if readyState = .closing ∨ readyState = .open then s.terminate connection else s

def start (o : HeartbeatOptions) (s : WatchedNode) : WatchedNode :=
  if s.heartbeatManager.isRunning then s
  else { s with heartbeatManager := { timer := some (s.now + o.sweepDelay), isRunning := true } }

def stop (s : WatchedNode) : WatchedNode :=
  { s with heartbeatManager := { timer := none, isRunning := false } }

/-- What a node event means for the fields of its connection. -/
def note (s : WatchedNode) : NodeEvent → WatchedNode
  | .connect connection _ =>
      let s := s.touch connection.connectionId
      { s with
        isHeartbeatTimedOut :=
          Function.update s.isHeartbeatTimedOut connection.connectionId false
        terminated := Function.update s.terminated connection.connectionId false }
  | .frame connectionId _ _ => s.touch connectionId
  | _ => s

def step (cfg : ServerConfig) (o : HeartbeatOptions) (s : WatchedNode) :
    WatchedEvent → Option WatchedNode
  | .elapse ms => some { s with now := s.now + ms }
  | .node e =>
      if e.Timely s.now ∧ e.Forward s.node then
        (s.node.step cfg e).map fun node => { s.note e with node }
      else none
  | .keepalive connectionId => (s.node.getConnection connectionId).map fun _ => s.touch connectionId
  | .sweep eventIds =>
      match s.heartbeatManager.timer with
      | some due =>
          if due ≤ s.now then
            let s := s.checkHeartbeats o eventIds
            some { s with
              heartbeatManager := { s.heartbeatManager with timer := some (s.now + o.sweepDelay) } }
          else none
      | none => none
  | .fallback i =>
      match s.fallbackTimers[i]? with
      | some (connection, due) =>
          if due ≤ s.now then
            some ({ s with
              fallbackTimers := s.fallbackTimers.eraseIdx i }.fireFallback connection)
          else none
      | none => none
  | .start => some (s.start o)
  | .stop => some s.stop

/-- A node at its start, before `start`. -/
def initial (redis : Option Bool) (presence : Bool) (now : Int) : WatchedNode :=
  { node := Node.initial redis presence, now, lastSeenAt := fun _ => now }

end WatchedNode

end Pulse
