import Pulse.Core.Dispatcher
import Pulse.Transition.Run

/-!
# The events of a node

Everything that happens to a node happens in pieces which the event loop runs
without interruption: a connection is established or closed, a frame arrives, a
suspended handler goes on, Redis delivers an event or answers a command. `step`
is one such piece.
-/

namespace Pulse

open Collections Js

inductive NodeEvent
  /-- An authenticated upgrade completes with a newly generated connection id. -/
  | connect (connection : Connection) (tick : Tick)
  | frame (connectionId : ConnectionId) (raw : Option Json) (tick : Tick)
  /-- The presence call awaited by the `i`-th suspended handler answers. -/
  | resume (i : Nat) (online : Option (List UserId)) (tick : Tick)
  | close (connectionId : ConnectionId)
  | redisMessage (channel : Channel) (raw : Option Json) (tick : Tick)
  /-- The reply to the `i`-th pending SUBSCRIBE or UNSUBSCRIBE arrives. -/
  | subscriptionSettled (i : Nat) (accepted : Bool)
  | publishSettled
  | link (connected : Bool)
  | setPresenceManager
  /-- The transport reports a new state of a socket. -/
  | transport (connectionId : ConnectionId) (readyState : ReadyState) (bufferedAmount : Nat)
      (sendFails : Bool)

namespace Memberships

/-- `handleAuthenticatedConnection`: a new object and its registration. -/
def connect (m : Memberships) (connection : Connection) : Memberships :=
  { m with
    hub := m.hub.addConnection connection
    known := m.known.insert connection.connectionId
    rooms := Function.update m.rooms connection.connectionId ∅
    lastSeenSeq := Function.update m.lastSeenSeq connection.connectionId 0 }

/-- The `close` handler of a socket. The object keeps its own room set. -/
def close (m : Memberships) (connectionId : ConnectionId) : Memberships :=
  { m with
    hub := ((m.hub.removeConnection connectionId).1.removeConnectionFromAllRooms connectionId
      (m.rooms connectionId).toList).1 }

def updateRegistry (m : Memberships) (f : Subscriptions → Subscriptions) : Memberships :=
  { m with hub := { m.hub with channelRegistry := m.hub.channelRegistry.map f } }

end Memberships

namespace Node

/-- A node at its start; `redis` is `none` without Redis, else the state of the link. -/
def initial (redis : Option Bool) (presence : Bool) : Node :=
  let channelRegistry := redis.map fun connected => { pubSub := { connected } : Subscriptions }
  { memberships := { hub := { channelRegistry }, presence } }

/-- The frame that greets a new connection. -/
def connectAck (cfg : ServerConfig) (connection : Connection) (tick : Tick) :
    PulseEventEnvelope :=
  { eventId := tick.replyId
    type := .sysConnectAck
    timestamp := .ofInt tick.now
    senderId := "system"
    payload := [("connectionId", .str connection.connectionId),
      ("userId", .str connection.userId), ("instanceId", .str cfg.instanceId),
      ("connectedAt", .num (.ofInt tick.now))] }

def connect (cfg : ServerConfig) (n : Node) (connection : Connection) (tick : Tick) : Node :=
  let n :=
    { n with
      memberships := n.memberships.connect connection
      sockets := Function.update n.sockets connection.connectionId {}
      tokenBuckets := Function.update n.tokenBuckets connection.connectionId
        (.create cfg.inboundRateLimitBurst cfg.inboundRateLimitMax tick.now) }
  n.sendReply connection (some (connectAck cfg connection tick))

def close (n : Node) (connectionId : ConnectionId) : Node :=
  { n with
    memberships := n.memberships.close connectionId
    sockets := Function.update n.sockets connectionId
      { n.sockets connectionId with readyState := .closed } }

def resume (cfg : ServerConfig) (n : Node) (k : Suspended) (i : Nat)
    (online : Option (List UserId)) (tick : Tick) : Node :=
  let m := { n.memberships with suspended := n.memberships.suspended.eraseIdx i }
  MessageDispatcher.runHandler n k.sender
    (MessageDispatcher.continueHandler cfg.toConfig m online tick.reply k)

/-- The `connected` and `disconnected` events of the Redis link. -/
def link (connected : Bool) (s : Subscriptions) : Subscriptions :=
  let pubSub := { s.pubSub with connected }
  { s with pubSub := if connected then pubSub.restoreSubscriptions else pubSub }

/-- A socket does not open again. -/
def transport (n : Node) (connectionId : ConnectionId) (readyState : ReadyState)
    (bufferedAmount : Nat) (sendFails : Bool) : Option Node :=
  let socket := n.sockets connectionId
  if socket.readyState = .open ∨ readyState ≠ .open then
    some { n with
      sockets := Function.update n.sockets connectionId
        { socket with readyState, bufferedAmount, sendFails } }
  else none

def step (cfg : ServerConfig) (n : Node) : NodeEvent → Option Node
  | .connect connection tick =>
      if connection.connectionId ∈ n.memberships.known then none
      else some (n.connect cfg connection tick)
  | .frame connectionId raw tick =>
      (n.getConnection connectionId).map fun sender =>
        MessageDispatcher.dispatchRawMessage cfg n sender raw tick
  | .resume i online tick =>
      (n.memberships.suspended[i]?).map fun k => n.resume cfg k i online tick
  | .close connectionId => (n.getConnection connectionId).map fun _ => n.close connectionId
  | .redisMessage channel raw tick =>
      some (MessageDispatcher.handleInboundRedisEvent cfg n channel raw tick).1
  | .subscriptionSettled i accepted => do
      let s ← n.memberships.hub.channelRegistry
      let s' ← s.settle i accepted
      return { n with memberships := n.memberships.updateRegistry fun _ => s' }
  | .publishSettled =>
      some { n with
        memberships := n.memberships.updateRegistry fun s =>
          { s with pubSub := s.pubSub.publishSettled } }
  | .link connected =>
      some { n with memberships := n.memberships.updateRegistry (link connected) }
  | .setPresenceManager =>
      if n.memberships.presence then none
      else some { n with
        memberships := { n.memberships with presence := true }
        presenceEvents := {} }
  | .transport connectionId readyState bufferedAmount sendFails =>
      n.transport connectionId readyState bufferedAmount sendFails

/-- A frame that names a room. -/
def roomFrame (type : EventType) (roomId : RoomId) (seq : Option Nat) : Json :=
  PulseEventEnvelope.toJson
    { eventId := "0197-frame", type, timestamp := .ofInt 1, senderId := "u", seq
      target := some { roomId := some roomId }, payload := [("text", .str "hello")] }

def directFrame (eventId : EventId) (recipientId : UserId) : Json :=
  PulseEventEnvelope.toJson
    { eventId, type := .directMessage, timestamp := .ofInt 1, senderId := "u"
      target := some { recipientId := some recipientId }, payload := [("text", .str "hello")] }

def batchJoinFrame (rooms : List RoomId) : Json :=
  PulseEventEnvelope.toJson
    { eventId := "0197-batch", type := .roomBatchJoin, timestamp := .ofInt 1, senderId := "u"
      payload := [("rooms", .arr (rooms.map .str))] }

end Node

end Pulse
