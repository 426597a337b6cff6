import Pulse.Core.Idempotency
import Pulse.Core.RoomHandlers
import Pulse.Redis.PresenceEventTracker
import Pulse.Util.TokenBucket

/-!
# State of a node

A node consists of the memberships shared by the room handlers, the sockets and
rate limiters of its connections, and the idempotency cache and presence tracker
of its dispatcher. A socket keeps the frames that it took. Whether and how fast the
peer reads them is left to the environment. The calls of `send` are logged, those
which a socket refuses among them.
-/

namespace Pulse

open Collections Js

structure Socket where
  readyState : ReadyState := .open
  bufferedAmount : Nat := 0
  /-- Whether `send` throws. -/
  sendFails : Bool := false
  sent : List PulseEventEnvelope := []
  /-- Code and reason of the first `close` call. -/
  closeFrame : Option (Nat × String) := none

structure ServerConfig extends Config where
  idempotency : IdempotencyOptions
  inboundRateLimitBurst : ℚ := 50
  inboundRateLimitMax : ℚ := 100

/-- Clock reading and generated identifiers of one uninterrupted piece of work. -/
structure Tick where
  now : Int
  /-- The id given to a frame that names none. -/
  frameId : EventId
  /-- The id of the reply. -/
  replyId : EventId

namespace Tick

def frame (t : Tick) : Fresh := ⟨t.now, t.frameId⟩
def reply (t : Tick) : Fresh := ⟨t.now, t.replyId⟩

end Tick

structure Node where
  memberships : Memberships := {}
  sockets : ConnectionId → Socket := fun _ => {}
  tokenBuckets : ConnectionId → TokenBucket := fun _ => TokenBucket.create 50 100 0
  idempotencyManager : IdempotencyManager := {}
  presenceEvents : PresenceEventTracker := {}
  /-- The log of `send`: every call so far, in order. -/
  handed : List (Connection × PulseEventEnvelope) := []

namespace Node

def getConnection (n : Node) (connectionId : ConnectionId) : Option Connection :=
  n.memberships.hub.connectionManager.getConnection connectionId

/-- `connection.close(code, reason)`. -/
def closeSocket (n : Node) (connection : Connection) (code : Nat) (reason : String) : Node :=
  let socket := n.sockets connection.connectionId
  if socket.readyState = .open ∨ socket.readyState = .connecting then
    { n with
      sockets := Function.update n.sockets connection.connectionId
        { socket with readyState := .closing, closeFrame := some (code, reason) } }
  else n

/-- `connection.send(envelope)`, with the flag it returns. -/
def send (n : Node) (recipient : Connection) (envelope : PulseEventEnvelope) : Node × Bool :=
  let n := { n with handed := n.handed ++ [(recipient, envelope)] }
  let socket := n.sockets recipient.connectionId
  if socket.readyState ≠ .open then (n, false)
  else if socket.bufferedAmount > recipient.maxBufferedAmountBytes then
    (n.closeSocket recipient 1008 "Policy Violation: Buffer overflow / slow consumer", false)
  else if socket.sendFails then (n, false)
  else
    ({ n with
      sockets := Function.update n.sockets recipient.connectionId
        { socket with sent := socket.sent ++ [envelope] } }, true)

/-- Send to one recipient after the other, counting the successful deliveries. -/
def deliver (n : Node) (recipients : List Connection) (envelope : PulseEventEnvelope) :
    Node × Nat :=
  recipients.foldl (fun acc recipient =>
    let (n, delivered) := acc.1.send recipient envelope
    (n, if delivered then acc.2 + 1 else acc.2)) (n, 0)

def sendReply (n : Node) (sender : Connection) (reply : Option PulseEventEnvelope) : Node :=
  match reply with
  | some envelope => (n.send sender envelope).1
  | none => n

def recordAck (cfg : ServerConfig) (n : Node) (envelope ack : PulseEventEnvelope)
    (now : Int) : Node :=
  { n with
    idempotencyManager := n.idempotencyManager.recordAck cfg.idempotency envelope.eventId ack
      envelope.payload now }

/-- Publish to the other instances while the link is up; a refusal is only logged. -/
def publish (cfg : ServerConfig) (n : Node) (channel : Channel) (envelope : PulseEventEnvelope)
    (now : Int) : Node :=
  match n.memberships.hub.channelRegistry with
  | none => n
  | some subscriptions =>
      if subscriptions.pubSub.connected then
        match subscriptions.pubSub.publish channel
            (EventValidator.stampForDistribution envelope cfg.instanceId (.ofInt now)) with
        | .error _ => n
        | .ok pubSub =>
            { n with
              memberships := { n.memberships with
                hub := { n.memberships.hub with
                  channelRegistry := some { subscriptions with pubSub } } } }
      else n

/-- The events which a node published so far. -/
def published (n : Node) : List (Channel × PulseEventEnvelope) :=
  match n.memberships.hub.channelRegistry with
  | none => []
  | some subscriptions => subscriptions.pubSub.published

section frame

@[simp] theorem closeSocket_memberships (n : Node) (connection : Connection) (code : Nat)
    (reason : String) : (n.closeSocket connection code reason).memberships = n.memberships := by
  rw [closeSocket]
  split <;> rfl

@[simp] theorem closeSocket_idempotencyManager (n : Node) (connection : Connection) (code : Nat)
    (reason : String) :
    (n.closeSocket connection code reason).idempotencyManager = n.idempotencyManager := by
  rw [closeSocket]
  split <;> rfl

@[simp] theorem closeSocket_handed (n : Node) (connection : Connection) (code : Nat)
    (reason : String) : (n.closeSocket connection code reason).handed = n.handed := by
  rw [closeSocket]
  split <;> rfl

@[simp] theorem send_memberships (n : Node) (recipient : Connection)
    (envelope : PulseEventEnvelope) :
    (n.send recipient envelope).1.memberships = n.memberships := by
  simp only [send]
  split_ifs <;> simp

@[simp] theorem send_idempotencyManager (n : Node) (recipient : Connection)
    (envelope : PulseEventEnvelope) :
    (n.send recipient envelope).1.idempotencyManager = n.idempotencyManager := by
  simp only [send]
  split_ifs <;> simp

@[simp] theorem send_handed (n : Node) (recipient : Connection)
    (envelope : PulseEventEnvelope) :
    (n.send recipient envelope).1.handed = n.handed ++ [(recipient, envelope)] := by
  simp only [send]
  split_ifs <;> simp

/-- Whatever single sends preserve, a delivery preserves. -/
theorem deliver_induction {P : Node → Prop} {envelope : PulseEventEnvelope}
    (preserved : ∀ n recipient, P n → P (n.send recipient envelope).1) {n : Node}
    (initially : P n) (recipients : List Connection) :
    P (n.deliver recipients envelope).1 := by
  have hfold : ∀ (rs : List Connection) (acc : Node × Nat), P acc.1 →
      P (rs.foldl (fun acc recipient =>
        let (n, delivered) := acc.1.send recipient envelope
        (n, if delivered then acc.2 + 1 else acc.2)) acc).1 := by
    intro rs
    induction rs with
    | nil => exact fun _ hacc => hacc
    | cons r rs ih => exact fun acc hacc => ih _ (preserved acc.1 r hacc)
  exact hfold recipients (n, 0) initially

@[simp] theorem deliver_memberships (n : Node) (recipients : List Connection)
    (envelope : PulseEventEnvelope) :
    (n.deliver recipients envelope).1.memberships = n.memberships := by
  refine deliver_induction (P := fun n' => n'.memberships = n.memberships) ?_ rfl recipients
  intro n' recipient h
  rw [send_memberships, h]

@[simp] theorem deliver_idempotencyManager (n : Node) (recipients : List Connection)
    (envelope : PulseEventEnvelope) :
    (n.deliver recipients envelope).1.idempotencyManager = n.idempotencyManager := by
  refine deliver_induction (P := fun n' => n'.idempotencyManager = n.idempotencyManager) ?_ rfl
    recipients
  intro n' recipient h
  rw [send_idempotencyManager, h]

@[simp] theorem sendReply_memberships (n : Node) (sender : Connection)
    (reply : Option PulseEventEnvelope) :
    (n.sendReply sender reply).memberships = n.memberships := by
  cases reply with
  | none => rfl
  | some envelope => exact send_memberships n sender envelope

@[simp] theorem sendReply_idempotencyManager (n : Node) (sender : Connection)
    (reply : Option PulseEventEnvelope) :
    (n.sendReply sender reply).idempotencyManager = n.idempotencyManager := by
  cases reply with
  | none => rfl
  | some envelope => exact send_idempotencyManager n sender envelope

end frame

end Node

end Pulse
