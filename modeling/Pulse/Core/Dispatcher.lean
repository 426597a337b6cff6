import Pulse.Core.Node

/-!
# Message dispatcher

`dispatchRawMessage` takes a frame through rate limit, validation, idempotency
check and sequence check, in this order, and hands what is left to the handler of
its type. `judge` is the part up to the handlers; its verdict names the stage that
stopped the frame. `handleInboundRedisEvent` delivers an event of another node.
-/

namespace Pulse

open Collections Js

/-- Why a frame is not even looked at as an event. -/
inductive Refusal
  | rateLimited (abusive : Bool)
  | invalid (error : ValidationError)

/-- Where a frame ends up. -/
inductive Verdict
  | refused (reason : Refusal)
  | conflict (envelope : PulseEventEnvelope)
  | replayed (envelope cachedAck : PulseEventEnvelope)
  | outOfOrder (envelope : PulseEventEnvelope) (seq : Nat)
  | accepted (envelope : PulseEventEnvelope)

namespace Verdict

def accepted? : Verdict → Option PulseEventEnvelope
  | .accepted envelope => some envelope
  | _ => none

theorem accepted?_eq_some {v : Verdict} {envelope : PulseEventEnvelope} :
    v.accepted? = some envelope ↔ v = .accepted envelope := by
  cases v <;> simp [accepted?]

end Verdict

namespace MessageDispatcher

/-- The sequence check, made for new events only. -/
def checkSequence (n : Node) (sender : Connection) (envelope : PulseEventEnvelope) : Verdict :=
  match envelope.seq with
  | none => .accepted envelope
  | some seq =>
      if seq < n.memberships.lastSeenSeq sender.connectionId then .outOfOrder envelope seq
      else .accepted envelope

/-- The check of messages against the idempotency cache, before the sequence check. -/
def checkMessage (cfg : ServerConfig) (n : Node) (sender : Connection)
    (envelope : PulseEventEnvelope) (now : Int) : Node × Verdict :=
  if envelope.type.isMessage then
    let (manager, result) := n.idempotencyManager.check cfg.idempotency envelope.eventId
      envelope.payload now
    let n := { n with idempotencyManager := manager }
    if result.isDuplicate && result.hasConflict then (n, .conflict envelope)
    else match result.isDuplicate, result.cachedAck with
      | true, some cachedAck => (n, .replayed envelope cachedAck)
      | _, _ => (n, checkSequence n sender envelope)
  else (n, checkSequence n sender envelope)

/-- The rate limit and the validation of a frame. -/
def receive (n : Node) (sender : Connection) (raw : Option Json)
    (tick : Tick) : Node × Except Refusal PulseEventEnvelope :=
  let (bucket, granted) := (n.tokenBuckets sender.connectionId).tryConsume tick.now
  if !granted then
    let (bucket, abusive) := bucket.recordViolation tick.now
    ({ n with tokenBuckets := Function.update n.tokenBuckets sender.connectionId bucket },
      .error (.rateLimited abusive))
  else
    let n := { n with tokenBuckets := Function.update n.tokenBuckets sender.connectionId bucket }
    match EventValidator.validateIncoming raw sender.userId tick.frame with
    | .error error => (n, .error (.invalid error))
    | .ok envelope => (n, .ok envelope)

def checkReceived (cfg : ServerConfig) (sender : Connection) (now : Int) :
    Node × Except Refusal PulseEventEnvelope → Node × Verdict
  | (n, .error reason) => (n, .refused reason)
  | (n, .ok envelope) => checkMessage cfg n sender envelope now

def judge (cfg : ServerConfig) (n : Node) (sender : Connection) (raw : Option Json)
    (tick : Tick) : Node × Verdict :=
  checkReceived cfg sender tick.now (receive n sender raw tick)

/-- The cached acknowledgement, addressed to the request at hand. -/
def replayAck (envelope cachedAck : PulseEventEnvelope) : PulseEventEnvelope :=
  { cachedAck with
    correlationId :=
      match envelope.correlationId with
      | some c => if c = "" then cachedAck.correlationId else some c
      | none => cachedAck.correlationId }

/-- The acknowledgement of a message which this node accepted. -/
def deliveryAck (envelope : PulseEventEnvelope) (target : EventTarget) (details : Fields)
    (fresh : Fresh) : PulseEventEnvelope :=
  systemReply envelope .deliveryAck (some target)
    ([("targetEventId", .str envelope.eventId), ("status", .str "ACCEPTED")] ++ details) fresh

/-- The other members of a room that are registered. -/
def roomRecipients (n : Node) (roomId : RoomId) (sender : ConnectionId) : List Connection :=
  ((n.memberships.hub.roomManager.getRoomConnectionIds roomId).filter (· ≠ sender)).filterMap
    n.getConnection

/-- Broadcast a room message to the other members; the second part acknowledges it. -/
def fanOutRoomMessage (n : Node) (sender : Connection) (envelope : PulseEventEnvelope)
    (tick : Tick) : Node × PulseEventEnvelope :=
  let roomId := envelope.targetRoomId.getD ""
  let (n, deliveredCount) := n.deliver (roomRecipients n roomId sender.connectionId) envelope
  (n, deliveryAck envelope { roomId := some roomId }
    [("recipientCount", jsonNat deliveredCount)] tick.reply)

/-- Deliver a direct message to the connections of its recipient, and acknowledge it. -/
def fanOutDirectMessage (n : Node) (envelope : PulseEventEnvelope) (tick : Tick) :
    Node × PulseEventEnvelope :=
  let recipientId := envelope.targetRecipientId.getD ""
  let recipients := n.memberships.hub.connectionManager.getConnectionsByUserId recipientId
  let (n, deliveredCount) := n.deliver recipients envelope
  (n, deliveryAck envelope { recipientId := some recipientId }
    [("delivered", .bool (decide (deliveredCount > 0))),
      ("recipientConnectionCount", jsonNat deliveredCount)] tick.reply)

/-- Both message handlers end alike: the acknowledgement is recorded and sent, and the
message is published to the other instances. -/
def acknowledge (cfg : ServerConfig) (n : Node) (sender : Connection)
    (envelope ack : PulseEventEnvelope) (channel : Channel) (now : Int) : Node :=
  let n := n.recordAck cfg envelope ack now
  let n := n.sendReply sender (some ack)
  n.publish cfg channel envelope now

/-- The reply to a message for a room in which its sender is not. -/
def unauthorizedReply (envelope : PulseEventEnvelope) (tick : Tick) : PulseEventEnvelope :=
  let roomId := envelope.targetRoomId.getD ""
  errorReply envelope (some { roomId := some roomId }) "UNAUTHORIZED_ROOM_ACCESS"
    ("Cannot send message: Connection is not a member of room '" ++ roomId ++ "'") tick.reply

def handleRoomMessage (cfg : ServerConfig) (n : Node) (sender : Connection)
    (envelope : PulseEventEnvelope) (tick : Tick) : Node :=
  let roomId := envelope.targetRoomId.getD ""
  if roomId ∉ n.memberships.rooms sender.connectionId then
    n.sendReply sender (some (unauthorizedReply envelope tick))
  else
    let n := { n with memberships := n.memberships.updateSeq sender.connectionId envelope }
    let (n, ack) := fanOutRoomMessage n sender envelope tick
    acknowledge cfg n sender envelope ack (CHANNEL_PREFIX_ROOM ++ roomId) tick.now

def handleDirectMessage (cfg : ServerConfig) (n : Node) (sender : Connection)
    (envelope : PulseEventEnvelope) (tick : Tick) : Node :=
  let n := { n with memberships := n.memberships.updateSeq sender.connectionId envelope }
  let (n, ack) := fanOutDirectMessage n envelope tick
  acknowledge cfg n sender envelope ack
    (CHANNEL_PREFIX_USER ++ envelope.targetRecipientId.getD "") tick.now

def pongReply (cfg : ServerConfig) (envelope : PulseEventEnvelope) (tick : Tick) :
    PulseEventEnvelope :=
  systemReply envelope .sysPong none
    [("instanceId", .str cfg.instanceId), ("receivedAt", .num (.ofInt tick.now))] tick.reply

def handlePing (cfg : ServerConfig) (n : Node) (sender : Connection)
    (envelope : PulseEventEnvelope) (tick : Tick) : Node :=
  let n := { n with memberships := n.memberships.updateSeq sender.connectionId envelope }
  n.sendReply sender (some (pongReply cfg envelope tick))

def handlePong (n : Node) (sender : Connection) (envelope : PulseEventEnvelope) : Node :=
  { n with memberships := n.memberships.updateSeq sender.connectionId envelope }

/-- Run a piece of a room handler and send its reply, if it has one already. -/
def runHandler (n : Node) (sender : Connection)
    (result : Memberships × Option PulseEventEnvelope) : Node :=
  { n with memberships := result.1 }.sendReply sender result.2

/-- The `switch` over the event type. -/
def route (cfg : ServerConfig) (n : Node) (sender : Connection) (envelope : PulseEventEnvelope)
    (tick : Tick) : Node :=
  match envelope.type with
  | .roomJoin =>
      runHandler n sender (handleRoomJoin cfg.toConfig n.memberships sender envelope tick.reply)
  | .roomBatchJoin =>
      runHandler n sender
        (handleRoomBatchJoin cfg.toConfig n.memberships sender envelope tick.reply)
  | .roomLeave => runHandler n sender (handleRoomLeave n.memberships sender envelope tick.reply)
  | .roomMessage => handleRoomMessage cfg n sender envelope tick
  | .directMessage => handleDirectMessage cfg n sender envelope tick
  | .sysPing => handlePing cfg n sender envelope tick
  | .sysPong => handlePong n sender envelope
  | _ => n

/-- The reply to a frame that is not looked at as an event. -/
def refusalReply (tick : Tick) : Refusal → PulseEventEnvelope
  | .rateLimited _ =>
      { eventId := tick.replyId
        type := .sysError
        timestamp := .ofInt tick.now
        senderId := "system"
        payload := errorPayload "RATE_LIMIT_EXCEEDED"
          "Inbound message rate limit exceeded. Slow down." }
  | .invalid error =>
      { eventId := tick.replyId
        type := .sysError
        timestamp := .ofInt tick.now
        senderId := "system"
        correlationId := error.correlationId
        payload := errorPayload error.code error.message }

def conflictReply (envelope : PulseEventEnvelope) (tick : Tick) : PulseEventEnvelope :=
  errorReply envelope none "EVENT_ID_CONFLICT"
    ("Event ID '" ++ envelope.eventId ++
      "' has already been processed with a different payload") tick.reply

def outOfOrderReply (n : Node) (sender : Connection) (envelope : PulseEventEnvelope) (seq : Nat)
    (tick : Tick) : PulseEventEnvelope :=
  errorReply envelope none "INVALID_SEQUENCE_ORDER"
    ("Sequence number " ++ toString seq ++ " is out of order (expected >= " ++
      toString (n.memberships.lastSeenSeq sender.connectionId) ++ ")") tick.reply

/-- Reply to a frame that was stopped, or hand an accepted one to its handler. -/
def answer (cfg : ServerConfig) (sender : Connection) (tick : Tick) : Node × Verdict → Node
  | (n, .refused (.rateLimited abusive)) =>
      let n := n.sendReply sender (some (refusalReply tick (.rateLimited abusive)))
      if abusive then n.closeSocket sender 1008 "Rate limit abuse threshold exceeded" else n
  | (n, .refused (.invalid error)) =>
      n.sendReply sender (some (refusalReply tick (.invalid error)))
  | (n, .conflict envelope) => n.sendReply sender (some (conflictReply envelope tick))
  | (n, .replayed envelope cachedAck) => n.sendReply sender (some (replayAck envelope cachedAck))
  | (n, .outOfOrder envelope seq) =>
      n.sendReply sender (some (outOfOrderReply n sender envelope seq tick))
  | (n, .accepted envelope) => route cfg n sender envelope tick

def dispatchRawMessage (cfg : ServerConfig) (n : Node) (sender : Connection)
    (raw : Option Json) (tick : Tick) : Node :=
  answer cfg sender tick (judge cfg n sender raw tick)

/-- `a || b` for optional strings. -/
def orElse (a b : Option String) : Option String :=
  match a with
  | some s => if s = "" then b else some s
  | none => b

/-- The acknowledgement recorded for an event of another node; it is sent to nobody. -/
def distributedAck (envelope : PulseEventEnvelope) (fresh : Fresh) : PulseEventEnvelope :=
  { eventId := fresh.eventId
    type := .deliveryAck
    timestamp := .ofInt fresh.now
    senderId := "system"
    payload := [("targetEventId", .str envelope.eventId),
      ("status", .str "DISTRIBUTED_ACCEPTED")] }

/-- The connections which share a room with a user: of the hinted rooms if there are any. -/
def presenceTargets (m : Memberships) (userId : UserId) (hintRooms : List Json) :
    OrderedSet ConnectionId :=
  let rooms : List RoomId :=
    if hintRooms.isEmpty then
      m.hub.roomManager.getAllRoomIds.filter fun roomId =>
        (m.hub.roomManager.getRoomConnectionIds roomId).any fun connectionId =>
          (m.hub.connectionManager.getConnection connectionId).any (·.userId = userId)
    else hintRooms.filterMap fun room => EventValidator.stringOf (some room)
  (rooms.flatMap m.hub.roomManager.getRoomConnectionIds).foldl OrderedSet.insert ∅

def deliverRoomScopedPresence (n : Node) (userId : UserId) (envelope : PulseEventEnvelope)
    (hintRooms : List Json) : Node × Nat :=
  let recipients := (presenceTargets n.memberships userId hintRooms).toList.filterMap
    n.getConnection
  n.deliver (recipients.filter fun c => c.userId ≠ "" ∧ c.userId ≠ "anonymous") envelope

/-- `payload.rooms`, as far as one can iterate over it: a string is a list of its characters. -/
def hintRooms (envelope : PulseEventEnvelope) : List Json :=
  match envelope.payload.get? "rooms" with
  | some (.arr rooms) => rooms
  | some (.str s) => s.toList.map fun c => .str (.singleton c)
  | _ => []

/-- The presence branch of `handleInboundRedisEvent`. -/
def handleInboundPresence (n : Node) (envelope : PulseEventEnvelope) : Node × Bool :=
  match EventValidator.stringOf (envelope.payload.get? "userId"),
      EventValidator.stringOf (envelope.payload.get? "status") with
  | some userId, some status =>
      if userId = "" ∨ status = "" then (n, false)
      else if n.memberships.presence && n.presenceEvents.isStale userId envelope.timestamp then
        (n, false)
      else
        let n := if n.memberships.presence then
            { n with
              presenceEvents := (n.presenceEvents.recordEvent userId envelope.timestamp).1 }
          else n
        ((deliverRoomScopedPresence n userId envelope (hintRooms envelope)).1, true)
  | _, _ => (n, false)

/-- Deliver a validated event that is new to this node. -/
def deliverInbound (n : Node) (channel : Channel) (envelope : PulseEventEnvelope) :
    Node × Bool :=
  match envelope.type with
  | .roomMessage =>
      match orElse envelope.targetRoomId (extractRoomId channel) with
      | none => (n, false)
      | some roomId =>
          if roomId = "" then (n, false)
          else
            let recipients :=
              (n.memberships.hub.roomManager.getRoomConnectionIds roomId).filterMap n.getConnection
            ((n.deliver recipients envelope).1, true)
  | .directMessage =>
      match orElse envelope.targetRecipientId (extractUserId channel) with
      | none => (n, false)
      | some recipientId =>
          if recipientId = "" then (n, false)
          else
            let recipients :=
              n.memberships.hub.connectionManager.getConnectionsByUserId recipientId
            ((n.deliver recipients envelope).1, true)
  | .presenceUpdate => handleInboundPresence n envelope
  | _ => (n, true)

/-- An event from a Pub/Sub channel; `raw` is `none` if its text does not parse. The flag
says whether the event was processed. -/
def handleInboundRedisEvent (cfg : ServerConfig) (n : Node) (channel : Channel)
    (raw : Option Json) (tick : Tick) : Node × Bool :=
  match raw with
  | none => (n, false)
  | some parsed =>
      match EventValidator.validateDistributed parsed tick.frame with
      | .error _ => (n, false)
      | .ok envelope =>
          if envelope.originInstanceId = some cfg.instanceId then (n, false)
          else
            let (manager, result) := n.idempotencyManager.check cfg.idempotency
              envelope.eventId envelope.payload tick.now
            let n := { n with idempotencyManager := manager }
            if result.isDuplicate then (n, false)
            else
              let n := n.recordAck cfg envelope (distributedAck envelope tick.reply) tick.now
              deliverInbound n channel envelope

end MessageDispatcher

end Pulse
