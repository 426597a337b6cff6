import Pulse.Js.Json

/-!
# Event envelopes

The frame format shared by clients, nodes and the Pub/Sub channels, and the states
of the WebSockets that carry it. Optional fields are `none` where the source leaves
them undefined; `toJson` is what a reader obtains after `JSON.stringify` and
`JSON.parse`.
-/

namespace Pulse

abbrev ConnectionId := String
abbrev UserId := String
abbrev RoomId := String
abbrev EventId := String
abbrev Channel := String

inductive ReadyState
  | connecting
  | open
  | closing
  | closed
  deriving DecidableEq, Repr

inductive EventType
  | sysConnectAck
  | sysPing
  | sysPong
  | sysError
  | sysShutdown
  | roomJoin
  | roomJoinAck
  | roomLeave
  | roomLeaveAck
  | roomBatchJoin
  | roomBatchJoinAck
  | roomMessage
  | directMessage
  | presenceUpdate
  | roomRoster
  | deliveryAck
  deriving DecidableEq, Repr

namespace EventType

def text : EventType → String
  | sysConnectAck => "SYS_CONNECT_ACK"
  | sysPing => "SYS_PING"
  | sysPong => "SYS_PONG"
  | sysError => "SYS_ERROR"
  | sysShutdown => "SYS_SHUTDOWN"
  | roomJoin => "ROOM_JOIN"
  | roomJoinAck => "ROOM_JOIN_ACK"
  | roomLeave => "ROOM_LEAVE"
  | roomLeaveAck => "ROOM_LEAVE_ACK"
  | roomBatchJoin => "ROOM_BATCH_JOIN"
  | roomBatchJoinAck => "ROOM_BATCH_JOIN_ACK"
  | roomMessage => "ROOM_MESSAGE"
  | directMessage => "DIRECT_MESSAGE"
  | presenceUpdate => "PRESENCE_UPDATE"
  | roomRoster => "ROOM_ROSTER"
  | deliveryAck => "DELIVERY_ACK"

/-- `VALID_EVENT_TYPES`. -/
def all : List EventType :=
  [sysConnectAck, sysPing, sysPong, sysError, sysShutdown, roomJoin, roomJoinAck, roomLeave,
    roomLeaveAck, roomBatchJoin, roomBatchJoinAck, roomMessage, directMessage, presenceUpdate,
    roomRoster, deliveryAck]

def ofText? (s : String) : Option EventType := all.find? fun t => t.text = s

@[simp] theorem ofText?_text (t : EventType) : ofText? t.text = some t := by
  cases t <;> rfl

theorem text_of_ofText? {s : String} {t : EventType} (h : ofText? s = some t) : t.text = s := by
  have hfound := List.find?_some h
  rwa [decide_eq_true_eq] at hfound

theorem text_injective : Function.Injective text := by
  intro t t' h
  have hparsed := congrArg ofText? h
  rwa [ofText?_text, ofText?_text, Option.some.injEq] at hparsed

/-- The two types whose events are deduplicated and fanned out to clients. -/
def isMessage : EventType → Bool
  | roomMessage => true
  | directMessage => true
  | _ => false

/-- The types of the frames which settle a request of a client. -/
def isAck : EventType → Bool
  | deliveryAck | roomJoinAck | roomBatchJoinAck | roomLeaveAck => true
  | _ => false

end EventType

structure EventTarget where
  roomId : Option RoomId := none
  recipientId : Option UserId := none
  deriving DecidableEq, Repr

structure PulseEventEnvelope where
  eventId : EventId
  type : EventType
  timestamp : Js.Number
  senderId : String
  seq : Option Nat := none
  target : Option EventTarget := none
  payload : Js.Fields
  correlationId : Option String := none
  ackRequired : Option Bool := none
  originInstanceId : Option String := none
  originTimestampMs : Option Js.Number := none
  deriving Repr

namespace PulseEventEnvelope

open Js

def targetRoomId (e : PulseEventEnvelope) : Option RoomId := e.target.bind (·.roomId)
def targetRecipientId (e : PulseEventEnvelope) : Option UserId := e.target.bind (·.recipientId)

/-- `envelope.correlationId || envelope.eventId`. -/
def replyCorrelationId (e : PulseEventEnvelope) : String :=
  match e.correlationId with
  | some c => if c = "" then e.eventId else c
  | none => e.eventId

/-- The properties of the envelope as its receiver parses it; undefined ones are absent. -/
def fields (e : PulseEventEnvelope) : Fields :=
  [("eventId", .str e.eventId), ("type", .str e.type.text),
    ("timestamp", reparse (.num e.timestamp)), ("senderId", .str e.senderId)] ++
  Fields.property "seq" (e.seq.map fun s => .num (.ofInt s)) ++
  Fields.property "target" (e.target.map fun t =>
    .obj (Fields.property "roomId" (t.roomId.map .str) ++
      Fields.property "recipientId" (t.recipientId.map .str))) ++
  [("payload", reparse (.obj e.payload))] ++
  Fields.property "correlationId" (e.correlationId.map .str) ++
  Fields.property "ackRequired" (e.ackRequired.map .bool) ++
  Fields.property "originInstanceId" (e.originInstanceId.map .str) ++
  Fields.property "originTimestampMs" (e.originTimestampMs.map fun t => reparse (.num t))

def toJson (e : PulseEventEnvelope) : Json := .obj e.fields

end PulseEventEnvelope

/-- The rooms an event names in its payload. -/
def namedRooms (envelope : PulseEventEnvelope) : List Js.Json :=
  match envelope.payload.get? "rooms" with
  | some (.arr rooms) => rooms
  | _ => []

end Pulse
