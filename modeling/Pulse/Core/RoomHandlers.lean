import Pulse.Core.Hub
import Pulse.Event.Validator

/-!
# Room handlers

The dispatcher's handlers for joining and leaving rooms, cut at their `await`s.
Each piece runs without interruption and ends either with the reply for the
sender or by suspending the rest of the handler until a presence call answers;
other events may run in between. `Memberships` is the state which these pieces
share: the managers of the node and the fields of the connection objects that
the handlers read and write.
-/

namespace Pulse

open Collections Js

structure Config where
  instanceId : String
  maxRoomsPerConnection : Nat := 256
  maxRoomIdLength : Nat := 128

/-- Local variables of a batch join which is suspended inside its loop. -/
structure BatchJoin where
  /-- The entries behind the one that was joined last. -/
  remaining : List Json
  joinedRooms : List RoomId
  currentCount : Nat
  newlyAdded : Nat

/-- The rest of a handler that awaits a presence call. -/
inductive Suspended
  | addRoomMember (sender : Connection) (envelope : PulseEventEnvelope) (roomId : RoomId)
  | getRoomRoster (sender : Connection) (envelope : PulseEventEnvelope) (roomId : RoomId)
  | batchAddRoomMember (sender : Connection) (envelope : PulseEventEnvelope) (batch : BatchJoin)
  | removeRoomMember (sender : Connection) (envelope : PulseEventEnvelope) (roomId : RoomId)

namespace Suspended

def sender : Suspended → Connection
  | .addRoomMember sender _ _ => sender
  | .getRoomRoster sender _ _ => sender
  | .batchAddRoomMember sender _ _ => sender
  | .removeRoomMember sender _ _ => sender

def envelope : Suspended → PulseEventEnvelope
  | .addRoomMember _ envelope _ => envelope
  | .getRoomRoster _ envelope _ => envelope
  | .batchAddRoomMember _ envelope _ => envelope
  | .removeRoomMember _ envelope _ => envelope

end Suspended

structure Memberships where
  hub : Hub := {}
  /-- Whether the dispatcher has a presence manager. -/
  presence : Bool := false
  /-- The ids of all connection objects created so far. -/
  known : OrderedSet ConnectionId := ∅
  /-- The own room set of each connection object. -/
  rooms : ConnectionId → OrderedSet RoomId := fun _ => ∅
  lastSeenSeq : ConnectionId → Nat := fun _ => 0
  suspended : List Suspended := []

namespace Memberships

/-- `roomManager.joinRoom` and the sender's own `joinRoom`. -/
def join (m : Memberships) (roomId : RoomId) (sender : ConnectionId) : Memberships :=
  { m with
    hub := (m.hub.joinRoom roomId sender).1
    rooms := Function.update m.rooms sender ((m.rooms sender).insert roomId) }

/-- `roomManager.leaveRoom` and the sender's own `leaveRoom`. -/
def leave (m : Memberships) (roomId : RoomId) (sender : ConnectionId) : Memberships :=
  { m with
    hub := (m.hub.leaveRoom roomId sender).1
    rooms := Function.update m.rooms sender ((m.rooms sender).erase roomId) }

/-- `if (envelope.seq !== undefined) sender.lastSeenSeq = envelope.seq`. -/
def updateSeq (m : Memberships) (sender : ConnectionId) (envelope : PulseEventEnvelope) :
    Memberships :=
  match envelope.seq with
  | some seq => { m with lastSeenSeq := Function.update m.lastSeenSeq sender seq }
  | none => m

def suspend (m : Memberships) (k : Suspended) : Memberships :=
  { m with suspended := m.suspended ++ [k] }

/-- Whether room membership is reported to the presence manager, and awaited. -/
def reportsPresence (m : Memberships) (sender : Connection) : Bool :=
  m.presence && sender.userId != ""

/-- The local roster provider wired to the presence manager. -/
def localRoster (m : Memberships) (roomId : RoomId) : List UserId :=
  ((m.hub.roomManager.getRoomConnectionIds roomId).filterMap fun connectionId =>
    (m.hub.connectionManager.getConnection connectionId).map Connection.userId).filter
      fun userId => userId != ""

end Memberships

/-- An answer of the node to a frame. -/
def systemReply (envelope : PulseEventEnvelope) (type : EventType) (target : Option EventTarget)
    (payload : Fields) (fresh : Fresh) : PulseEventEnvelope :=
  { eventId := fresh.eventId
    type
    timestamp := .ofInt fresh.now
    senderId := "system"
    correlationId := some envelope.replyCorrelationId
    target
    payload }

def errorPayload (code message : String) : Fields :=
  [("code", .str code), ("message", .str message)]

/-- A frame of type `SYS_ERROR` for a request. -/
def errorReply (envelope : PulseEventEnvelope) (target : Option EventTarget)
    (code message : String) (fresh : Fresh) : PulseEventEnvelope :=
  systemReply envelope .sysError target (errorPayload code message) fresh

def jsonNat (n : Nat) : Json := .num (.ofInt n)

namespace MessageDispatcher

/-- The character class of room ids. -/
def isRoomIdChar (c : Char) : Bool :=
  c.isAlphanum || c == ':' || c == '_' || c == '.' || c == '-'

/-- The room id check of both join handlers. -/
def isValidRoomId (cfg : Config) (roomId : RoomId) : Bool :=
  roomId != "" && decide (Js.length roomId ≤ cfg.maxRoomIdLength) &&
    roomId.toList.all isRoomIdChar

def maxRoomsMessage (cfg : Config) : String :=
  "Maximum room subscription limit (" ++ toString cfg.maxRoomsPerConnection ++
    ") exceeded for this connection."

/-- Distinct user ids in the order of `sort()`. -/
def uniqueSorted (userIds : List UserId) : List UserId :=
  userIds.dedup.insertionSort Js.le

def rosterFields (roster : List UserId) : Fields :=
  [("members", .arr (roster.map .str)), ("totalOnline", jsonNat roster.length)]

/-- The acknowledgement of a join; the roster is there on a node with presence. -/
def roomJoinAck (m : Memberships) (envelope : PulseEventEnvelope) (roomId : RoomId)
    (roster : Option (List UserId)) (fresh : Fresh) : PulseEventEnvelope :=
  let members := jsonNat (m.hub.roomManager.getConnectionCountInRoom roomId)
  systemReply envelope .roomJoinAck (some { roomId := some roomId })
    ([("roomId", .str roomId), ("status", .str "JOINED"), ("memberCount", members)] ++
      match roster with
      | none => []
      | some userIds => rosterFields userIds ++
          [("roster", .obj (("roomId", .str (trim roomId)) :: rosterFields userIds))])
    fresh

/-- `handleRoomJoin` behind its first `await`. -/
def roomJoinAdded (m : Memberships) (sender : Connection) (envelope : PulseEventEnvelope)
    (roomId : RoomId) (fresh : Fresh) : Memberships × Option PulseEventEnvelope :=
  let m := m.updateSeq sender.connectionId envelope
  if m.presence then (m.suspend (.getRoomRoster sender envelope roomId), none)
  else (m, some (roomJoinAck m envelope roomId none fresh))

def handleRoomJoin (cfg : Config) (m : Memberships) (sender : Connection)
    (envelope : PulseEventEnvelope) (fresh : Fresh) :
    Memberships × Option PulseEventEnvelope :=
  let roomId := envelope.targetRoomId.getD ""
  let rooms := m.rooms sender.connectionId
  if !isValidRoomId cfg roomId then
    (m, some (errorReply envelope (some { roomId := some roomId }) "INVALID_ROOM_ID"
      ("Room ID exceeds maximum length (" ++ toString cfg.maxRoomIdLength ++
        ") or contains invalid characters.") fresh))
  else if roomId ∉ rooms ∧ rooms.size ≥ cfg.maxRoomsPerConnection then
    (m, some (errorReply envelope (some { roomId := some roomId }) "MAX_ROOMS_EXCEEDED"
      (maxRoomsMessage cfg) fresh))
  else
    let m := m.join roomId sender.connectionId
    if m.reportsPresence sender then (m.suspend (.addRoomMember sender envelope roomId), none)
    else roomJoinAdded m sender envelope roomId fresh

/-- What `handleRoomBatchJoin` does behind its loop. -/
def batchJoinDone (m : Memberships) (sender : Connection) (envelope : PulseEventEnvelope)
    (joinedRooms : List RoomId) (fresh : Fresh) : Memberships × Option PulseEventEnvelope :=
  (m.updateSeq sender.connectionId envelope,
    some (systemReply envelope .roomBatchJoinAck none
      [("joinedRooms", .arr (joinedRooms.map .str)), ("totalJoined", jsonNat joinedRooms.length)]
      fresh))

/-- The room which an entry of the batch names; the empty string if it is no string. -/
def batchEntry : Json → RoomId
  | .str s => trim s
  | _ => ""

/-- The loop of `handleRoomBatchJoin` over its remaining entries. -/
def batchJoinLoop (cfg : Config) (sender : Connection) (envelope : PulseEventEnvelope)
    (currentCount : Nat) (fresh : Fresh) :
    List Json → Memberships → List RoomId → Nat → Memberships × Option PulseEventEnvelope
  | [], m, joinedRooms, _ => batchJoinDone m sender envelope joinedRooms fresh
  | entry :: rest, m, joinedRooms, newlyAdded =>
      let roomId := batchEntry entry
      let isNew := roomId ∉ m.rooms sender.connectionId
      if !isValidRoomId cfg roomId then
        batchJoinLoop cfg sender envelope currentCount fresh rest m joinedRooms newlyAdded
      else if isNew ∧ currentCount + newlyAdded ≥ cfg.maxRoomsPerConnection then
        batchJoinDone m sender envelope joinedRooms fresh
      else
        let newlyAdded := if isNew then newlyAdded + 1 else newlyAdded
        let m := m.join roomId sender.connectionId
        let joinedRooms := joinedRooms ++ [roomId]
        if m.reportsPresence sender then
          (m.suspend (.batchAddRoomMember sender envelope
            { remaining := rest, joinedRooms, currentCount, newlyAdded }), none)
        else batchJoinLoop cfg sender envelope currentCount fresh rest m joinedRooms newlyAdded

def handleRoomBatchJoin (cfg : Config) (m : Memberships) (sender : Connection)
    (envelope : PulseEventEnvelope) (fresh : Fresh) :
    Memberships × Option PulseEventEnvelope :=
  match envelope.payload.get? "rooms" with
  | some (.arr rooms) =>
      let currentCount := (m.rooms sender.connectionId).size
      if currentCount ≥ cfg.maxRoomsPerConnection then
        (m, some (errorReply envelope none "MAX_ROOMS_EXCEEDED" (maxRoomsMessage cfg) fresh))
      else batchJoinLoop cfg sender envelope currentCount fresh rooms m [] 0
  | _ => (m, none)

/-- What `handleRoomLeave` does behind its `await`. -/
def roomLeaveDone (m : Memberships) (sender : Connection) (envelope : PulseEventEnvelope)
    (roomId : RoomId) (fresh : Fresh) : Memberships × Option PulseEventEnvelope :=
  (m.updateSeq sender.connectionId envelope,
    some (systemReply envelope .roomLeaveAck (some { roomId := some roomId })
      [("roomId", .str roomId), ("status", .str "LEFT")] fresh))

def handleRoomLeave (m : Memberships) (sender : Connection) (envelope : PulseEventEnvelope)
    (fresh : Fresh) : Memberships × Option PulseEventEnvelope :=
  let roomId := envelope.targetRoomId.getD ""
  let m := m.leave roomId sender.connectionId
  let hasOther := (m.hub.connectionManager.getConnectionsByUserId sender.userId).any fun c =>
    c.connectionId != sender.connectionId && decide (roomId ∈ m.rooms c.connectionId)
  if m.reportsPresence sender && !hasOther then
    (m.suspend (.removeRoomMember sender envelope roomId), none)
  else roomLeaveDone m sender envelope roomId fresh

/-- The continuation of a suspended handler. Presence calls answer failures by
themselves; for a roster query that is the local roster, `online = none` here. -/
def continueHandler (cfg : Config) (m : Memberships) (online : Option (List UserId))
    (fresh : Fresh) : Suspended → Memberships × Option PulseEventEnvelope
  | .addRoomMember sender envelope roomId => roomJoinAdded m sender envelope roomId fresh
  | .getRoomRoster _ envelope roomId =>
      let roster := uniqueSorted (online.getD (m.localRoster (trim roomId)))
      (m, some (roomJoinAck m envelope roomId (some roster) fresh))
  | .batchAddRoomMember sender envelope batch =>
      batchJoinLoop cfg sender envelope batch.currentCount fresh batch.remaining m
        batch.joinedRooms batch.newlyAdded
  | .removeRoomMember sender envelope roomId => roomLeaveDone m sender envelope roomId fresh

end MessageDispatcher

end Pulse
