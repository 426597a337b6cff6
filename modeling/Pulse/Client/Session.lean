import Pulse.Collections.OrderedMap
import Pulse.Event.Envelope

/-!
# Client session

`PulseClientSession` keeps the frames that await an acknowledgement in a table,
retransmits each of them when its timer expires, and transmits all of them again
on a new connection. Like a node it runs in pieces without interruption: a call of
its user, a timer, an event of one of its sockets, or the rest of a method behind
an `await`. Entries, sockets and timers are named by numbers, in the order of their
creation, since closures refer to them after they left the table.
-/

namespace Pulse

open Collections Js

inductive ClientSessionState
  | connected
  | disconnected
  | reconnectingBackoff
  | connecting
  | authenticating
  | resubscribingRooms
  | flushRetryQueue
  deriving DecidableEq, Repr

structure SessionOptions where
  userId : UserId
  baseDelayMs : Int := 500
  maxDelayMs : Int := 10000
  maxRetries : Nat := 3
  queueCapacity : Nat := 100
  autoReconnect : Bool := true

/-- How a promise was settled. -/
inductive Settlement
  | resolved (ack : PulseEventEnvelope)
  | rejected (message : String)

/-- An in-flight entry, with the promise whose callbacks it holds. -/
structure InFlightEntry where
  envelope : PulseEventEnvelope
  retries : Nat := 0
  timer : Option Nat := none
  settlement : Option Settlement := none

/-- An armed acknowledgement timer, with what its callback refers to. -/
structure AckTimer where
  id : Nat
  correlationId : String
  entry : Nat
  deriving DecidableEq, Repr

structure ClientSocket where
  readyState : ReadyState := .connecting
  sent : List PulseEventEnvelope := []

/-- What a request takes from the identifier generator and the clock. -/
structure Stamp where
  eventId : EventId
  correlationId : String
  now : Int

structure PulseClientSession where
  state : ClientSessionState := .disconnected
  sockets : List ClientSocket := []
  ws : Option Nat := none
  currentSeq : Nat := 0
  lastBackoffDelay : Int := 0
  reconnectAttempt : Nat := 0
  /-- Whether the timer is armed. -/
  reconnectTimer : Bool := false
  connectionTimeoutTimer : Bool := false
  isExplicitlyClosed : Bool := false
  desiredRooms : OrderedSet RoomId := ∅
  entries : List InFlightEntry := []
  inFlightQueue : OrderedMap String Nat := ∅
  ackTimers : List AckTimer := []
  nextTimer : Nat := 0
  /-- Suspended `resubscribeRooms` calls, by the entry they await; `none` is a request that
  was rejected at once. -/
  resubscribing : List (Option Nat) := []
  /-- The number of suspended `disconnect` calls. -/
  disconnecting : Nat := 0

/-- Only the first call of `resolve` or `reject` settles a promise. -/
def InFlightEntry.settle (entry : InFlightEntry) (settlement : Settlement) : InFlightEntry :=
  { entry with
    settlement :=
      match entry.settlement with
      | some first => some first
      | none => some settlement }

namespace PulseClientSession

def setState (s : PulseClientSession) (state : ClientSessionState) : PulseClientSession :=
  { s with state }

def modifyEntry (s : PulseClientSession) (i : Nat) (f : InFlightEntry → InFlightEntry) :
    PulseClientSession :=
  { s with entries := s.entries.modify i f }

/-- `random` is the reading of `randomSource`. -/
def computeNextBackoffDelay (o : SessionOptions) (s : PulseClientSession) (random : ℚ) : Int :=
  if s.reconnectAttempt = 0 ∨ s.lastBackoffDelay = 0 then
    min o.maxDelayMs (o.baseDelayMs + (random * o.baseDelayMs).floor)
  else
    let max' := min o.maxDelayMs (s.lastBackoffDelay * 3)
    let delay := o.baseDelayMs + (random * (max' - o.baseDelayMs : Int)).floor
    min o.maxDelayMs (max o.baseDelayMs delay)

def handleDisconnectOrError (o : SessionOptions) (s : PulseClientSession) (random : ℚ) :
    PulseClientSession :=
  if s.isExplicitlyClosed || !o.autoReconnect then s
  else
    let s := { s with reconnectAttempt := s.reconnectAttempt + 1 }
    { s with
      lastBackoffDelay := s.computeNextBackoffDelay o random
      state := .reconnectingBackoff
      reconnectTimer := true }

/-- The readiness of the current socket. -/
def readyState (s : PulseClientSession) : Option ReadyState :=
  s.ws.bind fun w => (s.sockets[w]?).map (·.readyState)

def setReadyState (s : PulseClientSession) (w : Nat) (readyState : ReadyState) :
    PulseClientSession :=
  { s with sockets := s.sockets.modify w fun socket => { socket with readyState } }

/-- Start to close the current socket. -/
def closeSocket (s : PulseClientSession) : PulseClientSession :=
  match s.ws with
  | none => s
  | some w => if s.readyState = some .closed then s else s.setReadyState w .closing

def transmitFrame (s : PulseClientSession) (envelope : PulseEventEnvelope) : PulseClientSession :=
  match s.ws with
  | none => s
  | some w =>
      if s.readyState = some .open then
        { s with
          sockets := s.sockets.modify w fun socket =>
            { socket with sent := socket.sent ++ [envelope] } }
      else s

def clearTimeout (s : PulseClientSession) (timer : Option Nat) : PulseClientSession :=
  { s with ackTimers := s.ackTimers.filter fun t => some t.id ≠ timer }

def armAckTimeout (s : PulseClientSession) (correlationId : String) (entry : Nat) :
    PulseClientSession :=
  let s := s.modifyEntry entry fun e => { e with timer := some s.nextTimer }
  { s with
    ackTimers := s.ackTimers ++ [{ id := s.nextTimer, correlationId, entry }]
    nextTimer := s.nextTimer + 1 }

/-- The callback of an acknowledgement timer. -/
def ackTimeout (o : SessionOptions) (s : PulseClientSession) (timer : AckTimer) :
    PulseClientSession :=
  match s.entries[timer.entry]? with
  | none => s
  | some entry =>
      if entry.retries < o.maxRetries then
        let s := s.modifyEntry timer.entry fun e => { e with retries := e.retries + 1 }
        (s.transmitFrame entry.envelope).armAckTimeout timer.correlationId timer.entry
      else
        let s := s.clearTimeout entry.timer
        let s := { s with inFlightQueue := s.inFlightQueue.delete timer.correlationId }
        s.modifyEntry timer.entry fun e => e.settle (.rejected
          ("DELIVERY_TIMEOUT: Acknowledgement not received after " ++ toString o.maxRetries ++
            " retries"))

/-- The envelope of a request; `generated` is the id for one that names none. -/
def numbered (s : PulseClientSession) (options : PulseEventEnvelope) (generated : String) :
    PulseEventEnvelope :=
  { options with
    seq := some (options.seq.getD (s.currentSeq + 1))
    correlationId := some (options.correlationId.getD generated) }

/-- Send a request. The result is the error which it throws, nothing for a request without
acknowledgement, or the entry whose promise it returns. -/
def sendEnvelope (o : SessionOptions) (s : PulseClientSession) (options : PulseEventEnvelope)
    (generated : String) : PulseClientSession × Except String (Option Nat) :=
  if s.inFlightQueue.size ≥ o.queueCapacity then
    (s, .error "BUFFER_FULL: Client in-flight queue capacity reached")
  else
    let envelope := s.numbered options generated
    let s := { s with currentSeq := envelope.seq.getD 0 }
    if envelope.ackRequired ≠ some true then (s.transmitFrame envelope, .ok none)
    else
      let correlationId := envelope.correlationId.getD ""
      let i := s.entries.length
      let s := { s with entries := s.entries ++ [({ envelope } : InFlightEntry)] }
      let s := s.armAckTimeout correlationId i
      let s := { s with inFlightQueue := s.inFlightQueue.set correlationId i }
      (s.transmitFrame envelope, .ok (some i))

/-- The envelope of the requests which the session makes itself. -/
def request (o : SessionOptions) (type : EventType) (target : Option EventTarget)
    (payload : Fields) (ackRequired : Bool) (stamp : Stamp) : PulseEventEnvelope :=
  { eventId := stamp.eventId, type, timestamp := .ofInt stamp.now, senderId := o.userId, target
    payload, ackRequired := some ackRequired }

def batchJoinRequest (o : SessionOptions) (rooms : List RoomId) (stamp : Stamp) :
    PulseEventEnvelope :=
  request o .roomBatchJoin none [("rooms", .arr (rooms.map .str))] true stamp

/-- One turn of the loop in `flushRetryQueue`. -/
def flushEntry (s : PulseClientSession) (correlationId : String) (i : Nat) :
    PulseClientSession :=
  match s.entries[i]? with
  | none => s
  | some entry =>
      let s := s.clearTimeout entry.timer
      let s := { s with currentSeq := s.currentSeq + 1 }
      let envelope := { entry.envelope with seq := some s.currentSeq }
      let s := s.modifyEntry i fun e => { e with envelope }
      (s.transmitFrame envelope).armAckTimeout correlationId i

def flushRetryQueue (s : PulseClientSession) : PulseClientSession :=
  let s := s.setState .flushRetryQueue
  s.inFlightQueue.entries.foldl (fun s (correlationId, i) => s.flushEntry correlationId i) s

/-- `resubscribeRooms` up to its `await`. -/
def resubscribeRooms (o : SessionOptions) (s : PulseClientSession) (stamp : Stamp) :
    PulseClientSession :=
  let s := s.setState .resubscribingRooms
  let rooms := s.desiredRooms.toList
  let (s, result) := s.sendEnvelope o (batchJoinRequest o rooms stamp) stamp.correlationId
  { s with
    resubscribing := s.resubscribing ++
      [match result with
        | .ok entry => entry
        | .error _ => none] }

/-- `resubscribeRooms` behind its `await`, whether the request was acknowledged or failed. -/
def resubscribed (s : PulseClientSession) : PulseClientSession :=
  s.flushRetryQueue.setState .connected

/-- The part of `handleIncomingEnvelope` for the first frame of a connection. -/
def handleConnectAck (o : SessionOptions) (s : PulseClientSession) (stamp : Stamp) :
    PulseClientSession :=
  let s :=
    { s with connectionTimeoutTimer := false, reconnectAttempt := 0, lastBackoffDelay := 0 }
  if s.desiredRooms.size > 0 then s.resubscribeRooms o stamp
  else s.flushRetryQueue.setState .connected

/-- The part of `handleIncomingEnvelope` for acknowledgements. -/
def handleAck (s : PulseClientSession) (envelope : PulseEventEnvelope) : PulseClientSession :=
  match envelope.correlationId with
  | none => s
  | some correlationId =>
      if correlationId = "" then s
      else
        match s.inFlightQueue.get? correlationId with
        | none => s
        | some i =>
            let s := s.clearTimeout ((s.entries[i]?).bind (·.timer))
            let s := { s with inFlightQueue := s.inFlightQueue.delete correlationId }
            s.modifyEntry i fun e => e.settle (.resolved envelope)

def handleIncomingEnvelope (o : SessionOptions) (s : PulseClientSession)
    (envelope : PulseEventEnvelope) (stamp : Stamp) : PulseClientSession :=
  if envelope.type = .sysConnectAck then s.handleConnectAck o stamp
  else if envelope.type.isAck then s.handleAck envelope
  else s

/-- `constructed` says whether the constructor of the socket succeeds. -/
def connect (o : SessionOptions) (s : PulseClientSession) (constructed : Bool) (random : ℚ) :
    PulseClientSession :=
  let s :=
    { s with
      isExplicitlyClosed := false, reconnectTimer := false, currentSeq := 0
      state := .connecting }
  if constructed then
    { s with
      sockets := s.sockets ++ [({} : ClientSocket)]
      ws := some s.sockets.length
      connectionTimeoutTimer := true }
  else (s.setState .disconnected).handleDisconnectOrError o random

/-- The callback of the connection timeout. -/
def connectionTimeout (o : SessionOptions) (s : PulseClientSession) (random : ℚ) :
    PulseClientSession :=
  let s := { s with connectionTimeoutTimer := false }
  if s.state = .connecting ∨ s.state = .authenticating then
    (s.closeSocket.setState .disconnected).handleDisconnectOrError o random
  else s

/-- The `close` handler of a socket. -/
def handleClose (o : SessionOptions) (s : PulseClientSession) (w : Nat) (random : ℚ) :
    PulseClientSession :=
  let wasConnected := decide (s.state = .connected)
  let s := (s.setReadyState w .closed).setState .disconnected
  let s := { s with connectionTimeoutTimer := false }
  if wasConnected && !s.isExplicitlyClosed then s.handleDisconnectOrError o random else s

/-- The `error` handler of a socket. -/
def handleError (o : SessionOptions) (s : PulseClientSession) (w : Nat) (random : ℚ) :
    PulseClientSession :=
  let s := s.setReadyState w .closing
  if s.state = .connecting then
    { s with connectionTimeoutTimer := false, state := .disconnected }.handleDisconnectOrError o
      random
  else s

/-- One turn of the loop in `disconnect`. -/
def rejectEntry (s : PulseClientSession) (i : Nat) : PulseClientSession :=
  (s.clearTimeout ((s.entries[i]?).bind (·.timer))).modifyEntry i fun e =>
    e.settle (.rejected "SESSION_CLOSED: Client session was disconnected")

/-- `disconnect` up to its `await`. -/
def disconnect (s : PulseClientSession) : PulseClientSession :=
  let s :=
    { s with isExplicitlyClosed := true, reconnectTimer := false, connectionTimeoutTimer := false }
  let s := s.inFlightQueue.entries.foldl (fun s (_, i) => s.rejectEntry i) s
  let s : PulseClientSession := { s with inFlightQueue := ∅ }
  if s.readyState = some .open ∨ s.readyState = some .connecting then
    { s.closeSocket with disconnecting := s.disconnecting + 1 }
  else { s with ws := none, state := .disconnected }

end PulseClientSession

inductive SessionEvent
  | connect (constructed : Bool) (random : ℚ)
  | sendEnvelope (options : PulseEventEnvelope) (generated : String)
  | joinRoom (roomId : RoomId) (stamp : Stamp)
  | joinRooms (rooms : List RoomId) (stamp : Stamp)
  | leaveRoom (roomId : RoomId) (stamp : Stamp)
  | sendRoomMessage (roomId : RoomId) (payload : Fields) (ackRequired : Bool) (stamp : Stamp)
  | sendDirectMessage (recipientId : UserId) (payload : Fields) (ackRequired : Bool)
      (stamp : Stamp)
  | disconnect
  /-- The rest of a suspended `disconnect`. -/
  | disconnected
  /-- The rest of the `i`-th suspended `resubscribeRooms`. -/
  | resubscribed (i : Nat)
  /-- The acknowledgement timer with this id expires. -/
  | ackTimeout (timer : Nat)
  | reconnectTimeout (constructed : Bool) (random : ℚ)
  | connectionTimeout (random : ℚ)
  | opened (w : Nat)
  | message (w : Nat) (envelope : PulseEventEnvelope) (stamp : Stamp)
  /-- The peer starts to close a socket. -/
  | closing (w : Nat)
  | closed (w : Nat) (random : ℚ)
  | error (w : Nat) (random : ℚ)

namespace PulseClientSession

/-- Whether the entry's promise is settled; a request that failed at once is. -/
def isSettled (s : PulseClientSession) : Option Nat → Bool
  | none => true
  | some i => (s.entries[i]?).any fun entry => entry.settlement.isSome

/-- The state of a socket satisfies a condition. -/
def socketIs (s : PulseClientSession) (w : Nat) (p : ReadyState → Bool) : Bool :=
  (s.sockets[w]?).any fun socket => p socket.readyState

def step (o : SessionOptions) (s : PulseClientSession) :
    SessionEvent → Option PulseClientSession
  | .connect constructed random => some (s.connect o constructed random)
  | .sendEnvelope options generated => some (s.sendEnvelope o options generated).1
  | .joinRoom roomId stamp =>
      let s := { s with desiredRooms := s.desiredRooms.insert roomId }
      some (s.sendEnvelope o (request o .roomJoin (some { roomId := some roomId }) [] true stamp)
        stamp.correlationId).1
  | .joinRooms rooms stamp =>
      let s := { s with desiredRooms := rooms.foldl OrderedSet.insert s.desiredRooms }
      some (s.sendEnvelope o (batchJoinRequest o rooms stamp) stamp.correlationId).1
  | .leaveRoom roomId stamp =>
      let s := { s with desiredRooms := s.desiredRooms.erase roomId }
      some (s.sendEnvelope o (request o .roomLeave (some { roomId := some roomId }) [] true stamp)
        stamp.correlationId).1
  | .sendRoomMessage roomId payload ackRequired stamp =>
      some (s.sendEnvelope o (request o .roomMessage (some { roomId := some roomId }) payload
        ackRequired stamp) stamp.correlationId).1
  | .sendDirectMessage recipientId payload ackRequired stamp =>
      some (s.sendEnvelope o (request o .directMessage (some { recipientId := some recipientId })
        payload ackRequired stamp) stamp.correlationId).1
  | .disconnect => some s.disconnect
  | .disconnected =>
      if s.disconnecting = 0 then none
      else some { s with
        disconnecting := s.disconnecting - 1, ws := none, state := .disconnected }
  | .resubscribed i =>
      (s.resubscribing[i]?).bind fun awaited =>
        if s.isSettled awaited then
          some { s with resubscribing := s.resubscribing.eraseIdx i }.resubscribed
        else none
  | .ackTimeout timer =>
      (s.ackTimers.find? fun t => t.id = timer).map fun t =>
        (s.clearTimeout (some timer)).ackTimeout o t
  | .reconnectTimeout constructed random =>
      if s.reconnectTimer then
        let s := { s with reconnectTimer := false }
        some (if s.isExplicitlyClosed then s else s.connect o constructed random)
      else none
  | .connectionTimeout random =>
      if s.connectionTimeoutTimer then some (s.connectionTimeout o random) else none
  | .opened w =>
      if s.socketIs w (· = .connecting) then
        some ((s.setReadyState w .open).setState .authenticating)
      else none
  | .message w envelope stamp =>
      if s.socketIs w fun r => r = .open || r = .closing then
        some (s.handleIncomingEnvelope o envelope stamp)
      else none
  | .closing w =>
      if s.socketIs w (· = .open) then some (s.setReadyState w .closing) else none
  | .closed w random =>
      if s.socketIs w (· ≠ .closed) then some (s.handleClose o w random) else none
  | .error w random =>
      if s.socketIs w (· ≠ .closed) then some (s.handleError o w random) else none

end PulseClientSession

end Pulse
