import Pulse.Redis.PresenceLuaScripts

/-!
# Presence manager

The calls of a presence manager that read or write Redis, each at the instant at which
Redis executes it. A call which is refused for its identifiers changes nothing.
-/

namespace Pulse

open Collections Js

/-- The options of a presence manager, with the defaults of its constructor. -/
structure PresenceManagerOptions where
  presenceTtlMs : Score := 60000
  presenceFlushIntervalMs : Score := 15000
  keySafeguardTtlSec : Int := DEFAULT_KEY_SAFEGUARD_TTL_SEC

inductive PresenceCall
  | registerConnection (userId : UserId) (connectionId : ConnectionId)
  | removeConnection (userId : UserId) (connectionId : ConnectionId)
  /-- The renewal of all connections which are active on the node. -/
  | flushLeaseRenewals (active : List (UserId × ConnectionId))
  | getUserConnectionCount (userId : UserId)
  | pruneExpired (userId : UserId)
  | getRoomRoster (roomId : RoomId)
  | addRoomMember (roomId : RoomId) (userId : UserId)
  | removeRoomMember (roomId : RoomId) (userId : UserId)

/-- A call of the manager of an instance. -/
structure PresenceOp where
  instanceId : String
  now : ℚ
  call : PresenceCall

inductive PresenceReply
  /-- The result of a script: 1 for a transition of the user, else 0. -/
  | transition (result : Nat)
  | renewed (leases : Nat)
  | count (connections : Nat)
  | pruned (leases : Nat)
  /-- The users of a roster, not yet sorted. -/
  | roster (userIds : List UserId)
  | done
  | failed (message : String)
  deriving DecidableEq, Repr

/-- The key and the member which stand for a lease. -/
def leaseKey (instanceId : String) (userId : UserId) (connectionId : ConnectionId) :
    Except String (String × String) := do
  let userKey ← getPresenceUserKey userId
  let member ← formatPresenceMember instanceId connectionId
  return (userKey, member)

namespace PresenceStore

def registerConnection (options : PresenceManagerOptions) (s : PresenceStore)
    (instanceId : String) (userId : UserId) (connectionId : ConnectionId) (now : ℚ) :
    Except String (PresenceStore × Nat) :=
  if userId = "" ∨ connectionId = "" then
    .error "userId and connectionId are required for presence registration"
  else executeRegisterPresence s userId instanceId connectionId (now + options.presenceTtlMs)
    now options.keySafeguardTtlSec

def removeConnection (options : PresenceManagerOptions) (s : PresenceStore)
    (instanceId : String) (userId : UserId) (connectionId : ConnectionId) (now : ℚ) :
    Except String (PresenceStore × Nat) :=
  if userId = "" ∨ connectionId = "" then
    .error "userId and connectionId are required for presence removal"
  else executeRemovePresence s userId instanceId connectionId now options.keySafeguardTtlSec

/-- ZADD of every lease of the pipeline. -/
def addLeases (s : PresenceStore) (now : ℚ) (expireAt : Score) (leases : List (String × String)) :
    PresenceStore :=
  leases.foldl (fun s lease =>
    s.setUser lease.1 ((s.users lease.1).zadd now lease.2 expireAt)) s

/-- EXPIRE of every touched key of the pipeline. -/
def expireKeys (s : PresenceStore) (now : ℚ) (deadline : Score) (keys : List String) :
    PresenceStore :=
  keys.foldl (fun s key => s.setUser key ((s.users key).expire now deadline)) s

/-- The pipeline of a flush: ZADD of every lease, then EXPIRE of every touched key. -/
def execRenewals (options : PresenceManagerOptions) (s : PresenceStore) (expireAt : Score)
    (leases : List (String × String)) (now : ℚ) : PresenceStore :=
  let touchedUserKeys := (leases.map Prod.fst).foldl OrderedSet.insert ∅
  let s := s.addLeases now expireAt leases
  s.expireKeys now (keyDeadline now options.keySafeguardTtlSec) touchedUserKeys.toList

/-- What Redis executes of a flush which finds no other under way, at the instant of the call. -/
def renewLeases (options : PresenceManagerOptions) (s : PresenceStore)
    (instanceId : String) (active : List (UserId × ConnectionId)) (now : ℚ) :
    Except String (PresenceStore × Nat) :=
  if active = [] then .ok (s, 0)
  else do
    let leases ← active.mapM fun conn => leaseKey instanceId conn.1 conn.2
    return (s.execRenewals options (now + options.presenceTtlMs) leases now, active.length)

/-- ZREMRANGEBYSCORE on the key of a user. -/
def pruneKey (s : PresenceStore) (userKey : String) (now : ℚ) : PresenceStore :=
  s.setUser userKey ((s.users userKey).zremrangebyscore now now)

def getUserConnectionCount (s : PresenceStore) (userId : UserId) (now : ℚ) :
    Except String (PresenceStore × Nat) := do
  let userKey ← getPresenceUserKey userId
  let s := s.pruneKey userKey now
  return (s, (s.users userKey).zcard now)

/-- The result counts the removed members. -/
def pruneExpired (s : PresenceStore) (userId : UserId) (now : ℚ) :
    Except String (PresenceStore × Nat) := do
  let userKey ← getPresenceUserKey userId
  let pruned := s.pruneKey userKey now
  return (pruned, (s.users userKey).zcard now - (pruned.users userKey).zcard now)

def getRoomRoster (s : PresenceStore) (roomId : RoomId) (now : ℚ) :
    Except String (PresenceStore × List UserId) :=
  if trim roomId = "" then .ok (s, [])
  else executeGetRoomPresenceRoster s (trim roomId) now

def addRoomMember (s : PresenceStore) (roomId : RoomId) (userId : UserId) :
    Except String PresenceStore :=
  if trim roomId = "" ∨ trim userId = "" then .ok s
  else do
    let roomKey ← getRoomMembersKey (trim roomId)
    return s.setRoom roomKey ((s.rooms roomKey).insert (trim userId))

def removeRoomMember (s : PresenceStore) (roomId : RoomId) (userId : UserId) :
    Except String PresenceStore :=
  if trim roomId = "" ∨ trim userId = "" then .ok s
  else do
    let roomKey ← getRoomMembersKey (trim roomId)
    return s.setRoom roomKey ((s.rooms roomKey).erase (trim userId))

def perform (options : PresenceManagerOptions) (s : PresenceStore) (op : PresenceOp) :
    Except String (PresenceStore × PresenceReply) :=
  match op.call with
  | .registerConnection userId connectionId =>
      (s.registerConnection options op.instanceId userId connectionId op.now).map
        fun (s, result) => (s, .transition result)
  | .removeConnection userId connectionId =>
      (s.removeConnection options op.instanceId userId connectionId op.now).map
        fun (s, result) => (s, .transition result)
  | .flushLeaseRenewals active =>
      (s.renewLeases options op.instanceId active op.now).map
        fun (s, leases) => (s, .renewed leases)
  | .getUserConnectionCount userId =>
      (s.getUserConnectionCount userId op.now).map fun (s, connections) => (s, .count connections)
  | .pruneExpired userId =>
      (s.pruneExpired userId op.now).map fun (s, leases) => (s, .pruned leases)
  | .getRoomRoster roomId =>
      (s.getRoomRoster roomId op.now).map fun (s, userIds) => (s, .roster userIds)
  | .addRoomMember roomId userId => (s.addRoomMember roomId userId).map fun s => (s, .done)
  | .removeRoomMember roomId userId => (s.removeRoomMember roomId userId).map fun s => (s, .done)

/-- The manager logs an error and goes on. -/
def step (options : PresenceManagerOptions) (s : PresenceStore) (op : PresenceOp) :
    PresenceStore × PresenceReply :=
  match s.perform options op with
  | .ok result => result
  | .error message => (s, .failed message)

end PresenceStore

/-- A call of `flushLeaseRenewals` which awaits its pipeline. -/
structure PendingFlush where
  leases : List (String × String)
  expireAt : Score
  activeConnections : Nat

inductive FlushOutcome
  | returned (renewedLeases : Nat)
  | awaits (flush : PendingFlush)

/-- The variables of a manager which its flushes read and write. -/
structure PresenceManager where
  instanceId : String := "pulse-node-1"
  isFlushing : Bool := false

namespace PresenceManager

/-- A call up to its `await`. One that does not come to it takes the flag back in `finally`. -/
def flushLeaseRenewals (options : PresenceManagerOptions) (m : PresenceManager)
    (active : List (UserId × ConnectionId)) (nowMs : ℚ) : PresenceManager × FlushOutcome :=
  if m.isFlushing then (m, .returned 0)
  else
    let m := { m with isFlushing := true }
    if active = [] then ({ m with isFlushing := false }, .returned 0)
    else
      match active.mapM fun conn => leaseKey m.instanceId conn.1 conn.2 with
      | .error _ => ({ m with isFlushing := false }, .returned 0)
      | .ok leases =>
          (m, .awaits {
            leases, expireAt := nowMs + options.presenceTtlMs, activeConnections := active.length })

/-- The rest of the call, when `pipeline.exec()` has come to its end or was rejected. -/
def resumeFlush (m : PresenceManager) (flush : PendingFlush) (executed : Bool) :
    PresenceManager × Nat :=
  ({ m with isFlushing := false }, if executed then flush.activeConnections else 0)

end PresenceManager

end Pulse
