import Mathlib.Algebra.Order.Ring.Rat
import Mathlib.Algebra.Order.Monoid.WithTop
import Pulse.Collections.OrderedSet
import Pulse.Collections.SortedSet
import Pulse.Event.Envelope
import Pulse.Js.Text

/-!
# Presence scripts

The Redis keys of the distributed presence and the scripts which work on them. Each
script runs atomically. A user has a sorted set of leases, scored by their expiry, and
a room has a set of user ids. Redis and the nodes read one clock, in milliseconds; a
key is gone from the instant on at which its EXPIRE elapses.
-/

namespace Pulse

open Collections Js

/-- The score of a sorted set; `⊤` is `Infinity`. -/
abbrev Score := WithTop ℚ

def PRESENCE_USER_KEY_PREFIX : String := "pulse:presence:user:"
def PRESENCE_ROOM_MEMBERS_PREFIX : String := "pulse:room:"
def DEFAULT_KEY_SAFEGUARD_TTL_SEC : Int := 120

def getPresenceUserKey (userId : UserId) : Except String String :=
  if trim userId = "" then .error "Invalid userId provided for presence key"
  else .ok (PRESENCE_USER_KEY_PREFIX ++ trim userId)

def getRoomMembersKey (roomId : RoomId) : Except String String :=
  if trim roomId = "" then .error "Invalid roomId provided for room members key"
  else .ok (PRESENCE_ROOM_MEMBERS_PREFIX ++ trim roomId ++ ":members")

def formatPresenceMember (instanceId : String) (connectionId : ConnectionId) :
    Except String String :=
  if instanceId = "" ∨ connectionId = "" then
    .error "instanceId and connectionId are required to format presence member"
  else .ok (instanceId ++ ":" ++ connectionId)

/-- The keys of the presence, by their full names. -/
structure PresenceStore where
  users : String → SortedSet String Score := fun _ => ∅
  rooms : String → OrderedSet UserId := fun _ => ∅

namespace PresenceStore

def setUser (s : PresenceStore) (key : String) (leases : SortedSet String Score) :
    PresenceStore :=
  { s with users := Function.update s.users key leases }

def setRoom (s : PresenceStore) (key : String) (members : OrderedSet UserId) : PresenceStore :=
  { s with rooms := Function.update s.rooms key members }

end PresenceStore

/-- When a key expires on which `EXPIRE key keyTtl` is executed. -/
def keyDeadline (now : ℚ) (keyTtl : Int) : Score := ((now + 1000 * keyTtl : ℚ) : Score)

/-- `REGISTER_PRESENCE_LUA`, on the leases of its key. -/
def registerPresence (leases : SortedSet String Score) (member : String) (expireAt : Score)
    (now : ℚ) (keyTtl : Int) : SortedSet String Score × Nat :=
  let leases := leases.zremrangebyscore now now
  let countBefore := leases.zcard now
  let leases := leases.zadd now member expireAt
  let leases := leases.expire now (keyDeadline now keyTtl)
  (leases, if countBefore = 0 then 1 else 0)

/-- `REMOVE_PRESENCE_LUA`, on the leases of its key. -/
def removePresence (leases : SortedSet String Score) (member : String) (now : ℚ)
    (keyTtl : Int) : SortedSet String Score × Nat :=
  let leases := leases.zrem now member
  let leases := leases.zremrangebyscore now now
  let countAfter := leases.zcard now
  if countAfter > 0 then (leases.expire now (keyDeadline now keyTtl), 0) else (∅, 1)

/-- One turn of the loop over the members of a room. -/
def rosterTurn (now : ℚ) (roomKey : String) (acc : PresenceStore × List UserId)
    (userId : UserId) : PresenceStore × List UserId :=
  let userKey := PRESENCE_USER_KEY_PREFIX ++ userId
  let leases := (acc.1.users userKey).zremrangebyscore now now
  let s := acc.1.setUser userKey leases
  if leases.zcard now > 0 then (s, acc.2 ++ [userId])
  else (s.setRoom roomKey ((s.rooms roomKey).erase userId), acc.2)

/-- `table.concat(onlineMembers, ',')`. -/
def concatRoster (userIds : List UserId) : String := String.intercalate "," userIds

/-- `GET_ROOM_PRESENCE_ROSTER_LUA`. -/
def getRoomPresenceRoster (s : PresenceStore) (roomKey : String) (now : ℚ) :
    PresenceStore × String :=
  let (s, onlineMembers) := (s.rooms roomKey).toList.foldl (rosterTurn now roomKey) (s, [])
  (s, concatRoster onlineMembers)

/-- `result.split(',').filter(Boolean)`, and the empty list for a blank result. -/
def splitRoster (result : String) : List UserId :=
  if trim result = "" then []
  else ((result.toList.splitOn ',').map String.ofList).filter (· ≠ "")

def executeRegisterPresence (s : PresenceStore) (userId : UserId) (instanceId : String)
    (connectionId : ConnectionId) (expireAt : Score) (now : ℚ) (keyTtl : Int) :
    Except String (PresenceStore × Nat) := do
  let userKey ← getPresenceUserKey userId
  let member ← formatPresenceMember instanceId connectionId
  let (leases, result) := registerPresence (s.users userKey) member expireAt now keyTtl
  return (s.setUser userKey leases, result)

def executeRemovePresence (s : PresenceStore) (userId : UserId) (instanceId : String)
    (connectionId : ConnectionId) (now : ℚ) (keyTtl : Int) :
    Except String (PresenceStore × Nat) := do
  let userKey ← getPresenceUserKey userId
  let member ← formatPresenceMember instanceId connectionId
  let (leases, result) := removePresence (s.users userKey) member now keyTtl
  return (s.setUser userKey leases, result)

def executeGetRoomPresenceRoster (s : PresenceStore) (roomId : RoomId) (now : ℚ) :
    Except String (PresenceStore × List UserId) := do
  let roomKey ← getRoomMembersKey roomId
  let (s, result) := getRoomPresenceRoster s roomKey now
  return (s, splitRoster result)

@[simp] theorem userKey_inj {u u' : UserId} :
    PRESENCE_USER_KEY_PREFIX ++ u = PRESENCE_USER_KEY_PREFIX ++ u' ↔ u = u' := by
  simp

@[simp] theorem roomMembersKey_inj {r r' : RoomId} :
    PRESENCE_ROOM_MEMBERS_PREFIX ++ r ++ ":members" =
      PRESENCE_ROOM_MEMBERS_PREFIX ++ r' ++ ":members" ↔ r = r' := by
  simp

/-- The roster survives its way through one string, for ids without commas. -/
theorem splitRoster_concatRoster {userIds : List UserId}
    (h : ∀ u ∈ userIds, trim u = u ∧ u ≠ "" ∧ ',' ∉ u.toList) :
    splitRoster (concatRoster userIds) = userIds := by
  cases userIds with
  | nil => decide
  | cons u rest =>
      have hchars : (concatRoster (u :: rest)).toList =
          [','].intercalate ((u :: rest).map String.toList) := String.toList_intercalate
      have hblack : trim (concatRoster (u :: rest)) ≠ "" := by
        rw [ne_eq, trim_eq_empty_iff, hchars]
        intro hblank
        obtain ⟨htrim, hne, -⟩ := h u List.mem_cons_self
        have hu : trim u = "" := by
          rw [trim_eq_empty_iff]
          intro c hc
          apply hblank
          cases rest with
          | nil => simpa using hc
          | cons v rest => simp [List.intercalate_cons_cons, hc]
        exact hne (htrim.symm.trans hu)
      have hsplit : ([','].intercalate ((u :: rest).map String.toList)).splitOn ',' =
          (u :: rest).map String.toList := by
        refine List.splitOn_intercalate ',' ?_ (by simp)
        intro l hl
        obtain ⟨v, hv, rfl⟩ := List.mem_map.mp hl
        exact (h v hv).2.2
      have hnames : ((u :: rest).map String.toList).map String.ofList = u :: rest := by
        simp
      rw [splitRoster, if_neg hblack, hchars, hsplit, hnames, List.filter_eq_self]
      intro v hv
      exact decide_eq_true (h v hv).2.1

end Pulse
