import Pulse.Event.Envelope

/-!
# Channel names

Every room and every user has a Pub/Sub channel of its own, named by a prefix
and the trimmed identifier. On trimmed identifiers the names are injective, and
the room, user and presence channels never coincide.
-/

namespace Pulse

open Js

def CHANNEL_PREFIX_ROOM : Channel := "pulse:room:"
def CHANNEL_PREFIX_USER : Channel := "pulse:user:"
def CHANNEL_PRESENCE_EVENTS : Channel := "pulse:presence:events"

def getRoomChannel (roomId : RoomId) : Except String Channel :=
  if trim roomId = "" then .error "Invalid roomId provided for channel generation"
  else .ok (CHANNEL_PREFIX_ROOM ++ trim roomId)

def getUserChannel (userId : UserId) : Except String Channel :=
  if trim userId = "" then .error "Invalid userId provided for channel generation"
  else .ok (CHANNEL_PREFIX_USER ++ trim userId)

/-- The rest of a string behind a prefix it starts with. -/
def afterPrefix (start s : String) : Option String :=
  if start.toList.isPrefixOf s.toList then
    some (String.ofList (s.toList.drop start.toList.length))
  else none

def extractRoomId (channel : Channel) : Option RoomId := afterPrefix CHANNEL_PREFIX_ROOM channel
def extractUserId (channel : Channel) : Option UserId := afterPrefix CHANNEL_PREFIX_USER channel

/-- Identifiers as the managers see them: trimmed and not blank. -/
def IsIdentifier (id : String) : Prop := trim id = id ∧ id ≠ ""

instance (id : String) : Decidable (IsIdentifier id) :=
  inferInstanceAs (Decidable (trim id = id ∧ id ≠ ""))

theorem getRoomChannel_of_identifier {r : RoomId} (h : IsIdentifier r) :
    getRoomChannel r = .ok (CHANNEL_PREFIX_ROOM ++ r) := by
  rw [getRoomChannel, h.1, if_neg h.2]

theorem getUserChannel_of_identifier {u : UserId} (h : IsIdentifier u) :
    getUserChannel u = .ok (CHANNEL_PREFIX_USER ++ u) := by
  rw [getUserChannel, h.1, if_neg h.2]

/-- The prefixes differ in their seventh character. -/
@[simp] theorem roomChannel_ne_userChannel (r : RoomId) (u : UserId) :
    CHANNEL_PREFIX_ROOM ++ r ≠ CHANNEL_PREFIX_USER ++ u := by
  intro h
  have hchars := congrArg String.toList h
  simp [CHANNEL_PREFIX_ROOM, CHANNEL_PREFIX_USER] at hchars

@[simp] theorem userChannel_ne_roomChannel (r : RoomId) (u : UserId) :
    CHANNEL_PREFIX_USER ++ u ≠ CHANNEL_PREFIX_ROOM ++ r :=
  (roomChannel_ne_userChannel r u).symm

@[simp] theorem roomChannel_ne_presence (r : RoomId) :
    CHANNEL_PREFIX_ROOM ++ r ≠ CHANNEL_PRESENCE_EVENTS := by
  intro h
  have hchars := congrArg String.toList h
  simp [CHANNEL_PREFIX_ROOM, CHANNEL_PRESENCE_EVENTS] at hchars

@[simp] theorem userChannel_ne_presence (u : UserId) :
    CHANNEL_PREFIX_USER ++ u ≠ CHANNEL_PRESENCE_EVENTS := by
  intro h
  have hchars := congrArg String.toList h
  simp [CHANNEL_PREFIX_USER, CHANNEL_PRESENCE_EVENTS] at hchars

theorem getRoomChannel_ne_presence {r : RoomId} {channel : Channel}
    (h : getRoomChannel r = .ok channel) : channel ≠ CHANNEL_PRESENCE_EVENTS := by
  rw [getRoomChannel] at h
  split at h
  · cases h
  · cases h
    exact roomChannel_ne_presence _

theorem getUserChannel_ne_presence {u : UserId} {channel : Channel}
    (h : getUserChannel u = .ok channel) : channel ≠ CHANNEL_PRESENCE_EVENTS := by
  rw [getUserChannel] at h
  split at h
  · cases h
  · cases h
    exact userChannel_ne_presence _

end Pulse
