import Pulse.Collections.OrderedMap
import Pulse.Event.Envelope

/-!
# Rooms of a node

`RoomManager` maps each room to its member connections. A room is created by its
first member and dropped with its last, so none is kept empty.
-/

namespace Pulse

open Collections

structure RoomManager where
  rooms : OrderedMap RoomId (OrderedSet ConnectionId) := ∅
  deriving DecidableEq, Repr

namespace RoomManager

/-- The members of a room; a room that is not kept has none. -/
def members (m : RoomManager) (roomId : RoomId) : OrderedSet ConnectionId :=
  (m.rooms.get? roomId).getD ∅

def getRoomConnectionIds (m : RoomManager) (roomId : RoomId) : List ConnectionId :=
  (m.members roomId).toList

def getConnectionCountInRoom (m : RoomManager) (roomId : RoomId) : Nat :=
  (m.members roomId).size

def getAllRoomIds (m : RoomManager) : List RoomId := m.rooms.keys

/-- The data part of `joinRoom`; the flag is `isNew`. -/
def joinRoom (m : RoomManager) (roomId : RoomId) (connectionId : ConnectionId) :
    RoomManager × Bool :=
  let members := m.members roomId
  (⟨m.rooms.set roomId (members.insert connectionId)⟩, decide (connectionId ∉ members))

/-- The data part of `leaveRoom`; the flag is `removed`. -/
def leaveRoom (m : RoomManager) (roomId : RoomId) (connectionId : ConnectionId) :
    RoomManager × Bool :=
  match m.rooms.get? roomId with
  | none => (m, false)
  | some members =>
      let removed := decide (connectionId ∈ members)
      let remaining := members.erase connectionId
      if remaining.size = 0 then (⟨m.rooms.delete roomId⟩, removed)
      else (⟨m.rooms.set roomId remaining⟩, removed)

/-- No room is kept without a member. -/
def NoEmptyRoom (m : RoomManager) : Prop :=
  ∀ roomId ∈ m.rooms.keys, 0 < (m.members roomId).size

theorem members_eq_empty {m : RoomManager} {r : RoomId} (h : r ∉ m.rooms.keys) :
    m.members r = ∅ := by
  rw [members, OrderedMap.get?_eq_none_iff.mpr h]
  rfl

theorem mem_keys_of_mem_members {m : RoomManager} {r : RoomId} {c : ConnectionId}
    (h : c ∈ m.members r) : r ∈ m.rooms.keys := by
  by_contra hkey
  rw [members_eq_empty hkey] at h
  exact OrderedSet.not_mem_empty c h

theorem members_joinRoom (m : RoomManager) (r r' : RoomId) (c : ConnectionId) :
    (m.joinRoom r c).1.members r' = if r' = r then (m.members r).insert c else m.members r' := by
  by_cases h : r' = r
  · simp [joinRoom, members, h]
  · simp [joinRoom, members, OrderedMap.get?_set, h]

@[simp] theorem joinRoom_isNew (m : RoomManager) (r : RoomId) (c : ConnectionId) :
    (m.joinRoom r c).2 = decide (c ∉ m.members r) := rfl

theorem mem_keys_joinRoom {m : RoomManager} {r r' : RoomId} {c : ConnectionId} :
    r' ∈ (m.joinRoom r c).1.rooms.keys ↔ r' = r ∨ r' ∈ m.rooms.keys :=
  OrderedMap.mem_keys_set

theorem members_leaveRoom (m : RoomManager) (r r' : RoomId) (c : ConnectionId) :
    (m.leaveRoom r c).1.members r' =
      if r' = r then (m.members r).erase c else m.members r' := by
  cases hroom : m.rooms.get? r with
  | none =>
      by_cases h : r' = r
      · simp [leaveRoom, members, hroom, h, OrderedSet.erase_of_not_mem]
      · simp [leaveRoom, hroom, h]
  | some ms =>
      have hms : m.members r = ms := by
        rw [members, hroom]
        rfl
      by_cases hsize : (ms.erase c).size = 0
      · by_cases h : r' = r
        · subst h
          have hempty : ms.erase c = ∅ :=
            OrderedSet.ext_list (List.length_eq_zero_iff.mp hsize)
          simp only [leaveRoom, hroom, if_pos, hms, hempty]
          simp [members]
        · simp [leaveRoom, members, hroom, hsize, h, OrderedMap.get?_delete]
      · by_cases h : r' = r
        · subst h
          simp only [leaveRoom, hroom, if_neg hsize, if_pos, hms]
          simp [members]
        · simp [leaveRoom, members, hroom, hsize, h, OrderedMap.get?_set]

@[simp] theorem leaveRoom_removed (m : RoomManager) (r : RoomId) (c : ConnectionId) :
    (m.leaveRoom r c).2 = decide (c ∈ m.members r) := by
  cases hroom : m.rooms.get? r with
  | none => simp [leaveRoom, members, hroom]
  | some ms =>
      simp only [leaveRoom, hroom, members, Option.getD_some]
      split <;> rfl

theorem mem_keys_leaveRoom {m : RoomManager} {r r' : RoomId} {c : ConnectionId}
    (h : r' ∈ (m.leaveRoom r c).1.rooms.keys) :
    r' ∈ m.rooms.keys ∧ (r' = r → 0 < ((m.members r).erase c).size) := by
  cases hroom : m.rooms.get? r with
  | none =>
      simp only [leaveRoom, hroom] at h
      refine ⟨h, ?_⟩
      rintro rfl
      exact absurd h (OrderedMap.get?_eq_none_iff.mp hroom)
  | some ms =>
      have hms : m.members r = ms := by
        rw [members, hroom]
        rfl
      simp only [leaveRoom, hroom] at h
      split at h
      · rw [OrderedMap.mem_keys_delete] at h
        exact ⟨h.2, fun heq => absurd heq h.1⟩
      · rename_i hsize
        rw [OrderedMap.mem_keys_set] at h
        rw [hms]
        refine ⟨?_, fun _ => Nat.pos_of_ne_zero hsize⟩
        rcases h with rfl | h
        · exact OrderedMap.mem_keys_of_get? hroom
        · exact h

theorem NoEmptyRoom.joinRoom {m : RoomManager} (h : m.NoEmptyRoom) (r : RoomId)
    (c : ConnectionId) : (m.joinRoom r c).1.NoEmptyRoom := by
  intro r' hr'
  rw [members_joinRoom]
  by_cases heq : r' = r
  · rw [if_pos heq, OrderedSet.size_pos_iff]
    exact ⟨c, OrderedSet.mem_insert.mpr (Or.inr rfl)⟩
  · rw [if_neg heq]
    exact h r' ((mem_keys_joinRoom.mp hr').resolve_left heq)

theorem NoEmptyRoom.leaveRoom {m : RoomManager} (h : m.NoEmptyRoom) (r : RoomId)
    (c : ConnectionId) : (m.leaveRoom r c).1.NoEmptyRoom := by
  intro r' hr'
  obtain ⟨hkey, hpos⟩ := mem_keys_leaveRoom hr'
  rw [members_leaveRoom]
  by_cases heq : r' = r
  · rw [if_pos heq]
    exact hpos heq
  · rw [if_neg heq]
    exact h r' hkey

end RoomManager

end Pulse
