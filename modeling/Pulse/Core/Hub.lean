import Pulse.Core.Rooms
import Pulse.Core.Connections
import Pulse.Redis.Subscriptions

/-!
# Rooms, connections and their channels

The room and the connection manager of a node report their changes to one
channel registry, which is absent on a node that runs without Redis. The
operations below are the managers' operations with these reports; the replies
to the subscription commands arrive later.
-/

namespace Pulse

open Collections

structure Hub where
  roomManager : RoomManager := {}
  connectionManager : ConnectionManager := {}
  channelRegistry : Option Subscriptions := none

namespace Hub

def joinRoom (h : Hub) (roomId : RoomId) (connectionId : ConnectionId) : Hub × Bool :=
  let (roomManager, isNew) := h.roomManager.joinRoom roomId connectionId
  ({ h with
    roomManager
    channelRegistry :=
      if isNew then h.channelRegistry.map (·.subscribeRoom roomId) else h.channelRegistry },
    isNew)

def leaveRoom (h : Hub) (roomId : RoomId) (connectionId : ConnectionId) : Hub × Bool :=
  let (roomManager, removed) := h.roomManager.leaveRoom roomId connectionId
  ({ h with
    roomManager
    channelRegistry :=
      if removed then h.channelRegistry.map (·.unsubscribeRoom roomId) else h.channelRegistry },
    removed)

/-- One turn of a removal loop, which collects the rooms that were left. -/
def leaveInto (connectionId : ConnectionId) (acc : Hub × List RoomId) (roomId : RoomId) :
    Hub × List RoomId :=
  let (h, removed) := acc.1.leaveRoom roomId connectionId
  (h, if removed then acc.2 ++ [roomId] else acc.2)

/-- One turn of the safety sweep over all kept rooms. -/
def sweepInto (connectionId : ConnectionId) (acc : Hub × List RoomId) (roomId : RoomId) :
    Hub × List RoomId :=
  if connectionId ∈ acc.1.roomManager.members roomId then leaveInto connectionId acc roomId
  else acc

def removeConnectionFromAllRooms (h : Hub) (connectionId : ConnectionId) (rooms : List RoomId) :
    Hub × List RoomId :=
  let acc := rooms.foldl (leaveInto connectionId) (h, [])
  acc.1.roomManager.getAllRoomIds.foldl (sweepInto connectionId) acc

def addConnection (h : Hub) (connection : Connection) : Hub :=
  { h with
    connectionManager := h.connectionManager.addConnection connection
    channelRegistry := h.channelRegistry.map (·.subscribeUser connection.userId) }

def removeConnection (h : Hub) (connectionId : ConnectionId) : Hub × Option Connection :=
  let (connectionManager, found) := h.connectionManager.removeConnection connectionId
  match found with
  | none => (h, none)
  | some connection =>
      ({ h with
        connectionManager
        channelRegistry := h.channelRegistry.map (·.unsubscribeUser connection.userId) },
        some connection)

@[simp] theorem joinRoom_roomManager (h : Hub) (r : RoomId) (c : ConnectionId) :
    (h.joinRoom r c).1.roomManager = (h.roomManager.joinRoom r c).1 := rfl

@[simp] theorem joinRoom_connectionManager (h : Hub) (r : RoomId) (c : ConnectionId) :
    (h.joinRoom r c).1.connectionManager = h.connectionManager := rfl

theorem joinRoom_channelRegistry (h : Hub) (r : RoomId) (c : ConnectionId) :
    (h.joinRoom r c).1.channelRegistry =
      if c ∈ h.roomManager.members r then h.channelRegistry
      else h.channelRegistry.map (·.subscribeRoom r) := by
  by_cases hmem : c ∈ h.roomManager.members r <;> simp [joinRoom, hmem]

@[simp] theorem leaveRoom_roomManager (h : Hub) (r : RoomId) (c : ConnectionId) :
    (h.leaveRoom r c).1.roomManager = (h.roomManager.leaveRoom r c).1 := rfl

@[simp] theorem leaveRoom_connectionManager (h : Hub) (r : RoomId) (c : ConnectionId) :
    (h.leaveRoom r c).1.connectionManager = h.connectionManager := rfl

theorem leaveRoom_channelRegistry (h : Hub) (r : RoomId) (c : ConnectionId) :
    (h.leaveRoom r c).1.channelRegistry =
      if c ∈ h.roomManager.members r then h.channelRegistry.map (·.unsubscribeRoom r)
      else h.channelRegistry := by
  by_cases hmem : c ∈ h.roomManager.members r <;> simp [leaveRoom, hmem]

@[simp] theorem addConnection_roomManager (h : Hub) (connection : Connection) :
    (h.addConnection connection).roomManager = h.roomManager := rfl

@[simp] theorem addConnection_connectionManager (h : Hub) (connection : Connection) :
    (h.addConnection connection).connectionManager =
      h.connectionManager.addConnection connection := rfl

@[simp] theorem removeConnection_roomManager (h : Hub) (c : ConnectionId) :
    (h.removeConnection c).1.roomManager = h.roomManager := by
  cases hc : h.connectionManager.connections.get? c <;>
    simp [removeConnection, ConnectionManager.removeConnection, hc]

@[simp] theorem removeConnection_connectionManager (h : Hub) (c : ConnectionId) :
    (h.removeConnection c).1.connectionManager = (h.connectionManager.removeConnection c).1 := by
  cases hc : h.connectionManager.connections.get? c <;>
    simp [removeConnection, ConnectionManager.removeConnection, hc]

theorem removeConnection_channelRegistry (h : Hub) (c : ConnectionId) :
    (h.removeConnection c).1.channelRegistry =
      match h.connectionManager.connections.get? c with
      | none => h.channelRegistry
      | some connection => h.channelRegistry.map (·.unsubscribeUser connection.userId) := by
  cases hc : h.connectionManager.connections.get? c <;>
    simp [removeConnection, ConnectionManager.removeConnection, hc]

/-- The removal loops preserve whatever each `leaveRoom` preserves. -/
theorem removeConnectionFromAllRooms_induction {P : Hub → Prop} {c : ConnectionId}
    (preserved : ∀ h r, P h → P (h.leaveRoom r c).1) {h : Hub} (initially : P h)
    (rooms : List RoomId) : P (h.removeConnectionFromAllRooms c rooms).1 := by
  have hfirst : ∀ (rs : List RoomId) (acc : Hub × List RoomId),
      P acc.1 → P (rs.foldl (leaveInto c) acc).1 := by
    intro rs
    induction rs with
    | nil => exact fun _ hacc => hacc
    | cons r rs ih => exact fun acc hacc => ih _ (preserved acc.1 r hacc)
  have hsweep : ∀ (rs : List RoomId) (acc : Hub × List RoomId),
      P acc.1 → P (rs.foldl (sweepInto c) acc).1 := by
    intro rs
    induction rs with
    | nil => exact fun _ hacc => hacc
    | cons r rs ih =>
        intro acc hacc
        refine ih _ ?_
        rw [sweepInto]
        split
        · exact preserved acc.1 r hacc
        · exact hacc
  exact hsweep _ _ (hfirst rooms _ initially)

@[simp] theorem removeConnectionFromAllRooms_connectionManager (h : Hub) (c : ConnectionId)
    (rooms : List RoomId) :
    (h.removeConnectionFromAllRooms c rooms).1.connectionManager = h.connectionManager := by
  refine removeConnectionFromAllRooms_induction
    (P := fun h' => h'.connectionManager = h.connectionManager) ?_ rfl rooms
  intro h' r heq
  exact heq

/-- The sweep visits every kept room, so no membership survives it. -/
private theorem not_mem_members_sweep (c : ConnectionId) (rs : List RoomId)
    (acc : Hub × List RoomId)
    (h : ∀ r ∉ rs, c ∉ acc.1.roomManager.members r) (r : RoomId) :
    c ∉ (rs.foldl (sweepInto c) acc).1.roomManager.members r := by
  induction rs generalizing acc with
  | nil => exact h r List.not_mem_nil
  | cons r₀ rs ih =>
      refine ih _ ?_
      intro r' hr'
      rw [sweepInto]
      split
      · change c ∉ (acc.1.roomManager.leaveRoom r₀ c).1.members r'
        rw [RoomManager.members_leaveRoom]
        by_cases heq : r' = r₀
        · simp [heq]
        · rw [if_neg heq]
          exact h r' (by simp [heq, hr'])
      · rename_i hnot
        by_cases heq : r' = r₀
        · rw [heq]
          exact hnot
        · exact h r' (by simp [heq, hr'])

/-- Exactly the memberships of the removed connection are gone. -/
theorem mem_members_removeConnectionFromAllRooms (h : Hub) (c c' : ConnectionId)
    (rooms : List RoomId) (r : RoomId) :
    c' ∈ (h.removeConnectionFromAllRooms c rooms).1.roomManager.members r ↔
      c' ≠ c ∧ c' ∈ h.roomManager.members r := by
  by_cases hc : c' = c
  · subst hc
    simp only [ne_eq, not_true_eq_false, false_and, iff_false]
    refine not_mem_members_sweep c' _ _ ?_ r
    intro r' hr' hmem
    exact hr' (RoomManager.mem_keys_of_mem_members hmem)
  · simp only [ne_eq, hc, not_false_eq_true, true_and]
    refine removeConnectionFromAllRooms_induction
      (P := fun h' => c' ∈ h'.roomManager.members r ↔ c' ∈ h.roomManager.members r) ?_
      Iff.rfl rooms
    intro h' r' heq
    rw [leaveRoom_roomManager, RoomManager.members_leaveRoom, ← heq]
    by_cases hr : r = r'
    · simp [hr, hc]
    · simp [hr]

end Hub

end Pulse
