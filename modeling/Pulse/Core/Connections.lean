import Pulse.Collections.OrderedMap
import Pulse.Event.Envelope

/-!
# Registered connections of a node

`ConnectionManager` holds the registered connections and an index of them by
user, which keeps a user for as long as one of its connections is registered.
-/

namespace Pulse

open Collections

/-- The fields of a `Connection` object which never change; the object itself is
identified by its id. -/
structure Connection where
  connectionId : ConnectionId
  userId : UserId
  maxBufferedAmountBytes : Nat := 1024 * 1024
  deriving DecidableEq, Repr

structure ConnectionManager where
  connections : OrderedMap ConnectionId Connection := ∅
  userConnections : OrderedMap UserId (OrderedSet ConnectionId) := ∅
  pendingConnections : Nat := 0
  /-- `none` is `Infinity`. -/
  maxConnections : Option Nat := none
  deriving DecidableEq, Repr

namespace ConnectionManager

def getConnection (m : ConnectionManager) (connectionId : ConnectionId) : Option Connection :=
  m.connections.get? connectionId

/-- The indexed connections of a user. -/
def userConns (m : ConnectionManager) (userId : UserId) : OrderedSet ConnectionId :=
  (m.userConnections.get? userId).getD ∅

def getConnectionsByUserId (m : ConnectionManager) (userId : UserId) : List Connection :=
  (m.userConns userId).toList.filterMap m.getConnection

/-- The registered connections of a user. -/
def connectionsOf (m : ConnectionManager) (userId : UserId) : List Connection :=
  m.connections.values.filter fun connection => connection.userId = userId

/-- The data part of `addConnection`. -/
def addConnection (m : ConnectionManager) (connection : Connection) : ConnectionManager :=
  { m with
    pendingConnections := m.pendingConnections - 1
    connections := m.connections.set connection.connectionId connection
    userConnections := m.userConnections.set connection.userId
      ((m.userConns connection.userId).insert connection.connectionId) }

/-- The data part of `removeConnection`, with the connection it returns. -/
def removeConnection (m : ConnectionManager) (connectionId : ConnectionId) :
    ConnectionManager × Option Connection :=
  match m.connections.get? connectionId with
  | none => (m, none)
  | some connection =>
      let remaining := (m.userConns connection.userId).erase connectionId
      ({ m with
        connections := m.connections.delete connectionId
        userConnections :=
          if remaining.size = 0 then m.userConnections.delete connection.userId
          else m.userConnections.set connection.userId remaining },
        some connection)

/-- The index lists exactly the registered connections, each under its own id. -/
structure Indexed (m : ConnectionManager) : Prop where
  id_eq : ∀ c connection, m.connections.get? c = some connection → connection.connectionId = c
  mem_userConns : ∀ u c, c ∈ m.userConns u ↔
    ∃ connection, m.connections.get? c = some connection ∧ connection.userId = u

theorem userConns_addConnection (m : ConnectionManager) (connection : Connection) (u : UserId) :
    (m.addConnection connection).userConns u =
      if u = connection.userId then (m.userConns u).insert connection.connectionId
      else m.userConns u := by
  by_cases h : u = connection.userId
  · simp [addConnection, userConns, h]
  · simp [addConnection, userConns, OrderedMap.get?_set, h]

theorem userConns_removeConnection {m : ConnectionManager} {c : ConnectionId}
    {connection : Connection} (hc : m.connections.get? c = some connection) (u : UserId) :
    (m.removeConnection c).1.userConns u =
      if u = connection.userId then (m.userConns u).erase c else m.userConns u := by
  simp only [removeConnection, hc]
  by_cases hsize : ((m.userConns connection.userId).erase c).size = 0
  · rw [if_pos hsize]
    by_cases h : u = connection.userId
    · have hempty : (m.userConns connection.userId).erase c = ∅ :=
        OrderedSet.ext_list (List.length_eq_zero_iff.mp hsize)
      rw [if_pos h, h, hempty]
      simp [userConns]
    · simp [userConns, h, OrderedMap.get?_delete]
  · rw [if_neg hsize]
    by_cases h : u = connection.userId
    · simp [userConns, h]
    · simp [userConns, h, OrderedMap.get?_set]

theorem Indexed.empty : Indexed {} where
  id_eq := by simp
  mem_userConns := by simp [userConns]

theorem Indexed.addConnection {m : ConnectionManager} (h : m.Indexed) {connection : Connection}
    (fresh : connection.connectionId ∉ m.connections.keys) :
    (m.addConnection connection).Indexed where
  id_eq := by
    intro c found hfound
    simp only [ConnectionManager.addConnection, OrderedMap.get?_set] at hfound
    split at hfound
    · rename_i heq
      rw [Option.some.injEq] at hfound
      rw [heq, ← hfound]
    · exact h.id_eq c found hfound
  mem_userConns := by
    intro u c
    rw [userConns_addConnection]
    simp only [ConnectionManager.addConnection, OrderedMap.get?_set]
    by_cases hc : c = connection.connectionId
    · subst hc
      have hnone := OrderedMap.get?_eq_none_iff.mpr fresh
      by_cases hu : u = connection.userId
      · simp [hu]
      · simp [hu, Ne.symm hu, h.mem_userConns, hnone]
    · by_cases hu : u = connection.userId
      · simp [hu, hc, h.mem_userConns]
      · simp [hu, hc, h.mem_userConns]

theorem Indexed.removeConnection {m : ConnectionManager} (h : m.Indexed) (c : ConnectionId) :
    (m.removeConnection c).1.Indexed := by
  cases hc : m.connections.get? c with
  | none =>
      simp only [ConnectionManager.removeConnection, hc]
      exact h
  | some connection =>
      refine ⟨?_, ?_⟩
      · intro c' found hfound
        simp only [ConnectionManager.removeConnection, hc, OrderedMap.get?_delete] at hfound
        split at hfound
        · cases hfound
        · exact h.id_eq c' found hfound
      · intro u c'
        rw [userConns_removeConnection hc]
        simp only [ConnectionManager.removeConnection, hc, OrderedMap.get?_delete]
        by_cases hc' : c' = c
        · subst hc'
          by_cases hu : u = connection.userId
          · simp [hu]
          · simp [hu, h.mem_userConns, hc, Ne.symm hu]
        · by_cases hu : u = connection.userId
          · simp [hu, hc', h.mem_userConns]
          · simp [hu, hc', h.mem_userConns]

theorem Indexed.mem_getConnectionsByUserId {m : ConnectionManager} (h : m.Indexed) {u : UserId}
    {connection : Connection} :
    connection ∈ m.getConnectionsByUserId u ↔
      m.getConnection connection.connectionId = some connection ∧ connection.userId = u := by
  rw [getConnectionsByUserId, List.mem_filterMap]
  constructor
  · rintro ⟨c, hc, hconnection⟩
    obtain ⟨found, hfound, huser⟩ := (h.mem_userConns u c).mp hc
    have heq : found = connection := Option.some.inj (hfound.symm.trans hconnection)
    rw [← heq, h.id_eq c found hfound]
    exact ⟨hfound, huser⟩
  · rintro ⟨hconnection, huser⟩
    exact ⟨connection.connectionId, (h.mem_userConns u _).mpr ⟨connection, hconnection, huser⟩,
      hconnection⟩

/-- The index counts the registered connections of a user. -/
theorem Indexed.length_connectionsOf {m : ConnectionManager} (h : m.Indexed) (u : UserId) :
    (m.connectionsOf u).length = (m.userConns u).size := by
  have hkeys : m.connections.values.map Connection.connectionId = m.connections.keys := by
    simp only [OrderedMap.values, OrderedMap.keys, List.map_map]
    refine List.map_congr_left ?_
    rintro ⟨c, connection⟩ hmem
    exact h.id_eq c connection (OrderedMap.mem_entries_iff.mp hmem)
  have hnodup : ((m.connectionsOf u).map Connection.connectionId).Nodup := by
    refine m.connections.keys_nodup.sublist ?_
    rw [← hkeys]
    exact List.filter_sublist.map _
  have hmem : ∀ c, c ∈ (m.connectionsOf u).map Connection.connectionId ↔
      c ∈ (m.userConns u).toList := by
    intro c
    refine Iff.trans ?_ (h.mem_userConns u c).symm
    simp only [connectionsOf, List.mem_map, List.mem_filter, decide_eq_true_eq,
      OrderedMap.mem_values_iff]
    constructor
    · rintro ⟨connection, ⟨⟨k, hk⟩, hu⟩, rfl⟩
      rw [← h.id_eq k connection hk] at hk
      exact ⟨connection, hk, hu⟩
    · rintro ⟨connection, hk, hu⟩
      exact ⟨connection, ⟨⟨c, hk⟩, hu⟩, h.id_eq c connection hk⟩
  have hperm := (List.perm_ext_iff_of_nodup hnodup (m.userConns u).nodup).mpr hmem
  rw [← List.length_map (f := Connection.connectionId), hperm.length_eq]
  rfl

end ConnectionManager

end Pulse
