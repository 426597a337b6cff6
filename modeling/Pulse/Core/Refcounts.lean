import Pulse.Core.Hub
import Pulse.Transition.Run

/-!
# Subscriptions simulate membership

While the link is up and Redis accepts every command, the counts of the channel
registry are the sizes of the rooms and the numbers of connections of the users,
and the subscriptions follow the counts: those of the manager at once, those on
the Redis side as soon as the commands that were issued are executed.
-/

namespace Pulse

open Collections Transition

namespace RedisPubSubManager

/-- The link is up, and executing the outstanding commands brings Redis to the
channels which the manager lists. -/
def InStep (redisSubscribed : OrderedSet Channel) (p : RedisPubSubManager) : Prop :=
  p.connected = true ∧
    ∀ c, c ∈ p.commands.foldl Command.exec redisSubscribed ↔ c ∈ p.subscribedChannels

theorem InStep.perform {redis : OrderedSet Channel} {p : RedisPubSubManager}
    (h : p.InStep redis) (call : PubSubCall) : (p.perform call).1.InStep redis := by
  obtain ⟨hlink, hmem⟩ := h
  refine ⟨(perform_connected p call).trans hlink, ?_⟩
  intro c
  cases call with
  | subscribe channel =>
      simp only [RedisPubSubManager.perform, subscribe, hlink, if_true]
      split
      · exact hmem c
      · simp [Command.exec, hmem]
  | unsubscribe channel =>
      simp only [RedisPubSubManager.perform, unsubscribe, hlink, if_true]
      split
      · simp [Command.exec, hmem]
      · exact hmem c

end RedisPubSubManager

namespace Subscriptions

theorem subscribeRoom_eq {s : Subscriptions} {r : RoomId} (h : IsIdentifier r) :
    s.subscribeRoom r = s.increment (CHANNEL_PREFIX_ROOM ++ r) := by
  rw [subscribeRoom, getRoomChannel_of_identifier h]

theorem unsubscribeRoom_eq {s : Subscriptions} {r : RoomId} (h : IsIdentifier r) :
    s.unsubscribeRoom r = s.decrement (CHANNEL_PREFIX_ROOM ++ r) := by
  rw [unsubscribeRoom, getRoomChannel_of_identifier h]

theorem subscribeUser_eq {s : Subscriptions} {u : UserId} (h : IsIdentifier u) :
    s.subscribeUser u = s.increment (CHANNEL_PREFIX_USER ++ u) := by
  rw [subscribeUser, getUserChannel_of_identifier h]

theorem unsubscribeUser_eq {s : Subscriptions} {u : UserId} (h : IsIdentifier u) :
    s.unsubscribeUser u = s.decrement (CHANNEL_PREFIX_USER ++ u) := by
  rw [unsubscribeUser, getUserChannel_of_identifier h]

/-- User channels never touch the count of a room channel, whatever the user id. -/
theorem getRefCount_subscribeUser_room (s : Subscriptions) (u : UserId) (r : RoomId) :
    (s.subscribeUser u).getRefCount (CHANNEL_PREFIX_ROOM ++ r) =
      s.getRefCount (CHANNEL_PREFIX_ROOM ++ r) := by
  rw [subscribeUser, getUserChannel]
  split_ifs with hblank
  · rfl
  · change (s.increment _).getRefCount _ = _
    rw [getRefCount_increment, if_neg (roomChannel_ne_userChannel r _)]

theorem getRefCount_unsubscribeUser_room (s : Subscriptions) (u : UserId) (r : RoomId) :
    (s.unsubscribeUser u).getRefCount (CHANNEL_PREFIX_ROOM ++ r) =
      s.getRefCount (CHANNEL_PREFIX_ROOM ++ r) := by
  rw [unsubscribeUser, getUserChannel]
  split_ifs with hblank
  · rfl
  · change (s.decrement _).getRefCount _ = _
    rw [getRefCount_decrement, if_neg (roomChannel_ne_userChannel r _)]

/-- A property which no increment and no decrement of a room or user channel destroys. -/
structure Stable (Q : Subscriptions → Prop) : Prop where
  increment : ∀ s channel, channel ≠ CHANNEL_PRESENCE_EVENTS → Q s → Q (s.increment channel)
  decrement : ∀ s channel, channel ≠ CHANNEL_PRESENCE_EVENTS → Q s → Q (s.decrement channel)

namespace Stable

variable {Q : Subscriptions → Prop} (h : Stable Q) {s : Subscriptions}
include h

theorem subscribeRoom (hs : Q s) (r : RoomId) : Q (s.subscribeRoom r) := by
  rw [Subscriptions.subscribeRoom]
  split
  · rename_i hchannel
    exact h.increment s _ (getRoomChannel_ne_presence hchannel) hs
  · exact hs

theorem unsubscribeRoom (hs : Q s) (r : RoomId) : Q (s.unsubscribeRoom r) := by
  rw [Subscriptions.unsubscribeRoom]
  split
  · rename_i hchannel
    exact h.decrement s _ (getRoomChannel_ne_presence hchannel) hs
  · exact hs

theorem subscribeUser (hs : Q s) (u : UserId) : Q (s.subscribeUser u) := by
  rw [Subscriptions.subscribeUser]
  split
  · rename_i hchannel
    exact h.increment s _ (getUserChannel_ne_presence hchannel) hs
  · exact hs

theorem unsubscribeUser (hs : Q s) (u : UserId) : Q (s.unsubscribeUser u) := by
  rw [Subscriptions.unsubscribeUser]
  split
  · rename_i hchannel
    exact h.decrement s _ (getUserChannel_ne_presence hchannel) hs
  · exact hs

end Stable

/-- Both layers agree and Redis is being brought in step with them. -/
def Linked (redisSubscribed : OrderedSet Channel) (s : Subscriptions) : Prop :=
  s.Agree ∧ s.pubSub.InStep redisSubscribed

theorem await_inStep {redis : OrderedSet Channel} {s : Subscriptions}
    (h : s.pubSub.InStep redis) (call : Option PubSubCall) :
    (s.await call).pubSub.InStep redis := by
  cases call with
  | none => exact h
  | some call => exact h.perform call

theorem stable_linked (redis : OrderedSet Channel) : Stable (Linked redis) where
  increment := by
    intro s channel _ h
    refine ⟨h.1.increment channel, ?_⟩
    exact await_inStep (s := { s with registry := (s.registry.incrementSubscription channel).1 })
      h.2 _
  decrement := by
    intro s channel _ h
    refine ⟨h.1.decrement channel, ?_⟩
    exact await_inStep (s := { s with registry := (s.registry.decrementSubscription channel).1 })
      h.2 _

end Subscriptions

namespace Hub

/-- A property of the registry, true where there is none. -/
def Registry (Q : Subscriptions → Prop) (h : Hub) : Prop :=
  ∀ s, h.channelRegistry = some s → Q s

section registry

variable {Q Q' : Subscriptions → Prop} {h : Hub}

theorem Registry.map {h' : Hub} (hq : h.Registry Q) {f : Subscriptions → Subscriptions}
    (heq : h'.channelRegistry = h.channelRegistry.map f) (preserved : ∀ s, Q s → Q' (f s)) :
    h'.Registry Q' := by
  intro s hs
  rw [heq, Option.map_eq_some_iff] at hs
  obtain ⟨s₀, hs₀, rfl⟩ := hs
  exact preserved s₀ (hq s₀ hs₀)

theorem Registry.congr {h' : Hub} (hq : h.Registry Q)
    (heq : h'.channelRegistry = h.channelRegistry) : h'.Registry Q := by
  intro s hs
  exact hq s (heq ▸ hs)

variable (stable : Subscriptions.Stable Q)
include stable

theorem Registry.joinRoom (hq : h.Registry Q) (r : RoomId) (c : ConnectionId) :
    (h.joinRoom r c).1.Registry Q := by
  have heq := joinRoom_channelRegistry h r c
  split at heq
  · exact hq.congr heq
  · exact hq.map heq fun s hs => stable.subscribeRoom hs r

theorem Registry.leaveRoom (hq : h.Registry Q) (r : RoomId) (c : ConnectionId) :
    (h.leaveRoom r c).1.Registry Q := by
  have heq := leaveRoom_channelRegistry h r c
  split at heq
  · exact hq.map heq fun s hs => stable.unsubscribeRoom hs r
  · exact hq.congr heq

theorem Registry.removeConnectionFromAllRooms (hq : h.Registry Q) (c : ConnectionId)
    (rooms : List RoomId) : (h.removeConnectionFromAllRooms c rooms).1.Registry Q :=
  removeConnectionFromAllRooms_induction (P := fun h => h.Registry Q)
    (fun _ r hq => Registry.leaveRoom stable hq r c) hq rooms

theorem Registry.addConnection (hq : h.Registry Q) (connection : Connection) :
    (h.addConnection connection).Registry Q :=
  hq.map rfl fun _ hs => stable.subscribeUser hs connection.userId

theorem Registry.removeConnection (hq : h.Registry Q) (c : ConnectionId) :
    (h.removeConnection c).1.Registry Q := by
  have heq := removeConnection_channelRegistry h c
  split at heq
  · exact hq.congr heq
  · exact hq.map heq fun s hs => stable.unsubscribeUser hs _

end registry

/-- The count of a room's channel is the number of its members. -/
structure RoomsCounted (h : Hub) : Prop where
  identifier : ∀ r c, c ∈ h.roomManager.members r → IsIdentifier r
  count : h.Registry fun s => ∀ r, IsIdentifier r →
    s.getRefCount (CHANNEL_PREFIX_ROOM ++ r) = (h.roomManager.members r).size

theorem RoomsCounted.joinRoom {h : Hub} (hc : h.RoomsCounted) {r : RoomId}
    (hr : IsIdentifier r) (c : ConnectionId) : (h.joinRoom r c).1.RoomsCounted where
  identifier := by
    intro r' c' hmem
    rw [joinRoom_roomManager, RoomManager.members_joinRoom] at hmem
    by_cases heq : r' = r
    · rw [heq]
      exact hr
    · rw [if_neg heq] at hmem
      exact hc.identifier r' c' hmem
  count := by
    intro s hs r' hr'
    rw [joinRoom_channelRegistry] at hs
    rw [joinRoom_roomManager, RoomManager.members_joinRoom]
    by_cases hmem : c ∈ h.roomManager.members r
    · rw [if_pos hmem] at hs
      rw [hc.count s hs r' hr', OrderedSet.insert_of_mem hmem]
      by_cases heq : r' = r <;> simp [heq]
    · rw [if_neg hmem, Option.map_eq_some_iff] at hs
      obtain ⟨s₀, hs₀, rfl⟩ := hs
      rw [Subscriptions.subscribeRoom_eq hr, Subscriptions.getRefCount_increment,
        hc.count s₀ hs₀ r' hr']
      by_cases heq : r' = r
      · simp [heq, OrderedSet.size_insert_of_not_mem hmem]
      · simp [heq]

theorem RoomsCounted.leaveRoom {h : Hub} (hc : h.RoomsCounted) (r : RoomId)
    (c : ConnectionId) : (h.leaveRoom r c).1.RoomsCounted where
  identifier := by
    intro r' c' hmem
    rw [leaveRoom_roomManager, RoomManager.members_leaveRoom] at hmem
    by_cases heq : r' = r
    · rw [if_pos heq, OrderedSet.mem_erase] at hmem
      rw [heq]
      exact hc.identifier r c' hmem.2
    · rw [if_neg heq] at hmem
      exact hc.identifier r' c' hmem
  count := by
    intro s hs r' hr'
    rw [leaveRoom_channelRegistry] at hs
    rw [leaveRoom_roomManager, RoomManager.members_leaveRoom]
    by_cases hmem : c ∈ h.roomManager.members r
    · rw [if_pos hmem, Option.map_eq_some_iff] at hs
      obtain ⟨s₀, hs₀, rfl⟩ := hs
      rw [Subscriptions.unsubscribeRoom_eq (hc.identifier r c hmem),
        Subscriptions.getRefCount_decrement, hc.count s₀ hs₀ r' hr']
      by_cases heq : r' = r
      · have hsize := OrderedSet.size_erase_of_mem hmem
        simp only [heq, if_true]
        omega
      · simp [heq]
    · rw [if_neg hmem] at hs
      rw [hc.count s hs r' hr', OrderedSet.erase_of_not_mem hmem]
      by_cases heq : r' = r <;> simp [heq]

theorem RoomsCounted.removeConnectionFromAllRooms {h : Hub} (hc : h.RoomsCounted)
    (c : ConnectionId) (rooms : List RoomId) :
    (h.removeConnectionFromAllRooms c rooms).1.RoomsCounted :=
  removeConnectionFromAllRooms_induction (fun _ r hc => hc.leaveRoom r c) hc rooms

theorem RoomsCounted.addConnection {h : Hub} (hc : h.RoomsCounted) (connection : Connection) :
    (h.addConnection connection).RoomsCounted where
  identifier := hc.identifier
  count := hc.count.map rfl fun s hs r hr =>
    (s.getRefCount_subscribeUser_room connection.userId r).trans (hs r hr)

theorem RoomsCounted.removeConnection {h : Hub} (hc : h.RoomsCounted) (c : ConnectionId) :
    (h.removeConnection c).1.RoomsCounted where
  identifier := by
    rw [removeConnection_roomManager]
    exact hc.identifier
  count := by
    rw [removeConnection_roomManager]
    have heq := removeConnection_channelRegistry h c
    split at heq
    · exact hc.count.congr heq
    · exact hc.count.map heq fun s hs r hr =>
        (s.getRefCount_unsubscribeUser_room _ r).trans (hs r hr)

/-- The count of a user's channel is the number of its registered connections. -/
structure UsersCounted (h : Hub) : Prop where
  indexed : h.connectionManager.Indexed
  identifier : ∀ u c, c ∈ h.connectionManager.userConns u → IsIdentifier u
  count : h.Registry fun s => ∀ u, IsIdentifier u →
    s.getRefCount (CHANNEL_PREFIX_USER ++ u) = (h.connectionManager.userConns u).size

theorem UsersCounted.joinRoom {h : Hub} (hc : h.UsersCounted) {r : RoomId}
    (hr : IsIdentifier r) (c : ConnectionId) : (h.joinRoom r c).1.UsersCounted where
  indexed := hc.indexed
  identifier := hc.identifier
  count := by
    have heq := joinRoom_channelRegistry h r c
    split at heq
    · exact hc.count.congr heq
    · refine hc.count.map heq fun s hs u hu => ?_
      rw [Subscriptions.subscribeRoom_eq hr, Subscriptions.getRefCount_increment,
        if_neg (userChannel_ne_roomChannel r u)]
      exact hs u hu

theorem UsersCounted.leaveRoom {h : Hub} (hc : h.UsersCounted) (rooms : h.RoomsCounted)
    (r : RoomId) (c : ConnectionId) : (h.leaveRoom r c).1.UsersCounted where
  indexed := hc.indexed
  identifier := hc.identifier
  count := by
    have heq := leaveRoom_channelRegistry h r c
    split at heq
    · rename_i hmem
      refine hc.count.map heq fun s hs u hu => ?_
      rw [Subscriptions.unsubscribeRoom_eq (rooms.identifier r c hmem),
        Subscriptions.getRefCount_decrement, if_neg (userChannel_ne_roomChannel r u)]
      exact hs u hu
    · exact hc.count.congr heq

theorem UsersCounted.addConnection {h : Hub} (hc : h.UsersCounted) {connection : Connection}
    (hu : IsIdentifier connection.userId)
    (fresh : connection.connectionId ∉ h.connectionManager.connections.keys) :
    (h.addConnection connection).UsersCounted where
  indexed := hc.indexed.addConnection fresh
  identifier := by
    intro u c hmem
    rw [addConnection_connectionManager, ConnectionManager.userConns_addConnection] at hmem
    by_cases heq : u = connection.userId
    · rw [heq]
      exact hu
    · rw [if_neg heq] at hmem
      exact hc.identifier u c hmem
  count := by
    refine hc.count.map rfl fun s hs u hu' => ?_
    have hnew : connection.connectionId ∉
        h.connectionManager.userConns connection.userId := by
      rw [hc.indexed.mem_userConns]
      rintro ⟨found, hfound, -⟩
      exact fresh (OrderedMap.mem_keys_of_get? hfound)
    rw [Subscriptions.subscribeUser_eq hu, Subscriptions.getRefCount_increment, hs u hu',
      addConnection_connectionManager, ConnectionManager.userConns_addConnection]
    by_cases heq : u = connection.userId
    · simp [heq, OrderedSet.size_insert_of_not_mem hnew]
    · simp [heq]

theorem UsersCounted.removeConnection {h : Hub} (hc : h.UsersCounted) (c : ConnectionId) :
    (h.removeConnection c).1.UsersCounted := by
  cases hfound : h.connectionManager.connections.get? c with
  | none =>
      have hsame : (h.removeConnection c).1 = h := by
        simp [Hub.removeConnection, ConnectionManager.removeConnection, hfound]
      rw [hsame]
      exact hc
  | some connection =>
      have hindexed := hc.indexed.mem_userConns
      have hmem : c ∈ h.connectionManager.userConns connection.userId :=
        (hindexed _ _).mpr ⟨connection, hfound, rfl⟩
      refine ⟨?_, ?_, ?_⟩
      · rw [removeConnection_connectionManager]
        exact hc.indexed.removeConnection c
      · intro u c' hmem'
        rw [removeConnection_connectionManager,
          ConnectionManager.userConns_removeConnection hfound] at hmem'
        split at hmem'
        · exact hc.identifier u c' (OrderedSet.mem_erase.mp hmem').2
        · exact hc.identifier u c' hmem'
      · have heq := removeConnection_channelRegistry h c
        rw [hfound] at heq
        refine hc.count.map heq fun s hs u hu => ?_
        rw [Subscriptions.unsubscribeUser_eq (hc.identifier _ c hmem),
          Subscriptions.getRefCount_decrement, hs u hu, removeConnection_connectionManager,
          ConnectionManager.userConns_removeConnection hfound]
        by_cases heq : u = connection.userId
        · have hsize := OrderedSet.size_erase_of_mem hmem
          simp only [heq, if_true]
          omega
        · simp [heq]

end Hub

/-- The managers of a node together with the channels which Redis delivers to it. -/
structure LinkedHub where
  hub : Hub
  redisSubscribed : OrderedSet Channel := ∅

inductive HubEvent
  | joinRoom (roomId : RoomId) (connectionId : ConnectionId)
  | leaveRoom (roomId : RoomId) (connectionId : ConnectionId)
  | removeConnectionFromAllRooms (connectionId : ConnectionId) (rooms : List RoomId)
  | addConnection (connection : Connection)
  | removeConnection (connectionId : ConnectionId)
  | settled (i : Nat)
  | executed

namespace LinkedHub

def initial : LinkedHub :=
  { hub := { channelRegistry := some { pubSub := { connected := true } } } }

/-- The subscription replies are all positive, and arrive in any order. `executed` is
Redis executing the oldest outstanding command. -/
def step (l : LinkedHub) : HubEvent → Option LinkedHub
  | .joinRoom roomId connectionId =>
      if IsIdentifier roomId then
        some { l with hub := (l.hub.joinRoom roomId connectionId).1 }
      else none
  | .leaveRoom roomId connectionId =>
      some { l with hub := (l.hub.leaveRoom roomId connectionId).1 }
  | .removeConnectionFromAllRooms connectionId rooms =>
      some { l with hub := (l.hub.removeConnectionFromAllRooms connectionId rooms).1 }
  | .addConnection connection =>
      if IsIdentifier connection.userId ∧
          connection.connectionId ∉ l.hub.connectionManager.connections.keys then
        some { l with hub := l.hub.addConnection connection }
      else none
  | .removeConnection connectionId =>
      some { l with hub := (l.hub.removeConnection connectionId).1 }
  | .settled i => do
      let s ← l.hub.channelRegistry
      let s' ← s.settle i true
      return { l with hub := { l.hub with channelRegistry := some s' } }
  | .executed => do
      let s ← l.hub.channelRegistry
      let command ← s.pubSub.commands.head?
      return {
        hub := { l.hub with
          channelRegistry := some { s with
            pubSub := { s.pubSub with commands := s.pubSub.commands.tail } } }
        redisSubscribed := command.exec l.redisSubscribed }

/-- The invariant of all runs. -/
structure Invariant (l : LinkedHub) : Prop where
  present : l.hub.channelRegistry.isSome
  rooms : l.hub.RoomsCounted
  users : l.hub.UsersCounted
  linked : l.hub.Registry (Subscriptions.Linked l.redisSubscribed)

theorem Invariant.initial : Invariant initial where
  present := rfl
  rooms :=
    { identifier := fun r c hmem => absurd hmem (OrderedSet.not_mem_empty c)
      count := by
        rintro s ⟨rfl⟩ r -
        rfl }
  users :=
    { indexed := ConnectionManager.Indexed.empty
      identifier := fun u c hmem => absurd hmem (OrderedSet.not_mem_empty c)
      count := by
        rintro s ⟨rfl⟩ u -
        rfl }
  linked := by
    rintro s ⟨rfl⟩
    refine ⟨?_, rfl, ?_⟩
    · intro c
      simp [Subscriptions.getRefCount, ChannelRegistry.getRefCount]
    · intro c
      simp [LinkedHub.initial]

/-- Replies and executed commands leave the managers and all counts alone. -/
theorem Invariant.reply {l : LinkedHub} (h : l.Invariant) {s s' : Subscriptions}
    {redis : OrderedSet Channel} (hs : l.hub.channelRegistry = some s)
    (counts : s'.registry = s.registry) (linked : s'.Linked redis) :
    Invariant ⟨{ l.hub with channelRegistry := some s' }, redis⟩ where
  present := rfl
  rooms :=
    { identifier := h.rooms.identifier
      count := by
        rintro _ ⟨rfl⟩ r hr
        rw [Subscriptions.getRefCount, counts]
        exact h.rooms.count s hs r hr }
  users :=
    { indexed := h.users.indexed
      identifier := h.users.identifier
      count := by
        rintro _ ⟨rfl⟩ u hu
        rw [Subscriptions.getRefCount, counts]
        exact h.users.count s hs u hu }
  linked := by
    rintro _ ⟨rfl⟩
    exact linked

theorem Invariant.step {l l' : LinkedHub} {e : HubEvent} (h : l.Invariant)
    (hstep : l.step e = some l') : l'.Invariant := by
  have stable := Subscriptions.stable_linked l.redisSubscribed
  cases e with
  | joinRoom roomId connectionId =>
      simp only [LinkedHub.step] at hstep
      split at hstep
      · rename_i hid
        cases hstep
        refine ⟨?_, h.rooms.joinRoom hid _, h.users.joinRoom hid _,
          h.linked.joinRoom stable _ _⟩
        rw [Hub.joinRoom_channelRegistry]
        split <;> simp [h.present]
      · cases hstep
  | leaveRoom roomId connectionId =>
      cases hstep
      refine ⟨?_, h.rooms.leaveRoom _ _, h.users.leaveRoom h.rooms _ _,
        h.linked.leaveRoom stable _ _⟩
      rw [Hub.leaveRoom_channelRegistry]
      split <;> simp [h.present]
  | removeConnectionFromAllRooms connectionId rooms =>
      cases hstep
      -- The loops are single removals, which keep the whole invariant.
      refine Hub.removeConnectionFromAllRooms_induction
        (P := fun hub => Invariant ⟨hub, l.redisSubscribed⟩) ?_ h rooms
      intro hub r hinv
      refine ⟨?_, hinv.rooms.leaveRoom _ _, hinv.users.leaveRoom hinv.rooms _ _,
        hinv.linked.leaveRoom stable _ _⟩
      rw [Hub.leaveRoom_channelRegistry]
      split <;> simp [hinv.present]
  | addConnection connection =>
      simp only [LinkedHub.step] at hstep
      split at hstep
      · rename_i hguard
        cases hstep
        refine ⟨?_, h.rooms.addConnection _, h.users.addConnection hguard.1 hguard.2,
          h.linked.addConnection stable _⟩
        simp [Hub.addConnection, h.present]
      · cases hstep
  | removeConnection connectionId =>
      cases hstep
      refine ⟨?_, h.rooms.removeConnection _, h.users.removeConnection _,
        h.linked.removeConnection stable _⟩
      rw [Hub.removeConnection_channelRegistry]
      split <;> simp [h.present]
  | settled i =>
      obtain ⟨s, hs⟩ := Option.isSome_iff_exists.mp h.present
      simp only [LinkedHub.step, hs, Option.bind_eq_bind, Option.bind_some,
        Option.bind_eq_some_iff, Option.pure_def, Option.some.injEq] at hstep
      obtain ⟨s', hsettle, rfl⟩ := hstep
      simp only [Subscriptions.settle] at hsettle
      split at hsettle
      · cases hsettle
      · cases hsettle
        exact h.reply hs rfl (h.linked s hs)
  | executed =>
      obtain ⟨s, hs⟩ := Option.isSome_iff_exists.mp h.present
      simp only [LinkedHub.step, hs, Option.bind_eq_bind, Option.bind_some,
        Option.bind_eq_some_iff, Option.pure_def, Option.some.injEq] at hstep
      obtain ⟨command, hhead, rfl⟩ := hstep
      obtain ⟨hagree, hlink, hmem⟩ := h.linked s hs
      refine h.reply hs rfl ⟨hagree, hlink, ?_⟩
      intro c
      rw [← hmem c, List.eq_cons_of_mem_head? hhead]
      rfl

/-- What the counts and the subscriptions of a linked hub stand for. -/
structure Faithful (l : LinkedHub) : Prop where
  roomCounts : l.hub.Registry fun s => ∀ roomId channel, IsIdentifier roomId →
    getRoomChannel roomId = .ok channel →
    s.getRefCount channel = l.hub.roomManager.getConnectionCountInRoom roomId
  userCounts : l.hub.Registry fun s => ∀ userId channel, IsIdentifier userId →
    getUserChannel userId = .ok channel →
    s.getRefCount channel = (l.hub.connectionManager.connectionsOf userId).length
  subscribed : l.hub.Registry fun s => ∀ channel,
    channel ∈ s.pubSub.subscribedChannels ↔ 0 < s.getRefCount channel
  processed : l.hub.Registry fun s => ∀ channel,
    channel ∈ s.pubSub.commands.foldl Command.exec l.redisSubscribed ↔
      channel ∈ s.pubSub.subscribedChannels

theorem Invariant.faithful {l : LinkedHub} (h : l.Invariant) : l.Faithful where
  roomCounts := by
    intro s hs roomId channel hid hchannel
    rw [getRoomChannel_of_identifier hid, Except.ok.injEq] at hchannel
    rw [← hchannel]
    exact h.rooms.count s hs roomId hid
  userCounts := by
    intro s hs userId channel hid hchannel
    rw [getUserChannel_of_identifier hid, Except.ok.injEq] at hchannel
    rw [← hchannel, h.users.indexed.length_connectionsOf]
    exact h.users.count s hs userId hid
  subscribed := fun s hs => (h.linked s hs).1
  processed := fun s hs => (h.linked s hs).2.2

/-- In every state of every run the registry is present, its counts are the sizes of
the rooms and the numbers of connections of the users, and the subscribed channels of
both sides are the counted ones. -/
theorem refcounts_simulate_membership (es : List HubEvent) :
    Always LinkedHub.step (fun l => l.hub.channelRegistry.isSome ∧ l.Faithful)
      LinkedHub.initial es :=
  (always_of_invariant (fun _ _ _ h hstep => h.step hstep) Invariant.initial es).mono
    fun _ h => ⟨h.present, h.faithful⟩

end LinkedHub

end Pulse
