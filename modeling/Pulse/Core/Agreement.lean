import Pulse.Core.Effects

/-!
# The two views of membership agree

A connection lists its rooms and a room lists its connections. Handlers, close
handlers and new connections change both sides by different calls, in pieces
which interleave freely; the invariant `WellFormed` shows that the views of the
registered connections never drift apart.
-/

namespace Pulse

open Collections Js Transition MessageDispatcher

namespace Memberships

/-- Why the handler is suspended: the rest of a batch join runs for a sender whose
membership is reported. -/
def Reported (m : Memberships) : Suspended → Prop
  | .batchAddRoomMember sender _ _ => m.reportsPresence sender = true
  | _ => True

/-- A property which the elementary changes made on behalf of a frame preserve. -/
structure Kept (cfg : Config) (sender : Connection) (envelope : PulseEventEnvelope)
    (P : Memberships → Prop) : Prop where
  join : ∀ m r, isValidRoomId cfg r = true → P m → P (m.join r sender.connectionId)
  leave : ∀ m r, P m → P (m.leave r sender.connectionId)
  updateSeq : ∀ m, P m → P (m.updateSeq sender.connectionId envelope)
  suspend : ∀ m k, k.sender = sender → k.envelope = envelope → m.Reported k → P m → P (m.suspend k)

namespace Kept

variable {cfg : Config} {sender : Connection} {envelope : PulseEventEnvelope}
variable {P : Memberships → Prop} (kept : Kept cfg sender envelope P)
include kept

theorem roomJoinAdded {m : Memberships} (h : P m) (roomId : RoomId) (fresh : Fresh) :
    P (roomJoinAdded m sender envelope roomId fresh).1 := by
  have hseq := kept.updateSeq m h
  simp only [MessageDispatcher.roomJoinAdded]
  split
  · exact kept.suspend _ _ rfl rfl trivial hseq
  · exact hseq

theorem handleRoomJoin {m : Memberships} (h : P m) (fresh : Fresh) :
    P (handleRoomJoin cfg m sender envelope fresh).1 := by
  simp only [MessageDispatcher.handleRoomJoin]
  split
  · exact h
  · rename_i hvalid
    have hjoin := kept.join m _ (by simpa using hvalid) h
    split
    · exact h
    · split
      · exact kept.suspend _ _ rfl rfl trivial hjoin
      · exact kept.roomJoinAdded hjoin _ fresh

theorem batchJoinLoop {m : Memberships} (h : P m) (currentCount : Nat) (fresh : Fresh)
    (entries : List Json) (joinedRooms : List RoomId) (newlyAdded : Nat) :
    P (batchJoinLoop cfg sender envelope currentCount fresh entries m joinedRooms
      newlyAdded).1 := by
  induction entries generalizing m joinedRooms newlyAdded with
  | nil => exact kept.updateSeq m h
  | cons entry rest ih =>
      simp only [MessageDispatcher.batchJoinLoop]
      split
      · exact ih h _ _
      · rename_i hvalid
        have hjoin := kept.join m _ (by simpa using hvalid) h
        split
        · exact kept.updateSeq m h
        · split
          · rename_i hreports
            exact kept.suspend _ _ rfl rfl hreports hjoin
          · exact ih hjoin _ _

theorem handleRoomBatchJoin {m : Memberships} (h : P m) (fresh : Fresh) :
    P (handleRoomBatchJoin cfg m sender envelope fresh).1 := by
  rw [MessageDispatcher.handleRoomBatchJoin]
  split
  · simp only
    split
    · exact h
    · exact kept.batchJoinLoop h _ fresh _ _ _
  · exact h

theorem handleRoomLeave {m : Memberships} (h : P m) (fresh : Fresh) :
    P (handleRoomLeave m sender envelope fresh).1 := by
  have hleave := kept.leave m (envelope.targetRoomId.getD "") h
  simp only [MessageDispatcher.handleRoomLeave]
  split
  · exact kept.suspend _ _ rfl rfl trivial hleave
  · exact kept.updateSeq _ hleave

end Kept

theorem Kept.frameChange {cfg : Config} {sender : Connection} {P : Memberships → Prop}
    {m m' : Memberships}
    (kept : ∀ envelope, m.InOrder sender envelope → Kept cfg sender envelope P) (h : P m)
    (registry : ∀ m f, Subscriptions.KeepsChannels f → P m → P (m.updateRegistry f))
    (change : FrameChange cfg sender m m') : P m' := by
  cases change with
  | rejected => exact h
  | seq envelope inOrder f keeps =>
      exact registry _ f keeps ((kept envelope inOrder).updateSeq m h)
  | join envelope inOrder fresh => exact (kept envelope inOrder).handleRoomJoin h fresh
  | batchJoin envelope inOrder fresh => exact (kept envelope inOrder).handleRoomBatchJoin h fresh
  | leave envelope inOrder fresh => exact (kept envelope inOrder).handleRoomLeave h fresh

theorem Kept.continueHandler {cfg : Config} {P : Memberships → Prop} {k : Suspended}
    (kept : Kept cfg k.sender k.envelope P) {m : Memberships} (h : P m)
    (online : Option (List UserId)) (fresh : Fresh) :
    P (continueHandler cfg m online fresh k).1 := by
  cases k with
  | addRoomMember sender envelope roomId => exact kept.roomJoinAdded h roomId fresh
  | getRoomRoster sender envelope roomId => exact h
  | batchAddRoomMember sender envelope batch => exact kept.batchJoinLoop h _ fresh _ _ _
  | removeRoomMember sender envelope roomId => exact kept.updateSeq m h

/-- The invariant of all runs. -/
structure WellFormed (m : Memberships) : Prop where
  indexed : m.hub.connectionManager.Indexed
  noEmptyRoom : m.hub.roomManager.NoEmptyRoom
  registered_known : ∀ c ∈ m.hub.connectionManager.connections.keys, c ∈ m.known
  members_known : ∀ r c, c ∈ m.hub.roomManager.members r → c ∈ m.known
  agree : ∀ c ∈ m.hub.connectionManager.connections.keys, ∀ r,
    r ∈ m.rooms c ↔ c ∈ m.hub.roomManager.members r
  suspended_known : ∀ k ∈ m.suspended, k.sender.connectionId ∈ m.known
  suspended_reported : ∀ k ∈ m.suspended, m.Reported k

@[simp] theorem join_rooms (m : Memberships) (r : RoomId) (c c' : ConnectionId) :
    (m.join r c).rooms c' = if c' = c then (m.rooms c).insert r else m.rooms c' := by
  simp [join, Function.update_apply]

@[simp] theorem leave_rooms (m : Memberships) (r : RoomId) (c c' : ConnectionId) :
    (m.leave r c).rooms c' = if c' = c then (m.rooms c).erase r else m.rooms c' := by
  simp [leave, Function.update_apply]

@[simp] theorem join_members (m : Memberships) (r r' : RoomId) (c : ConnectionId) :
    (m.join r c).hub.roomManager.members r' =
      if r' = r then (m.hub.roomManager.members r).insert c
      else m.hub.roomManager.members r' :=
  RoomManager.members_joinRoom m.hub.roomManager r r' c

@[simp] theorem leave_members (m : Memberships) (r r' : RoomId) (c : ConnectionId) :
    (m.leave r c).hub.roomManager.members r' =
      if r' = r then (m.hub.roomManager.members r).erase c
      else m.hub.roomManager.members r' :=
  RoomManager.members_leaveRoom m.hub.roomManager r r' c

theorem updateSeq_eq (m : Memberships) (c : ConnectionId) (envelope : PulseEventEnvelope) :
    m.updateSeq c envelope =
      { m with
        lastSeenSeq := match envelope.seq with
          | some seq => Function.update m.lastSeenSeq c seq
          | none => m.lastSeenSeq } := by
  rw [updateSeq]
  cases envelope.seq <;> rfl

/-- Only these parts matter for being well formed. -/
theorem WellFormed.congr {m m' : Memberships} (h : m.WellFormed)
    (connectionManager : m'.hub.connectionManager = m.hub.connectionManager)
    (roomManager : m'.hub.roomManager = m.hub.roomManager) (known : m'.known = m.known)
    (rooms : m'.rooms = m.rooms) (presence : m.presence = true → m'.presence = true)
    (suspended : ∀ k ∈ m'.suspended, k ∈ m.suspended) : m'.WellFormed where
  indexed := connectionManager ▸ h.indexed
  noEmptyRoom := roomManager ▸ h.noEmptyRoom
  registered_known := by
    rw [connectionManager, known]
    exact h.registered_known
  members_known := by
    rw [roomManager, known]
    exact h.members_known
  agree := by
    rw [connectionManager, roomManager, rooms]
    exact h.agree
  suspended_known := by
    intro k hk
    rw [known]
    exact h.suspended_known k (suspended k hk)
  suspended_reported := by
    intro k hk
    have hreported := h.suspended_reported k (suspended k hk)
    cases k with
    | batchAddRoomMember sender envelope batch =>
        simp only [Reported, reportsPresence, Bool.and_eq_true] at hreported ⊢
        exact ⟨presence hreported.1, hreported.2⟩
    | addRoomMember => trivial
    | getRoomRoster => trivial
    | removeRoomMember => trivial

theorem WellFormed.join {m : Memberships} (h : m.WellFormed) {c : ConnectionId}
    (hc : c ∈ m.known) (r : RoomId) : (m.join r c).WellFormed where
  indexed := h.indexed
  noEmptyRoom := h.noEmptyRoom.joinRoom r c
  registered_known := h.registered_known
  members_known := by
    intro r' c' hmem
    rw [join_members] at hmem
    by_cases hr : r' = r
    · rw [if_pos hr, OrderedSet.mem_insert] at hmem
      rcases hmem with hmem | rfl
      · exact h.members_known r c' hmem
      · exact hc
    · rw [if_neg hr] at hmem
      exact h.members_known r' c' hmem
  agree := by
    intro c' hc' r'
    have hagree := h.agree c' hc' r'
    rw [join_members, join_rooms]
    by_cases hr : r' = r
    · subst hr
      by_cases heq : c' = c
      · simp [heq]
      · simp [heq, hagree]
    · by_cases heq : c' = c
      · subst heq
        simp [hr, hagree]
      · simp [hr, heq, hagree]
  suspended_known := h.suspended_known
  suspended_reported := h.suspended_reported

theorem WellFormed.leave {m : Memberships} (h : m.WellFormed) (r : RoomId) (c : ConnectionId) :
    (m.leave r c).WellFormed where
  indexed := h.indexed
  noEmptyRoom := h.noEmptyRoom.leaveRoom r c
  registered_known := h.registered_known
  members_known := by
    intro r' c' hmem
    rw [leave_members] at hmem
    by_cases hr : r' = r
    · rw [if_pos hr, OrderedSet.mem_erase] at hmem
      exact h.members_known r c' hmem.2
    · rw [if_neg hr] at hmem
      exact h.members_known r' c' hmem
  agree := by
    intro c' hc' r'
    have hagree := h.agree c' hc' r'
    rw [leave_members, leave_rooms]
    by_cases hr : r' = r
    · subst hr
      by_cases heq : c' = c
      · simp [heq]
      · simp [heq, hagree]
    · by_cases heq : c' = c
      · subst heq
        simp [hr, hagree]
      · simp [hr, heq, hagree]
  suspended_known := h.suspended_known
  suspended_reported := h.suspended_reported

theorem WellFormed.suspend {m : Memberships} (h : m.WellFormed) {k : Suspended}
    (hknown : k.sender.connectionId ∈ m.known) (hreported : m.Reported k) :
    (m.suspend k).WellFormed where
  indexed := h.indexed
  noEmptyRoom := h.noEmptyRoom
  registered_known := h.registered_known
  members_known := h.members_known
  agree := h.agree
  suspended_known := by
    intro k' hk'
    rw [Memberships.suspend, List.mem_append, List.mem_singleton] at hk'
    rcases hk' with hk' | rfl
    · exact h.suspended_known k' hk'
    · exact hknown
  suspended_reported := by
    intro k' hk'
    rw [Memberships.suspend, List.mem_append, List.mem_singleton] at hk'
    rcases hk' with hk' | rfl
    · exact h.suspended_reported k' hk'
    · exact hreported

/-- The room handlers of a known sender keep the invariant. -/
theorem kept_wellFormed (cfg : Config) (sender : Connection) (envelope : PulseEventEnvelope) :
    Kept cfg sender envelope fun m => m.WellFormed ∧ sender.connectionId ∈ m.known where
  join := fun _ r _ h => ⟨h.1.join h.2 r, h.2⟩
  leave := fun _ r h => ⟨h.1.leave r sender.connectionId, h.2⟩
  updateSeq := by
    intro m h
    rw [updateSeq_eq]
    exact ⟨h.1.congr rfl rfl rfl rfl id fun _ hk => hk, h.2⟩
  suspend := by
    intro m k hk _ hreported h
    exact ⟨h.1.suspend (hk ▸ h.2) hreported, h.2⟩

theorem WellFormed.updateRegistry {m : Memberships} (h : m.WellFormed)
    (f : Subscriptions → Subscriptions) : (m.updateRegistry f).WellFormed :=
  h.congr rfl rfl rfl rfl id fun _ hk => hk

theorem WellFormed.connect {m : Memberships} (h : m.WellFormed) {connection : Connection}
    (fresh : connection.connectionId ∉ m.known) : (m.connect connection).WellFormed := by
  have hunregistered : connection.connectionId ∉ m.hub.connectionManager.connections.keys :=
    fun hmem => fresh (h.registered_known _ hmem)
  refine ⟨h.indexed.addConnection hunregistered, h.noEmptyRoom, ?_, ?_, ?_, ?_, ?_⟩
  · intro c hc
    simp only [Memberships.connect, Hub.addConnection_connectionManager,
      ConnectionManager.addConnection, OrderedMap.mem_keys_set] at hc
    rcases hc with rfl | hc
    · exact OrderedSet.mem_insert.mpr (Or.inr rfl)
    · exact OrderedSet.mem_insert.mpr (Or.inl (h.registered_known c hc))
  · intro r c hc
    exact OrderedSet.mem_insert.mpr (Or.inl (h.members_known r c hc))
  · intro c hc r
    simp only [Memberships.connect, Hub.addConnection_connectionManager,
      ConnectionManager.addConnection, OrderedMap.mem_keys_set] at hc
    by_cases heq : c = connection.connectionId
    · -- A new connection has no rooms, and no room has its id yet.
      subst heq
      have hnot : connection.connectionId ∉ m.hub.roomManager.members r :=
        fun hmem => fresh (h.members_known r _ hmem)
      simp [Memberships.connect, hnot]
    · have hold := h.agree c (hc.resolve_left heq) r
      simp only [Memberships.connect, Function.update_of_ne heq]
      exact hold
  · intro k hk
    exact OrderedSet.mem_insert.mpr (Or.inl (h.suspended_known k hk))
  · exact h.suspended_reported

theorem mem_keys_close {m : Memberships} {c c' : ConnectionId} :
    c' ∈ (m.close c).hub.connectionManager.connections.keys ↔
      c' ≠ c ∧ c' ∈ m.hub.connectionManager.connections.keys := by
  simp only [close, Hub.removeConnectionFromAllRooms_connectionManager,
    Hub.removeConnection_connectionManager]
  cases hc : m.hub.connectionManager.connections.get? c with
  | none =>
      simp only [ConnectionManager.removeConnection, hc]
      have hnot := OrderedMap.get?_eq_none_iff.mp hc
      constructor
      · intro hmem
        exact ⟨fun heq => hnot (heq ▸ hmem), hmem⟩
      · exact fun hmem => hmem.2
  | some connection =>
      simp only [ConnectionManager.removeConnection, hc]
      exact OrderedMap.mem_keys_delete

theorem mem_members_close {m : Memberships} {c c' : ConnectionId} {r : RoomId} :
    c' ∈ (m.close c).hub.roomManager.members r ↔
      c' ≠ c ∧ c' ∈ m.hub.roomManager.members r := by
  simp only [close, Hub.mem_members_removeConnectionFromAllRooms,
    Hub.removeConnection_roomManager]

theorem WellFormed.close {m : Memberships} (h : m.WellFormed) (c : ConnectionId) :
    (m.close c).WellFormed where
  indexed := by
    simp only [Memberships.close, Hub.removeConnectionFromAllRooms_connectionManager,
      Hub.removeConnection_connectionManager]
    exact h.indexed.removeConnection c
  noEmptyRoom := by
    refine Hub.removeConnectionFromAllRooms_induction
      (P := fun hub => hub.roomManager.NoEmptyRoom) (fun hub r h => h.leaveRoom r c) ?_ _
    rw [Hub.removeConnection_roomManager]
    exact h.noEmptyRoom
  registered_known := fun c' hc' => h.registered_known c' (mem_keys_close.mp hc').2
  members_known := fun r c' hc' => h.members_known r c' (mem_members_close.mp hc').2
  agree := by
    intro c' hc' r
    obtain ⟨hne, hkey⟩ := mem_keys_close.mp hc'
    rw [mem_members_close]
    exact (h.agree c' hkey r).trans (by simp [hne])
  suspended_known := h.suspended_known
  suspended_reported := h.suspended_reported

theorem WellFormed.eraseSuspended {m : Memberships} (h : m.WellFormed) (i : Nat) :
    ({ m with suspended := m.suspended.eraseIdx i } : Memberships).WellFormed :=
  h.congr rfl rfl rfl rfl id fun _ hk => List.mem_of_mem_eraseIdx hk

/-- A registered connection carries its own id, and is known. -/
theorem WellFormed.registered {m : Memberships} (h : m.WellFormed) {c : ConnectionId}
    {connection : Connection}
    (hc : m.hub.connectionManager.getConnection c = some connection) :
    connection.connectionId = c ∧ c ∈ m.hub.connectionManager.connections.keys ∧ c ∈ m.known :=
  have hkey := OrderedMap.mem_keys_of_get? hc
  ⟨h.indexed.id_eq c connection hc, hkey, h.registered_known c hkey⟩

theorem WellFormed.effect {cfg : Config} {m m' : Memberships} {e : NodeEvent}
    (h : m.WellFormed) (effect : Effect cfg m m' e) : m'.WellFormed := by
  cases e with
  | connect connection tick =>
      obtain ⟨fresh, rfl⟩ := effect
      exact h.connect fresh
  | frame connectionId raw tick =>
      obtain ⟨sender, hsender, change⟩ := effect
      obtain ⟨hid, -, hknown⟩ := h.registered hsender
      refine (Kept.frameChange (fun envelope _ => kept_wellFormed cfg sender envelope)
        ⟨h, hid ▸ hknown⟩ ?_ change).1
      exact fun m f _ hm => ⟨hm.1.updateRegistry f, hm.2⟩
  | resume i online tick =>
      obtain ⟨k, hk, rfl⟩ := effect
      have hknown := h.suspended_known k (List.mem_of_getElem? hk)
      exact ((kept_wellFormed cfg k.sender k.envelope).continueHandler
        ⟨h.eraseSuspended i, hknown⟩ online tick.reply).1
  | close connectionId =>
      obtain ⟨-, rfl⟩ := effect
      exact h.close connectionId
  | redisMessage channel raw tick =>
      rw [effect]
      exact h
  | subscriptionSettled i accepted =>
      obtain ⟨s, s', -, -, rfl⟩ := effect
      exact h.updateRegistry _
  | publishSettled =>
      obtain ⟨f, -, rfl⟩ := effect
      exact h.updateRegistry f
  | link connected =>
      obtain ⟨f, -, rfl⟩ := effect
      exact h.updateRegistry f
  | setPresenceManager =>
      rw [effect]
      exact h.congr rfl rfl rfl rfl (fun _ => rfl) fun _ hk => hk
  | transport connectionId readyState bufferedAmount sendFails =>
      rw [effect]
      exact h

/-- A node does not lose its presence manager. -/
theorem presence_effect {cfg : Config} {m m' : Memberships} {e : NodeEvent}
    (h : m.presence = true) (effect : Effect cfg m m' e) : m'.presence = true := by
  have kept : ∀ (sender : Connection) (envelope : PulseEventEnvelope),
      Kept cfg sender envelope fun m => m.presence = true := by
    intro sender envelope
    refine ⟨fun _ _ _ h => h, fun _ _ h => h, ?_, fun _ _ _ _ _ h => h⟩
    intro m h
    rw [updateSeq_eq]
    exact h
  cases e with
  | connect connection tick =>
      obtain ⟨-, rfl⟩ := effect
      exact h
  | frame connectionId raw tick =>
      obtain ⟨sender, -, change⟩ := effect
      exact Kept.frameChange (fun envelope _ => kept sender envelope) h (fun _ _ _ h => h) change
  | resume i online tick =>
      obtain ⟨k, -, rfl⟩ := effect
      exact (kept k.sender k.envelope).continueHandler
        (m := { m with suspended := m.suspended.eraseIdx i }) h online tick.reply
  | close connectionId =>
      obtain ⟨-, rfl⟩ := effect
      exact h
  | subscriptionSettled i accepted =>
      obtain ⟨s, s', -, -, rfl⟩ := effect
      exact h
  | publishSettled =>
      obtain ⟨f, -, rfl⟩ := effect
      exact h
  | link connected =>
      obtain ⟨f, -, rfl⟩ := effect
      exact h
  | setPresenceManager =>
      rw [effect]
  | redisMessage =>
      rw [effect]
      exact h
  | transport =>
      rw [effect]
      exact h

end Memberships

namespace Node

open Memberships

theorem wellFormed_initial (redis : Option Bool) (presence : Bool) :
    (initial redis presence).memberships.WellFormed where
  indexed := ConnectionManager.Indexed.empty
  noEmptyRoom := fun _ hr => absurd hr List.not_mem_nil
  registered_known := fun _ hc => absurd hc List.not_mem_nil
  members_known := fun _ c hc => absurd hc (OrderedSet.not_mem_empty c)
  agree := fun _ hc => absurd hc List.not_mem_nil
  suspended_known := fun _ hk => absurd hk List.not_mem_nil
  suspended_reported := fun _ hk => absurd hk List.not_mem_nil

theorem wellFormed_step (cfg : ServerConfig) (n : Node) (e : NodeEvent) (n' : Node)
    (h : n.memberships.WellFormed) (hstep : n.step cfg e = some n') :
    n'.memberships.WellFormed :=
  h.effect (step_effect hstep)

/-- In every reachable state a registered connection lists exactly the rooms which list
it, and no room is kept empty. -/
theorem membership_views_agree (cfg : ServerConfig) (redis : Option Bool) (presence : Bool)
    (es : List NodeEvent) :
    Always (step cfg)
      (fun n =>
        (∀ c connection, n.getConnection c = some connection → ∀ roomId,
          roomId ∈ n.memberships.rooms connection.connectionId ↔
            connection.connectionId ∈ n.memberships.hub.roomManager.members roomId) ∧
        ∀ roomId ∈ n.memberships.hub.roomManager.getAllRoomIds,
          0 < n.memberships.hub.roomManager.getConnectionCountInRoom roomId)
      (initial redis presence) es := by
  refine (always_of_invariant (wellFormed_step cfg) (wellFormed_initial redis presence)
    es).mono ?_
  intro n h
  refine ⟨?_, h.noEmptyRoom⟩
  intro c connection hc roomId
  obtain ⟨hid, hkey, -⟩ := h.registered hc
  rw [hid]
  exact h.agree c hkey roomId

end Node

end Pulse
