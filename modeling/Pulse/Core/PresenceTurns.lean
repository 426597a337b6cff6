import Pulse.Core.PresenceCluster

/-!
# Turns of the room handlers

Between two waits a room handler makes at most one change to the memberships and sends
at most one presence call, and the call says what the change was: a user is reported to
be in a room when a connection joins it, and to be out when the last connection of the
user on this node leaves.
-/

namespace Pulse

open Collections Js MessageDispatcher

namespace Memberships

/-- One turn of a handler of the sender, with the calls it makes. -/
inductive PresenceTurn (m : Memberships) (sender : Connection) (m' : Memberships) :
    List PresenceCall → Prop
  | idle (members : ∀ r c, c ∈ m'.hub.roomManager.members r ↔ c ∈ m.hub.roomManager.members r) :
      PresenceTurn m sender m' []
  | roster (members : ∀ r c, c ∈ m'.hub.roomManager.members r ↔ c ∈ m.hub.roomManager.members r)
      (roomId : RoomId) : PresenceTurn m sender m' [.getRoomRoster roomId]
  | joined (roomId : RoomId) (identifier : IsIdentifier roomId)
      (members : ∀ r c, c ∈ m'.hub.roomManager.members r ↔
        c ∈ m.hub.roomManager.members r ∨ r = roomId ∧ c = sender.connectionId) :
      PresenceTurn m sender m' [.addRoomMember roomId sender.userId]
  | left (roomId : RoomId)
      (members : ∀ r c, c ∈ m'.hub.roomManager.members r ↔
        c ∈ m.hub.roomManager.members r ∧ ¬ (r = roomId ∧ c = sender.connectionId))
      (last : ∀ c, m.HasConnection sender.userId c → c ≠ sender.connectionId →
        c ∉ m.hub.roomManager.members roomId) :
      PresenceTurn m sender m' [.removeRoomMember roomId sender.userId]
  | leftOther (roomId : RoomId)
      (members : ∀ r c, c ∈ m'.hub.roomManager.members r ↔
        c ∈ m.hub.roomManager.members r ∧ ¬ (r = roomId ∧ c = sender.connectionId))
      (other : ∃ c ≠ sender.connectionId, m.HasConnection sender.userId c ∧
        c ∈ m.hub.roomManager.members roomId) :
      PresenceTurn m sender m' []

/-- The handler makes a turn, and the calls of the turn are the ones it waits for. -/
def TakesTurn (m : Memberships) (sender : Connection) (m' : Memberships)
    (calls : List PresenceCall) : Prop :=
  PresenceTurn m sender m' calls ∧
    awaitedCalls m.suspended m' = calls.map fun call => { call, awaited := true }

variable {cfg : Config} {m : Memberships} {sender : Connection} {envelope : PulseEventEnvelope}
variable {fresh : Fresh}

/-- A turn is about the managers only. -/
theorem PresenceTurn.of_hub {m₁ m' : Memberships} {calls : List PresenceCall}
    (h : PresenceTurn m sender m' calls) (hub : m₁.hub = m.hub) :
    PresenceTurn m₁ sender m' calls := by
  cases h with
  | idle members => exact .idle (by rwa [hub])
  | roster members roomId => exact .roster (by rwa [hub]) roomId
  | joined roomId identifier members => exact .joined roomId identifier (by rwa [hub])
  | left roomId members last =>
      refine .left roomId (by rwa [hub]) ?_
      rw [hub]
      intro c hc
      rw [HasConnection, hub] at hc
      exact last c hc
  | leftOther roomId members other =>
      refine .leftOther roomId (by rwa [hub]) ?_
      obtain ⟨c, hne, hconnection, hmem⟩ := other
      refine ⟨c, hne, ?_, ?_⟩
      · rw [HasConnection, hub]
        exact hconnection
      · rw [hub]
        exact hmem

theorem awaitedCalls_of_eq {m' : Memberships} {kept : List Suspended} (h : m'.suspended = kept) :
    awaitedCalls kept m' = [] := by
  rw [awaitedCalls, h, List.drop_length]
  rfl

@[simp] theorem awaitedCalls_suspend (m : Memberships) (k : Suspended) :
    awaitedCalls m.suspended (m.suspend k) = [{ call := k.call, awaited := true }] := by
  simp [awaitedCalls, suspend]

@[simp] theorem updateSeq_suspended (m : Memberships) (c : ConnectionId)
    (envelope : PulseEventEnvelope) : (m.updateSeq c envelope).suspended = m.suspended := by
  rw [updateSeq_eq]

@[simp] theorem updateSeq_hub (m : Memberships) (c : ConnectionId)
    (envelope : PulseEventEnvelope) : (m.updateSeq c envelope).hub = m.hub := by
  rw [updateSeq_eq]

@[simp] theorem updateSeq_presence (m : Memberships) (c : ConnectionId)
    (envelope : PulseEventEnvelope) : (m.updateSeq c envelope).presence = m.presence := by
  rw [updateSeq_eq]

theorem takesTurn_of_same {m' : Memberships} (hub : m'.hub.roomManager = m.hub.roomManager)
    (suspended : m'.suspended = m.suspended) : TakesTurn m sender m' [] :=
  ⟨.idle fun r c => by rw [hub], awaitedCalls_of_eq suspended⟩

theorem takesTurn_updateSeq (c : ConnectionId) (envelope : PulseEventEnvelope) :
    TakesTurn m sender (m.updateSeq c envelope) [] :=
  takesTurn_of_same (by rw [updateSeq_hub]) (updateSeq_suspended m c envelope)

/-- The rest of a join asks for the roster. -/
theorem takesTurn_roomJoinAdded (presence : m.presence = true) (roomId : RoomId) :
    TakesTurn m sender (roomJoinAdded m sender envelope roomId fresh).1
      [.getRoomRoster roomId] := by
  have hpresence : (m.updateSeq sender.connectionId envelope).presence = true := by
    rw [updateSeq_presence, presence]
  simp only [roomJoinAdded, if_pos hpresence]
  refine ⟨.roster (fun r c => ?_) roomId, ?_⟩
  · rw [suspend, updateSeq_hub]
  · rw [← updateSeq_suspended m sender.connectionId envelope, awaitedCalls_suspend]
    rfl

theorem takesTurn_join {k : Suspended} {roomId : RoomId} (identifier : IsIdentifier roomId)
    (call : k.call = .addRoomMember roomId sender.userId) :
    TakesTurn m sender ((m.join roomId sender.connectionId).suspend k)
      [.addRoomMember roomId sender.userId] := by
  refine ⟨.joined roomId identifier fun r c => ?_, ?_⟩
  · have hmembers : ((m.join roomId sender.connectionId).suspend k).hub.roomManager.members r =
        if r = roomId then (m.hub.roomManager.members roomId).insert sender.connectionId
        else m.hub.roomManager.members r := join_members m roomId r sender.connectionId
    rw [hmembers]
    by_cases hr : r = roomId
    · simp [hr]
    · simp [hr]
  · have hcalls := awaitedCalls_suspend (m.join roomId sender.connectionId) k
    rw [call] at hcalls
    exact hcalls

theorem takesTurn_handleRoomJoin (reports : m.reportsPresence sender = true) :
    ∃ calls, TakesTurn m sender (handleRoomJoin cfg m sender envelope fresh).1 calls := by
  simp only [handleRoomJoin]
  split
  · exact ⟨[], takesTurn_of_same rfl rfl⟩
  · rename_i hvalid
    split
    · exact ⟨[], takesTurn_of_same rfl rfl⟩
    · have hreports : (m.join (envelope.targetRoomId.getD "")
          sender.connectionId).reportsPresence sender = true := reports
      rw [if_pos hreports]
      exact ⟨_, takesTurn_join (isIdentifier_of_isValidRoomId (by simpa using hvalid)) rfl⟩

theorem isValidRoomId_of_nextJoin {c : ConnectionId} {batch : BatchJoin} {roomId : RoomId}
    {rest : List Json} (h : m.nextJoin cfg c batch = some (roomId, rest)) :
    isValidRoomId cfg roomId = true := by
  rw [nextJoin] at h
  split at h
  · cases h
  · rename_i entry entries hdrop
    split at h
    · cases h
    · cases h
      have hne : batch.remaining.dropWhile (fun entry => !isValidRoomId cfg (batchEntry entry)) ≠
          [] := by
        rw [hdrop]
        exact List.cons_ne_nil _ _
      have hhead := List.head_dropWhile_not _ hne
      simpa [hdrop] using hhead

/-- A turn of a batch join, at its start or behind a wait. -/
theorem takesTurn_batch (cfg : Config) (envelope : PulseEventEnvelope) (fresh : Fresh)
    (reports : m.reportsPresence sender = true) (batch : BatchJoin) :
    ∃ calls, TakesTurn m sender (batchJoinLoop cfg sender envelope batch.currentCount fresh
        batch.remaining m batch.joinedRooms batch.newlyAdded).1 calls ∧
      ∀ roomId, calls = [.addRoomMember roomId sender.userId] →
        (m.nextJoin cfg sender.connectionId batch).map Prod.fst = some roomId := by
  rw [batchJoinLoop_turn reports]
  cases hnext : m.nextJoin cfg sender.connectionId batch with
  | none => exact ⟨[], takesTurn_updateSeq _ _, nofun⟩
  | some next =>
      obtain ⟨roomId, rest⟩ := next
      refine ⟨_, takesTurn_join
        (isIdentifier_of_isValidRoomId (isValidRoomId_of_nextJoin hnext)) ?_, ?_⟩
      · simp [Suspended.call, BatchJoin.advance]
      · rintro roomId' ⟨⟩
        rfl

theorem takesTurn_handleRoomBatchJoin (reports : m.reportsPresence sender = true) :
    ∃ calls, TakesTurn m sender (handleRoomBatchJoin cfg m sender envelope fresh).1 calls := by
  rw [handleRoomBatchJoin]
  split
  · simp only
    split
    · exact ⟨[], takesTurn_of_same rfl rfl⟩
    · rename_i rooms _ _
      obtain ⟨calls, hturn, -⟩ := takesTurn_batch cfg envelope fresh reports
        { remaining := rooms, joinedRooms := [], newlyAdded := 0
          currentCount := (m.rooms sender.connectionId).size }
      exact ⟨calls, hturn⟩
  · exact ⟨[], takesTurn_of_same rfl rfl⟩

theorem takesTurn_handleRoomLeave (wf : m.WellFormed) (reports : m.reportsPresence sender = true) :
    ∃ calls, TakesTurn m sender (handleRoomLeave m sender envelope fresh).1 calls := by
  have hmembers : ∀ r c, c ∈ (m.leave (envelope.targetRoomId.getD "")
      sender.connectionId).hub.roomManager.members r ↔ c ∈ m.hub.roomManager.members r ∧
        ¬ (r = envelope.targetRoomId.getD "" ∧ c = sender.connectionId) := by
    intro r c
    rw [leave_members]
    by_cases hr : r = envelope.targetRoomId.getD ""
    · subst hr
      simp [and_comm]
    · simp [hr]
  -- The handler looks into the rooms of the connections, which agree with those of the node.
  have hother : (((m.leave (envelope.targetRoomId.getD "")
      sender.connectionId).hub.connectionManager.getConnectionsByUserId sender.userId).any fun c =>
        c.connectionId != sender.connectionId && decide (envelope.targetRoomId.getD "" ∈
          (m.leave (envelope.targetRoomId.getD "") sender.connectionId).rooms c.connectionId)) =
        true ↔ ∃ c ≠ sender.connectionId, m.HasConnection sender.userId c ∧
          c ∈ m.hub.roomManager.members (envelope.targetRoomId.getD "") := by
    rw [List.any_eq_true]
    constructor
    · rintro ⟨connection, hconnection, htest⟩
      obtain ⟨hget, huser⟩ := wf.indexed.mem_getConnectionsByUserId.mp hconnection
      simp only [Bool.and_eq_true, bne_iff_ne, decide_eq_true_eq] at htest
      obtain ⟨hne, hroom⟩ := htest
      rw [leave_rooms, if_neg hne] at hroom
      exact ⟨connection.connectionId, hne, ⟨connection, hget, huser⟩,
        (wf.agree _ (OrderedMap.mem_keys_of_get? hget) _).mp hroom⟩
    · rintro ⟨c, hne, ⟨connection, hget, huser⟩, hmem⟩
      have hid : connection.connectionId = c := wf.indexed.id_eq c connection hget
      subst hid
      refine ⟨connection, wf.indexed.mem_getConnectionsByUserId.mpr ⟨hget, huser⟩, ?_⟩
      simp only [Bool.and_eq_true, bne_iff_ne, decide_eq_true_eq]
      refine ⟨hne, ?_⟩
      rw [leave_rooms, if_neg hne]
      exact (wf.agree _ (OrderedMap.mem_keys_of_get? hget) _).mpr hmem
  have hreports : (m.leave (envelope.targetRoomId.getD "")
      sender.connectionId).reportsPresence sender = true := reports
  simp only [handleRoomLeave, hreports, Bool.true_and]
  split
  · rename_i hlast
    rw [Bool.not_eq_true', ← Bool.not_eq_true, hother] at hlast
    refine ⟨_, .left _ hmembers ?_, awaitedCalls_suspend _ _⟩
    intro c hconnection hne hmem
    exact hlast ⟨c, hne, hconnection, hmem⟩
  · rename_i hnot
    rw [Bool.not_eq_true', Bool.not_eq_false, hother] at hnot
    refine ⟨[], .leftOther _ (fun r c => ?_) hnot, ?_⟩
    · rw [roomLeaveDone, updateSeq_hub]
      exact hmembers r c
    · refine awaitedCalls_of_eq ?_
      rw [roomLeaveDone, updateSeq_suspended]
      rfl

/-- A frame makes one turn. -/
theorem FrameChange.takesTurn {m' : Memberships} (wf : m.WellFormed)
    (reports : m.reportsPresence sender = true) (change : FrameChange cfg sender m m') :
    ∃ calls, TakesTurn m sender m' calls := by
  cases change with
  | rejected => exact ⟨[], takesTurn_of_same rfl rfl⟩
  | seq envelope inOrder f keeps =>
      refine ⟨[], takesTurn_of_same ?_ ?_⟩
      · rw [updateRegistry, updateSeq_hub]
      · rw [updateRegistry, updateSeq_suspended]
  | join envelope inOrder fresh => exact takesTurn_handleRoomJoin reports
  | batchJoin envelope inOrder fresh => exact takesTurn_handleRoomBatchJoin reports
  | leave envelope inOrder fresh => exact takesTurn_handleRoomLeave wf reports

/-- A resumed handler makes one turn, and only the rest of a batch join joins a room. -/
theorem takesTurn_continueHandler (cfg : Config) (fresh : Fresh) (wf : m.WellFormed)
    (presence : m.presence = true) {k : Suspended} {i : Nat} (hk : m.suspended[i]? = some k)
    (online : Option (List UserId)) :
    ∃ calls, TakesTurn { m with suspended := m.suspended.eraseIdx i } k.sender
        (continueHandler cfg { m with suspended := m.suspended.eraseIdx i } online fresh k).1
        calls ∧
      ∀ roomId, calls = [.addRoomMember roomId k.sender.userId] →
        k.joins cfg m = some roomId := by
  have hreported := wf.suspended_reported k (List.mem_of_getElem? hk)
  cases k with
  | addRoomMember sender envelope roomId =>
      refine ⟨[.getRoomRoster roomId], takesTurn_roomJoinAdded
        (m := { m with suspended := m.suspended.eraseIdx i }) presence roomId, ?_⟩
      intro roomId' h
      cases h
  | getRoomRoster sender envelope roomId => exact ⟨[], takesTurn_of_same rfl rfl, nofun⟩
  | batchAddRoomMember sender envelope batch =>
      obtain ⟨calls, hturn, hjoins⟩ := takesTurn_batch
        (m := { m with suspended := m.suspended.eraseIdx i }) cfg envelope fresh hreported batch
      exact ⟨calls, hturn, hjoins⟩
  | removeRoomMember sender envelope roomId =>
      exact ⟨[], takesTurn_updateSeq _ _, nofun⟩

/-- Who makes a turn: a registered connection by a frame, or the sender of a suspended handler. -/
inductive TurnOf (cfg : Config) (m : Memberships) (sender : Connection)
    (calls : List PresenceCall) : NodeEvent → Prop
  | frame {c : ConnectionId} {raw : Option Json} {tick : Tick}
      (registered : m.HasConnection sender.userId sender.connectionId) :
      TurnOf cfg m sender calls (.frame c raw tick)
  | resume {i : Nat} {online : Option (List UserId)} {tick : Tick} {k : Suspended}
      (suspended : m.suspended[i]? = some k) (sender_eq : k.sender = sender)
      (joins : ∀ roomId, calls = [.addRoomMember roomId sender.userId] →
        k.joins cfg m = some roomId) :
      TurnOf cfg m sender calls (.resume i online tick)

/-- What an event does to the memberships of a node with presence, and the calls it makes. -/
inductive Moves (cfg : Config) (m : Memberships) :
    NodeEvent → Memberships → List SentCall → Prop
  | connect (connection : Connection) (tick : Tick) (fresh : connection.connectionId ∉ m.known) :
      Moves cfg m (.connect connection tick) (m.connect connection)
        [⟨.registerConnection connection.userId connection.connectionId, false⟩]
  | close (c : ConnectionId) (connection : Connection)
      (registered : m.hub.connectionManager.getConnection c = some connection) :
      Moves cfg m (.close c) (m.close c) [⟨.removeConnection connection.userId c, false⟩]
  | turn {e : NodeEvent} {m' : Memberships} (sender : Connection) (calls : List PresenceCall)
      (turnOf : TurnOf cfg m sender calls e) (turn : PresenceTurn m sender m' calls)
      (own : ∀ connection, m.hub.connectionManager.getConnection sender.connectionId =
        some connection → connection = sender)
      (connectionManager : m'.hub.connectionManager = m.hub.connectionManager)
      (suspended : ∀ k ∈ m'.suspended, k ∈ m.suspended ∨ k.sender = sender) :
      Moves cfg m e m' (calls.map fun call => { call, awaited := true })
  | quiet {e : NodeEvent} {m' : Memberships}
      (connectionManager : m'.hub.connectionManager = m.hub.connectionManager)
      (roomManager : m'.hub.roomManager = m.hub.roomManager)
      (suspended : m'.suspended = m.suspended) : Moves cfg m e m' []

theorem kept_suspended (cfg : Config) (sender : Connection) (envelope : PulseEventEnvelope)
    (m₀ : Memberships) :
    Kept cfg sender envelope fun m => ∀ k ∈ m.suspended, k ∈ m₀.suspended ∨ k.sender = sender where
  join := fun _ _ _ h => h
  leave := fun _ _ h => h
  updateSeq := by
    intro m h
    rw [updateSeq_suspended]
    exact h
  suspend := by
    intro m k hk _ _ h k' hk'
    rw [suspend, List.mem_append, List.mem_singleton] at hk'
    obtain hold | rfl := hk'
    · exact h k' hold
    · exact Or.inr hk

/-- A node with presence whose users have plain ids. The sender of a suspended handler is the
connection which is registered under its id, if there is one. -/
structure Proper (m : Memberships) : Prop where
  wellFormed : m.WellFormed
  presence : m.presence = true
  registered : ∀ c connection, m.hub.connectionManager.getConnection c = some connection →
    PlainUserId connection.userId
  suspended : ∀ k ∈ m.suspended, PlainUserId k.sender.userId
  own : ∀ k ∈ m.suspended, ∀ connection,
    m.hub.connectionManager.getConnection k.sender.connectionId = some connection →
      connection = k.sender
  identifier : ∀ r c, c ∈ m.hub.roomManager.members r → IsIdentifier r

theorem Effect.moves {m' : Memberships} {e : NodeEvent} (proper : m.Proper)
    (effect : Effect cfg m m' e) : Moves cfg m e m' (m.sentCalls m' e) := by
  have wf := proper.wellFormed
  cases e with
  | connect connection tick =>
      obtain ⟨fresh, rfl⟩ := effect
      exact .connect connection tick fresh
  | frame connectionId raw tick =>
      obtain ⟨sender, hsender, change⟩ := effect
      have hid : sender.connectionId = connectionId := (wf.registered hsender).1
      have hreports : m.reportsPresence sender = true := by
        simp [reportsPresence, proper.presence, (proper.registered _ sender hsender).2.1]
      obtain ⟨calls, hturn, hcalls⟩ := change.takesTurn wf hreports
      rw [sentCalls, hcalls]
      refine .turn sender calls (.frame ?_) hturn ?_ change.onlyConcerns.connectionManager ?_
      · exact ⟨sender, hid ▸ hsender, rfl⟩
      · intro connection hconnection
        rw [hid, hsender, Option.some.injEq] at hconnection
        exact hconnection.symm
      · exact Kept.frameChange (fun envelope _ => kept_suspended cfg sender envelope m)
          (fun k hk => Or.inl hk) (fun _ _ _ h => h) change
  | resume i online tick =>
      obtain ⟨k, hk, rfl⟩ := effect
      obtain ⟨calls, ⟨hturn, hcalls⟩, hjoins⟩ := takesTurn_continueHandler cfg tick.reply wf
        proper.presence hk online
      rw [sentCalls, hcalls]
      refine .turn k.sender calls (.resume hk rfl hjoins) ?_ ?_ ?_ ?_
      · exact hturn.of_hub rfl
      · exact proper.own k (List.mem_of_getElem? hk)
      · exact (continueHandler_onlyConcerns cfg m i online tick.reply k).connectionManager
      · have herased : ∀ k' ∈ m.suspended.eraseIdx i, k' ∈ m.suspended ∨ k'.sender = k.sender :=
          fun k' hk' => Or.inl (List.mem_of_mem_eraseIdx hk')
        exact (kept_suspended cfg k.sender k.envelope m).continueHandler
          (m := { m with suspended := m.suspended.eraseIdx i }) herased online tick.reply
  | close connectionId =>
      obtain ⟨⟨connection, hconnection⟩, rfl⟩ := effect
      simp only [sentCalls, hconnection]
      exact .close connectionId connection hconnection
  | redisMessage channel raw tick =>
      rw [effect]
      exact .quiet rfl rfl rfl
  | subscriptionSettled i accepted =>
      obtain ⟨s, s', -, -, rfl⟩ := effect
      exact .quiet rfl rfl rfl
  | publishSettled =>
      obtain ⟨f, -, rfl⟩ := effect
      exact .quiet rfl rfl rfl
  | link connected =>
      obtain ⟨f, -, rfl⟩ := effect
      exact .quiet rfl rfl rfl
  | setPresenceManager =>
      rw [effect]
      exact .quiet rfl rfl rfl
  | transport connectionId readyState bufferedAmount sendFails =>
      rw [effect]
      exact .quiet rfl rfl rfl

end Memberships

end Pulse
