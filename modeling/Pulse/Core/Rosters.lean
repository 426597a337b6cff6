import Pulse.Core.PresenceTurns

/-!
# Room sets and memberships

What a step of a cluster with presence does to the connections of a user, to the rooms
which they are in on each node, and to the sets of these rooms in Redis. For one room and
one user the calls of a node boil down to its last pending edit, and a step of another
node does not change that.
-/

namespace Pulse

open Collections Js Transition MessageDispatcher

universe u

namespace Memberships

variable {cfg : Config} {m m' : Memberships} {u : UserId} {c c' : ConnectionId} {r : RoomId}
variable {e : NodeEvent} {calls : List SentCall}

theorem getConnection_connect (m : Memberships) (connection : Connection) (c : ConnectionId) :
    (m.connect connection).hub.connectionManager.getConnection c =
      if c = connection.connectionId then some connection
      else m.hub.connectionManager.getConnection c :=
  OrderedMap.get?_set _ _ _ _

theorem getConnection_close (m : Memberships) (c c' : ConnectionId) :
    (m.close c).hub.connectionManager.getConnection c' =
      if c' = c then none else m.hub.connectionManager.getConnection c' := by
  simp only [close, Hub.removeConnectionFromAllRooms_connectionManager,
    Hub.removeConnection_connectionManager, ConnectionManager.removeConnection]
  split
  · rename_i hnone
    split
    · rename_i heq
      rw [heq]
      exact hnone
    · rfl
  · exact OrderedMap.get?_delete _ _ _

theorem hasConnection_connect {connection : Connection}
    (fresh : m.hub.connectionManager.getConnection connection.connectionId = none) :
    (m.connect connection).HasConnection u c ↔
      m.HasConnection u c ∨ c = connection.connectionId ∧ connection.userId = u := by
  rw [HasConnection, getConnection_connect]
  by_cases hc : c = connection.connectionId
  · subst hc
    simp [HasConnection, fresh]
  · simp [HasConnection, hc]

theorem hasConnection_close :
    (m.close c).HasConnection u c' ↔ m.HasConnection u c' ∧ c' ≠ c := by
  rw [HasConnection, getConnection_close]
  by_cases hc : c' = c
  · simp [hc]
  · simp [HasConnection, hc]

theorem hasConnection_of_connectionManager
    (h : m'.hub.connectionManager = m.hub.connectionManager) :
    m'.HasConnection u c ↔ m.HasConnection u c := by
  rw [HasConnection, HasConnection, h]

/-- A new connection is in no room. -/
theorem isMember_connect {connection : Connection} (wf : m.WellFormed)
    (fresh : connection.connectionId ∉ m.known) :
    (m.connect connection).IsMember r u ↔ m.IsMember r u := by
  have hnone : m.hub.connectionManager.getConnection connection.connectionId = none :=
    OrderedMap.get?_eq_none_iff.mpr fun hkey => fresh (wf.registered_known _ hkey)
  constructor
  · rintro ⟨c, hconnection, hmem⟩
    obtain hold | ⟨rfl, -⟩ := (hasConnection_connect hnone).mp hconnection
    · exact ⟨c, hold, hmem⟩
    · exact absurd (wf.members_known r _ hmem) fresh
  · rintro ⟨c, hconnection, hmem⟩
    exact ⟨c, (hasConnection_connect hnone).mpr (Or.inl hconnection), hmem⟩

theorem isMember_close :
    (m.close c).IsMember r u ↔
      ∃ c' ≠ c, m.HasConnection u c' ∧ c' ∈ m.hub.roomManager.members r := by
  constructor
  · rintro ⟨c', hconnection, hmem⟩
    obtain ⟨hold, hne⟩ := hasConnection_close.mp hconnection
    exact ⟨c', hne, hold, (mem_members_close.mp hmem).2⟩
  · rintro ⟨c', hne, hconnection, hmem⟩
    exact ⟨c', hasConnection_close.mpr ⟨hconnection, hne⟩, mem_members_close.mpr ⟨hne, hmem⟩⟩

/-- A connection that makes a turn belongs to a user with a plain id. -/
theorem Proper.plain_sender (h : m.Proper) {sender : Connection} {calls : List PresenceCall}
    (turnOf : TurnOf cfg m sender calls e)
    (own : ∀ connection, m.hub.connectionManager.getConnection sender.connectionId =
      some connection → connection = sender) : PlainUserId sender.userId := by
  cases turnOf with
  | frame registered =>
      obtain ⟨connection, hconnection, -⟩ := registered
      obtain rfl := own connection hconnection
      exact h.registered _ connection hconnection
  | resume hk sender_eq joins =>
      rw [← sender_eq]
      exact h.suspended _ (List.mem_of_getElem? hk)

/-- Only identifiers become rooms. -/
theorem PresenceTurn.identifier {sender : Connection} {calls : List PresenceCall}
    (turn : PresenceTurn m sender m' calls)
    (h : ∀ r c, c ∈ m.hub.roomManager.members r → IsIdentifier r) :
    ∀ r c, c ∈ m'.hub.roomManager.members r → IsIdentifier r := by
  intro r c hmem
  cases turn with
  | idle members => exact h r c ((members r c).mp hmem)
  | roster members roomId => exact h r c ((members r c).mp hmem)
  | joined roomId identifier members =>
      obtain hold | ⟨rfl, -⟩ := (members r c).mp hmem
      · exact h r c hold
      · exact identifier
  | left roomId members last => exact h r c ((members r c).mp hmem).1
  | leftOther roomId members other => exact h r c ((members r c).mp hmem).1

/-- The invariant lasts as long as only users with plain ids connect. -/
theorem Proper.move (h : m.Proper) (effect : Effect cfg m m' e)
    (plain : ∀ connection tick, e = .connect connection tick → PlainUserId connection.userId) :
    m'.Proper := by
  have wf := h.wellFormed.effect effect
  have hpresence := presence_effect h.presence effect
  have hmoves := effect.moves h
  generalize m.sentCalls m' e = calls at hmoves
  cases hmoves with
  | connect connection tick fresh =>
      refine ⟨wf, hpresence, ?_, h.suspended, ?_, h.identifier⟩
      · intro c connection' hconnection
        rw [getConnection_connect] at hconnection
        split at hconnection
        · cases hconnection
          exact plain connection tick rfl
        · exact h.registered c connection' hconnection
      · intro k hk connection' hconnection
        have hne : k.sender.connectionId ≠ connection.connectionId :=
          fun heq => fresh (heq ▸ h.wellFormed.suspended_known k hk)
        rw [getConnection_connect, if_neg hne] at hconnection
        exact h.own k hk connection' hconnection
  | close c connection registered =>
      have hold : ∀ c' connection', (m.close c).hub.connectionManager.getConnection c' =
          some connection' → m.hub.connectionManager.getConnection c' = some connection' := by
        intro c' connection' hconnection
        rw [getConnection_close] at hconnection
        split at hconnection
        · cases hconnection
        · exact hconnection
      exact ⟨wf, hpresence, fun c' connection' hc' => h.registered c' connection' (hold _ _ hc'),
        h.suspended, fun k hk connection' hc' => h.own k hk connection' (hold _ _ hc'),
        fun r c' hmem => h.identifier r c' (mem_members_close.mp hmem).2⟩
  | turn sender calls turnOf turn own connectionManager suspended =>
      have hsender := h.plain_sender turnOf own
      refine ⟨wf, hpresence, ?_, ?_, ?_, turn.identifier h.identifier⟩
      · rw [connectionManager]
        exact h.registered
      · intro k hk
        obtain hold | rfl := suspended k hk
        · exact h.suspended k hold
        · exact hsender
      · rw [connectionManager]
        intro k hk connection hconnection
        obtain hold | rfl := suspended k hk
        · exact h.own k hold connection hconnection
        · exact own connection hconnection
  | quiet connectionManager roomManager suspended =>
      refine ⟨wf, hpresence, ?_, ?_, ?_, ?_⟩
      · rw [connectionManager]
        exact h.registered
      · rw [suspended]
        exact h.suspended
      · rw [connectionManager, suspended]
        exact h.own
      · rw [roomManager]
        exact h.identifier

/-- The calls have an edit of the set of the room. -/
def EditedBy (calls : List SentCall) (r : RoomId) (u : UserId) (added : Bool) : Prop :=
  ∃ sent ∈ calls, sent.call.edit r u = some added

/-- Who becomes a member of a room is put into the set of the room. -/
theorem Moves.added (h : m.Proper) (moves : Moves cfg m e m' calls) (member : m'.IsMember r u) :
    m.IsMember r u ∨ EditedBy calls r u true := by
  cases moves with
  | connect connection tick fresh => exact .inl ((isMember_connect h.wellFormed fresh).mp member)
  | close c connection registered =>
      obtain ⟨c', -, hconnection, hmem⟩ := isMember_close.mp member
      exact .inl ⟨c', hconnection, hmem⟩
  | turn sender calls turnOf turn own connectionManager suspended =>
      have hplain := h.plain_sender turnOf own
      obtain ⟨c, hconnection, hmem⟩ := member
      rw [hasConnection_of_connectionManager connectionManager] at hconnection
      cases turn with
      | idle members => exact .inl ⟨c, hconnection, (members r c).mp hmem⟩
      | roster members roomId => exact .inl ⟨c, hconnection, (members r c).mp hmem⟩
      | joined roomId identifier members =>
          obtain hold | ⟨rfl, rfl⟩ := (members r c).mp hmem
          · exact .inl ⟨c, hconnection, hold⟩
          · right
            obtain ⟨connection, hget, rfl⟩ := hconnection
            obtain rfl := own connection hget
            refine ⟨_, List.mem_singleton.mpr rfl, if_pos ?_⟩
            exact ⟨identifier.1, hplain.1, identifier.2, hplain.2.1⟩
      | left roomId members last => exact .inl ⟨c, hconnection, ((members r c).mp hmem).1⟩
      | leftOther roomId members other =>
          exact .inl ⟨c, hconnection, ((members r c).mp hmem).1⟩
  | quiet connectionManager roomManager suspended =>
      obtain ⟨c, hconnection, hmem⟩ := member
      rw [hasConnection_of_connectionManager connectionManager] at hconnection
      rw [roomManager] at hmem
      exact .inl ⟨c, hconnection, hmem⟩

/-- Who ceases to be a member of a room is taken out of its set, if not by a close. -/
theorem Moves.removed (h : m.Proper) (moves : Moves cfg m e m' calls) (open' : ∀ c, e ≠ .close c)
    (member : m.IsMember r u) : m'.IsMember r u ∨ EditedBy calls r u false := by
  cases moves with
  | connect connection tick fresh => exact .inl ((isMember_connect h.wellFormed fresh).mpr member)
  | close c connection registered => exact absurd rfl (open' c)
  | turn sender calls turnOf turn own connectionManager suspended =>
      have hplain := h.plain_sender turnOf own
      obtain ⟨c, hconnection, hmem⟩ := member
      have hkept := (hasConnection_of_connectionManager connectionManager).mpr hconnection
      cases turn with
      | idle members => exact .inl ⟨c, hkept, (members r c).mpr hmem⟩
      | roster members roomId => exact .inl ⟨c, hkept, (members r c).mpr hmem⟩
      | joined roomId identifier members => exact .inl ⟨c, hkept, (members r c).mpr (.inl hmem)⟩
      | left roomId members last =>
          by_cases hleft : r = roomId ∧ c = sender.connectionId
          · right
            obtain ⟨rfl, rfl⟩ := hleft
            obtain ⟨connection, hget, rfl⟩ := hconnection
            obtain rfl := own connection hget
            have identifier := h.identifier r _ hmem
            refine ⟨_, List.mem_singleton.mpr rfl, if_pos ?_⟩
            exact ⟨identifier.1, hplain.1, identifier.2, hplain.2.1⟩
          · exact .inl ⟨c, hkept, (members r c).mpr ⟨hmem, hleft⟩⟩
      | leftOther roomId members other =>
          by_cases hleft : r = roomId ∧ c = sender.connectionId
          · left
            obtain ⟨rfl, rfl⟩ := hleft
            obtain ⟨connection, hget, rfl⟩ := hconnection
            obtain rfl := own connection hget
            obtain ⟨c', hne, hother, hroom⟩ := other
            have hkept' := (hasConnection_of_connectionManager connectionManager).mpr hother
            exact ⟨c', hkept', (members r c').mpr ⟨hroom, fun hsame => hne hsame.2⟩⟩
          · exact .inl ⟨c, hkept, (members r c).mpr ⟨hmem, hleft⟩⟩
  | quiet connectionManager roomManager suspended =>
      obtain ⟨c, hconnection, hmem⟩ := member
      refine .inl ⟨c, (hasConnection_of_connectionManager connectionManager).mpr hconnection, ?_⟩
      rw [roomManager]
      exact hmem

/-- A user is put into the set of a room by its plain id only. -/
theorem Moves.plain (h : m.Proper) (moves : Moves cfg m e m' calls)
    (edited : EditedBy calls r u true) : PlainUserId u := by
  obtain ⟨sent, hsent, hedit⟩ := edited
  cases moves with
  | connect connection tick fresh =>
      obtain rfl := List.mem_singleton.mp hsent
      cases hedit
  | close c connection registered =>
      obtain rfl := List.mem_singleton.mp hsent
      cases hedit
  | turn sender calls turnOf turn own connectionManager suspended =>
      have hplain := h.plain_sender turnOf own
      cases turn with
      | idle members => cases hsent
      | roster members roomId =>
          obtain rfl := List.mem_singleton.mp hsent
          cases hedit
      | joined roomId identifier members =>
          obtain rfl := List.mem_singleton.mp hsent
          obtain ⟨⟨-, huser, -⟩, -⟩ := Option.ite_none_right_eq_some.mp hedit
          rw [← huser, hplain.1]
          exact hplain
      | left roomId members last =>
          obtain rfl := List.mem_singleton.mp hsent
          obtain ⟨-, hfalse⟩ := Option.ite_none_right_eq_some.mp hedit
          cases hfalse
      | leftOther roomId members other => cases hsent
  | quiet connectionManager roomManager suspended => cases hsent

theorem proper_initial (redis : Option Bool) : (Node.initial redis true).memberships.Proper where
  wellFormed := Node.wellFormed_initial redis true
  presence := rfl
  registered := fun _ _ hget => absurd (OrderedMap.mem_keys_of_get? hget) List.not_mem_nil
  suspended := fun _ hk => absurd hk List.not_mem_nil
  own := fun _ hk => absurd hk List.not_mem_nil
  identifier := fun _ c hmem => absurd hmem (OrderedSet.not_mem_empty c)

end Memberships

namespace PresenceCluster

open Memberships

variable {ι : Type u} [DecidableEq ι] {cfg : ι → ServerConfig} {options : PresenceManagerOptions}
variable {s t : PresenceCluster ι} {e : PresenceClusterEvent ι} {i : ι} {r : RoomId} {u : UserId}
variable {added : Bool}

/-- The inversion lemma of the cluster. -/
theorem step_cases (h : s.step cfg options e = some t) :
    (∃ i event n, e = .node i event ∧ (s.nodes i).step (cfg i) event = some n ∧
      t = ({ s with nodes := Function.update s.nodes i n } : PresenceCluster ι).send i
        ((s.nodes i).memberships.sentCalls n.memberships event)) ∨
    (∃ i call, e = .call i call ∧ (s.nodes i).memberships.OwnCall call ∧
      t = s.send i [⟨call, false⟩]) ∨
    ∃ i now sent rest, e = .execute i now ∧ s.pending i = sent :: rest ∧
      t = s.execute cfg options i now sent.call rest := by
  cases e with
  | node i event =>
      obtain ⟨-, hnode⟩ := Option.ite_none_right_eq_some.mp h
      obtain ⟨n, hn, rfl⟩ := Option.map_eq_some_iff.mp hnode
      exact .inl ⟨i, event, n, rfl, hn, rfl⟩
  | call i call =>
      obtain ⟨own, hsend⟩ := Option.ite_none_right_eq_some.mp h
      exact .inr (.inl ⟨i, call, rfl, own, (Option.some.inj hsend).symm⟩)
  | execute i now =>
      cases hpending : s.pending i with
      | nil => simp [step, hpending] at h
      | cons sent rest =>
          simp only [step, hpending, Option.some.injEq] at h
          exact .inr (.inr ⟨i, now, sent, rest, rfl, hpending, h.symm⟩)

theorem mem_pending_send {calls : List SentCall} {j : ι} {sent : SentCall} :
    sent ∈ (s.send i calls).pending j ↔ sent ∈ s.pending j ∨ j = i ∧ sent ∈ calls := by
  by_cases hj : j = i
  · subst hj
    simp [send]
  · simp [send, hj]

theorem edits_send {calls : List SentCall} :
    (s.send i calls).Edits r u added ↔ s.Edits r u added ∨ EditedBy calls r u added := by
  constructor
  · rintro ⟨j, sent, hsent, hedit⟩
    obtain hold | ⟨-, hnew⟩ := mem_pending_send.mp hsent
    · exact .inl ⟨j, sent, hold, hedit⟩
    · exact .inr ⟨sent, hnew, hedit⟩
  · rintro (⟨j, sent, hsent, hedit⟩ | ⟨sent, hsent, hedit⟩)
    · exact ⟨j, sent, mem_pending_send.mpr (.inl hsent), hedit⟩
    · exact ⟨i, sent, mem_pending_send.mpr (.inr ⟨rfl, hsent⟩), hedit⟩

theorem edits_execute (cfg : ι → ServerConfig) (options : PresenceManagerOptions) (now : ℚ)
    (r : RoomId) (u : UserId) (added : Bool) {sent : SentCall} {rest : List SentCall}
    (hpending : s.pending i = sent :: rest) :
    s.Edits r u added ↔ sent.call.edit r u = some added ∨
      (s.execute cfg options i now sent.call rest).Edits r u added := by
  have hlater : ∀ j, (s.execute cfg options i now sent.call rest).pending j =
      if j = i then rest else s.pending j := fun j => Function.update_apply ..
  constructor
  · rintro ⟨j, sent', hsent, hedit⟩
    by_cases hj : j = i
    · subst hj
      rw [hpending] at hsent
      obtain rfl | hrest := List.mem_cons.mp hsent
      · exact .inl hedit
      · exact .inr ⟨j, sent', by rwa [hlater, if_pos rfl], hedit⟩
    · exact .inr ⟨j, sent', by rwa [hlater, if_neg hj], hedit⟩
  · rintro (hedit | ⟨j, sent', hsent, hedit⟩)
    · exact ⟨i, sent, hpending ▸ List.mem_cons_self, hedit⟩
    · rw [hlater] at hsent
      split_ifs at hsent with hj
      · exact ⟨i, sent', hpending ▸ List.mem_cons_of_mem _ hsent, hedit⟩
      · exact ⟨j, sent', hsent, hedit⟩

/-- The node's own calls edit no set. -/
theorem not_editedBy_own {call : PresenceCall} {m : Memberships} (own : m.OwnCall call) :
    ¬EditedBy [⟨call, false⟩] r u added := by
  rintro ⟨sent, hsent, hedit⟩
  obtain rfl := List.mem_singleton.mp hsent
  cases call with
  | addRoomMember roomId userId => exact own
  | removeRoomMember roomId userId => exact own
  | registerConnection | removeConnection | flushLeaseRenewals | getUserConnectionCount
  | pruneExpired | getRoomRoster => cases hedit

/-- The users who connect have plain ids. -/
def PlainConnect : PresenceClusterEvent ι → Prop
  | .node _ (.connect connection _) => PlainUserId connection.userId
  | _ => True

/-- The nodes are proper, and the users in the sets of the rooms have plain ids. -/
structure Orderly (s : PresenceCluster ι) : Prop where
  nodes : ∀ i, (s.nodes i).memberships.Proper
  pending : ∀ r u, s.Edits r u true → PlainUserId u
  sets : ∀ r, ∀ u ∈ s.store.roomSet r, PlainUserId u

omit [DecidableEq ι] in
theorem Orderly.moves (h : s.Orderly) {event : NodeEvent} {n : Node}
    (hn : (s.nodes i).step (cfg i) event = some n) :
    Moves (cfg i).toConfig (s.nodes i).memberships event n.memberships
      ((s.nodes i).memberships.sentCalls n.memberships event) :=
  (Node.step_effect hn).moves (h.nodes i)

omit [DecidableEq ι] in
theorem orderly_initial (redis : ι → Option Bool) : (initial redis).Orderly where
  nodes := fun i => proper_initial (redis i)
  pending := by
    rintro r u ⟨i, sent, hsent, -⟩
    cases hsent
  sets := fun r u hu => absurd hu (OrderedSet.not_mem_empty u)

theorem Orderly.step (h : s.Orderly) (plain : PlainConnect e)
    (hstep : s.step cfg options e = some t) : t.Orderly := by
  obtain ⟨i, event, n, rfl, hn, rfl⟩ | ⟨i, call, rfl, own, rfl⟩ |
    ⟨i, now, sent, rest, rfl, hpending, rfl⟩ := step_cases hstep
  · refine ⟨fun j => ?_, ?_, h.sets⟩
    · by_cases hj : j = i
      · subst hj
        have moved : n.memberships.Proper :=
          (h.nodes j).move (Node.step_effect hn) fun _ _ heq => by
            subst heq
            exact plain
        simpa [send] using moved
      · simpa [send, hj] using h.nodes j
    · intro r u hedits
      obtain hold | hnew := edits_send.mp hedits
      · exact h.pending r u hold
      · exact (h.moves hn).plain (h.nodes i) hnew
  · refine ⟨h.nodes, fun r u hedits => ?_, h.sets⟩
    obtain hold | hnew := edits_send.mp hedits
    · exact h.pending r u hold
    · exact absurd hnew (not_editedBy_own own)
  · have hedits := fun r u => edits_execute cfg options now r u true hpending
    refine ⟨h.nodes, fun r u hedit => h.pending r u ((hedits r u).mpr (.inr hedit)),
      fun r u hmem => ?_⟩
    obtain hedit | ⟨-, hold, -⟩ := (PresenceStore.mem_roomSet_step options s.store _ now _).mp hmem
    · exact h.pending r u ((hedits r u).mpr (.inl hedit))
    · exact h.sets r u hold

end PresenceCluster

end Pulse
