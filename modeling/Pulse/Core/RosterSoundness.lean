import Pulse.Collections.LastWrite
import Pulse.Core.RosterCompleteness

/-!
# Roster soundness

A leave takes the user out of the set of the room, a close does not: the user stays in
the sets of the rooms of the connection. Rosters are sound as long as such a user has no
other connection and does not come back, since a lease is stored only for a connection
which is registered or whose removal is on its way.
-/

namespace Pulse

open Collections Js Transition MessageDispatcher

universe u

namespace Memberships

variable {cfg : Config} {m m' : Memberships} {u : UserId} {c : ConnectionId}
variable {e : NodeEvent} {calls : List SentCall}

/-- What the last call about a lease makes of it. -/
def lastLease (calls : List SentCall) (u : UserId) (c : ConnectionId) : Option Bool :=
  lastWrite (fun sent => sent.call.leaseEdit u c) calls

/-- A connection is granted a lease only while it is registered, and loses it when it closes. -/
theorem Moves.lease (h : m.Proper) (moves : Moves cfg m e m' calls) (u : UserId)
    (c : ConnectionId) :
    lastLease calls u c = some true ∧ m'.HasConnection u c ∨ lastLease calls u c = some false ∨
      lastLease calls u c = none ∧ (m.HasConnection u c → m'.HasConnection u c) := by
  cases moves with
  | connect connection tick fresh =>
      have hnone : m.hub.connectionManager.getConnection connection.connectionId = none :=
        OrderedMap.get?_eq_none_iff.mpr fun hkey =>
          fresh (h.wellFormed.registered_known _ hkey)
      rw [lastLease, lastWrite_singleton, hasConnection_connect hnone]
      by_cases hsame : connection.userId = u ∧ connection.connectionId = c
      · exact .inl ⟨if_pos hsame, .inr ⟨hsame.2.symm, hsame.1⟩⟩
      · exact .inr (.inr ⟨if_neg hsame, .inl⟩)
  | close c' connection registered =>
      rw [lastLease, lastWrite_singleton, hasConnection_close]
      by_cases hsame : connection.userId = u ∧ c' = c
      · exact .inr (.inl (if_pos hsame))
      · refine .inr (.inr ⟨if_neg hsame, fun hconnection => ⟨hconnection, ?_⟩⟩)
        rintro rfl
        obtain ⟨connection', hget, huser⟩ := hconnection
        cases registered.symm.trans hget
        exact hsame ⟨huser, rfl⟩
  | turn sender calls turnOf turn own connectionManager suspended =>
      refine .inr (.inr ⟨?_, (hasConnection_of_connectionManager connectionManager).mpr⟩)
      cases turn with
      | idle | roster | joined | left | leftOther => rfl
  | quiet connectionManager roomManager suspended =>
      exact .inr (.inr ⟨rfl, (hasConnection_of_connectionManager connectionManager).mpr⟩)

/-- Only who connects comes online. -/
theorem Moves.online (h : m.Proper) (moves : Moves cfg m e m' calls)
    (online : m'.HasConnection u c) :
    m.HasConnection u c ∨ ∃ connection tick, e = .connect connection tick ∧
      connection.userId = u := by
  cases moves with
  | connect connection tick fresh =>
      have hnone : m.hub.connectionManager.getConnection connection.connectionId = none :=
        OrderedMap.get?_eq_none_iff.mpr fun hkey =>
          fresh (h.wellFormed.registered_known _ hkey)
      obtain hold | ⟨-, huser⟩ := (hasConnection_connect hnone).mp online
      · exact .inl hold
      · exact .inr ⟨connection, tick, rfl, huser⟩
  | close c' connection registered => exact .inl (hasConnection_close.mp online).1
  | turn sender calls turnOf turn own connectionManager suspended =>
      exact .inl ((hasConnection_of_connectionManager connectionManager).mp online)
  | quiet connectionManager roomManager suspended =>
      exact .inl ((hasConnection_of_connectionManager connectionManager).mp online)

/-- The node's own calls grant leases to registered connections, and remove none. -/
theorem lastLease_own {call : PresenceCall} (own : m.OwnCall call) :
    lastLease [⟨call, false⟩] u c = some true ∧ m.HasConnection u c ∨
      lastLease [⟨call, false⟩] u c = none := by
  rw [lastLease, lastWrite_singleton]
  cases call with
  | registerConnection userId connectionId =>
      by_cases hsame : userId = u ∧ connectionId = c
      · obtain ⟨rfl, rfl⟩ := hsame
        exact .inl ⟨if_pos ⟨rfl, rfl⟩, own⟩
      · exact .inr (if_neg hsame)
  | flushLeaseRenewals active =>
      by_cases hrenewed : ∃ conn ∈ active, conn.1 = u ∧ conn.2 = c
      · obtain ⟨conn, hconn, rfl, rfl⟩ := id hrenewed
        exact .inl ⟨if_pos hrenewed, own conn hconn⟩
      · exact .inr (if_neg hrenewed)
  | removeConnection userId connectionId => exact absurd own id
  | addRoomMember roomId userId => exact absurd own id
  | removeRoomMember roomId userId => exact absurd own id
  | getUserConnectionCount | pruneExpired | getRoomRoster => exact .inr rfl

end Memberships

namespace PresenceCluster

open Memberships

variable {ι : Type u} [DecidableEq ι] {cfg : ι → ServerConfig} {options : PresenceManagerOptions}
variable {s t : PresenceCluster ι} {e : PresenceClusterEvent ι} {r : RoomId} {u : UserId}

/-- The connection is registered on the node. -/
def Live (s : PresenceCluster ι) (i : ι) (u : UserId) (c : ConnectionId) : Prop :=
  (s.nodes i).memberships.HasConnection u c

/-- The user is in the set of a room where no live connection of it is, and is not about to be
taken out. -/
def Stale (s : PresenceCluster ι) (r : RoomId) (u : UserId) : Prop :=
  u ∈ s.store.roomSet r ∧ (∀ i, ¬s.Member i r u) ∧ ¬s.Edits r u false

/-- Without the connection the user would be. -/
def StaleWithout (s : PresenceCluster ι) (i : ι) (c : ConnectionId) (r : RoomId) (u : UserId) :
    Prop :=
  u ∈ s.store.roomSet r ∧ (∀ j c', s.Live j u c' → ¬(j = i ∧ c' = c) →
    c' ∉ (s.nodes j).memberships.hub.roomManager.members r) ∧ ¬s.Edits r u false

/-- No user is online, or comes online, that is in the set of a room where no live connection of
it is, unless it is about to be taken out. -/
def KeepsRosters (s : PresenceCluster ι) : PresenceClusterEvent ι → Prop
  | .node _ (.connect connection _) =>
      PlainUserId connection.userId ∧ ∀ r, ¬s.Stale r connection.userId
  | .node i (.close c) =>
      ∀ connection ∈ (s.nodes i).memberships.hub.connectionManager.getConnection c,
        (∃ j c', s.Live j connection.userId c' ∧ ¬(j = i ∧ c' = c)) →
          ∀ r, ¬s.StaleWithout i c r connection.userId
  | .execute i _ => ∀ sent ∈ (s.pending i).head?, ∀ r u, sent.call.edit r u = some true →
      (∃ j c, s.Live j u c) → (∃ j, s.Member j r u) ∨ s.Edits r u false
  | _ => True

/-- A roster of a room has users only of which a live connection is in the room. -/
def RosterSound (s : PresenceCluster ι) : Prop :=
  ∀ r now s' roster, s.store.getRoomRoster r now = .ok (s', roster) →
    ∀ u ∈ roster, ∃ i, s.Member i (trim r) u

omit [DecidableEq ι] in
theorem KeepsRosters.plainConnect (h : s.KeepsRosters e) : PlainConnect e := by
  cases e with
  | node i event =>
      cases event with
      | connect connection tick => exact h.1
      | frame | resume | close | redisMessage | subscriptionSettled | publishSettled | link
      | setPresenceManager | transport => trivial
  | call i call => trivial
  | execute i now => trivial

section leases

/-- Leases are stored of connections which are registered, or are about to be removed. -/
structure Leases (cfg : ι → ServerConfig) (s : PresenceCluster ι) : Prop where
  stored : ∀ key member, (s.store.users key).Holds member → ∃ i u c,
    leaseKey (cfg i).instanceId u c = .ok (key, member) ∧
      (s.Live i u c ∨ lastLease (s.pending i) u c = some false)
  granted : ∀ i u c, lastLease (s.pending i) u c = some true → s.Live i u c

/-- A node goes on and sends calls. -/
theorem Leases.send (h : s.Leases cfg) {i : ι} {calls : List SentCall} (store : t.store = s.store)
    (pending : t.pending = Function.update s.pending i (s.pending i ++ calls))
    (others : ∀ j, j ≠ i → ∀ u c, t.Live j u c ↔ s.Live j u c)
    (own : ∀ u c, lastLease calls u c = some true ∧ t.Live i u c ∨
      lastLease calls u c = some false ∨
      lastLease calls u c = none ∧ (s.Live i u c → t.Live i u c)) : t.Leases cfg := by
  have hpending : ∀ u c, lastLease (t.pending i) u c =
      (lastLease calls u c).or (lastLease (s.pending i) u c) := by
    intro u c
    rw [pending, Function.update_self]
    exact lastWrite_append _ _
  have hothers : ∀ j, j ≠ i → t.pending j = s.pending j := by
    intro j hj
    rw [pending, Function.update_of_ne hj]
  constructor
  · intro key member hholds
    rw [store] at hholds
    obtain ⟨j, u, c, hkey, hlive⟩ := h.stored key member hholds
    refine ⟨j, u, c, hkey, ?_⟩
    by_cases hj : j = i
    · subst hj
      rw [hpending]
      obtain ⟨hcalls, hlive'⟩ | hcalls | ⟨hcalls, hkept⟩ := own u c
      · exact .inl hlive'
      · exact .inr (by rw [hcalls]; rfl)
      · rw [hcalls]
        exact hlive.imp hkept id
    · rw [others j hj, hothers j hj]
      exact hlive
  · intro j u c hlast
    by_cases hj : j = i
    · subst hj
      rw [hpending] at hlast
      obtain ⟨hcalls, hlive⟩ | hcalls | ⟨hcalls, hkept⟩ := own u c
      · exact hlive
      · rw [hcalls] at hlast
        cases hlast
      · rw [hcalls] at hlast
        exact hkept (h.granted j u c hlast)
    · rw [hothers j hj] at hlast
      exact (others j hj u c).mpr (h.granted j u c hlast)

/-- Redis executes a call. -/
theorem Leases.execute (h : s.Leases cfg) {i : ι} {now : ℚ} {sent : SentCall}
    {rest : List SentCall} (hpending : s.pending i = sent :: rest) :
    (s.execute cfg options i now sent.call rest).Leases cfg := by
  have hlater : ∀ j, (s.execute cfg options i now sent.call rest).pending j =
      if j = i then rest else s.pending j := fun j => Function.update_apply ..
  -- what the rest of the queue leaves of a lease, or else the call itself
  have hlast : ∀ u c, lastLease (s.pending i) u c =
      (lastLease rest u c).or (sent.call.leaseEdit u c) := by
    intro u c
    rw [hpending, ← List.singleton_append, lastLease, lastWrite_append, lastWrite_singleton]
    rfl
  constructor
  · intro key member hholds
    obtain ⟨hold, hkept⟩ | ⟨u, c, hgrants, hkey⟩ := PresenceStore.holds_step options hholds
    · obtain ⟨j, u, c, hkey, hlive⟩ := h.stored key member hold
      refine ⟨j, u, c, hkey, ?_⟩
      rw [hlater]
      split_ifs with hj
      · subst hj
        refine hlive.imp id fun hremoved => ?_
        rw [hlast] at hremoved
        cases hrest : lastLease rest u c with
        | none =>
            rw [hrest] at hremoved
            exact absurd hkey (hkept u c hremoved)
        | some granted =>
            rw [hrest] at hremoved
            exact hremoved
      · exact hlive
    · refine ⟨i, u, c, hkey, ?_⟩
      rw [hlater, if_pos rfl]
      cases hrest : lastLease rest u c with
      | none => exact .inl (h.granted i u c (by rw [hlast, hrest, hgrants]; rfl))
      | some granted =>
          cases granted with
          | true => exact .inl (h.granted i u c (by rw [hlast, hrest]; rfl))
          | false => exact .inr rfl
  · intro j u c hgranted
    rw [hlater] at hgranted
    split_ifs at hgranted with hj
    · subst hj
      exact h.granted j u c (by rw [hlast, hgranted]; rfl)
    · exact h.granted j u c hgranted

theorem Leases.step (h : s.Leases cfg) (orderly : s.Orderly)
    (hstep : s.step cfg options e = some t) : t.Leases cfg := by
  obtain ⟨i, event, n, rfl, hn, rfl⟩ | ⟨i, call, rfl, own, rfl⟩ |
    ⟨i, now, sent, rest, rfl, hpending, rfl⟩ := step_cases hstep
  · refine h.send rfl rfl (fun j hj u c => ?_) fun u c => ?_
    · simp [Live, PresenceCluster.send, hj]
    · simpa [Live, PresenceCluster.send] using (orderly.moves hn).lease (orderly.nodes i) u c
  · refine h.send rfl rfl (fun j hj u c => Iff.rfl) fun u c => ?_
    obtain ⟨hcalls, hlive⟩ | hcalls := lastLease_own (u := u) (c := c) own
    · exact .inl ⟨hcalls, hlive⟩
    · exact .inr (.inr ⟨hcalls, id⟩)
  · exact h.execute hpending

omit [DecidableEq ι] in
/-- When the cluster has settled, a leased user is online. -/
theorem Leases.live (h : s.Leases cfg) (orderly : s.Orderly) (settled : s.Settled) {now : ℚ}
    (leased : s.store.Leased now u) : ∃ i c, s.Live i u c := by
  obtain ⟨member, expireAt, hscore, -⟩ := leased
  obtain ⟨i, v, c, hkey, hlive⟩ := h.stored _ member (SortedSet.holds_of_score? hscore)
  have hlive' : s.Live i v c := by
    obtain hlive | hremoved := hlive
    · exact hlive
    · rw [(settled i).1] at hremoved
      cases hremoved
  obtain ⟨connection, hget, rfl⟩ := id hlive'
  obtain ⟨-, -, -, hpair⟩ := PresenceStore.leaseKey_eq_ok_iff.mp hkey
  have huser : u = trim connection.userId := userKey_inj.mp (Prod.mk.inj hpair).1
  rw [((orderly.nodes i).registered c connection hget).1] at huser
  exact ⟨i, c, huser ▸ hlive'⟩

end leases

/-- No user is online that is in the set of a room where no live connection of it is. -/
def Accurate (s : PresenceCluster ι) : Prop :=
  ∀ r u, s.Stale r u → ∀ i c, ¬s.Live i u c

/-- Whoever is stale behind a turn of a node was so before, unless a connection was closed. -/
theorem stale_of_send {i : ι} {event : NodeEvent} {n : Node} (orderly : s.Orderly)
    (hn : (s.nodes i).step (cfg i) event = some n) (open' : ∀ c, event ≠ .close c)
    (stale : (({ s with nodes := Function.update s.nodes i n } : PresenceCluster ι).send i
      ((s.nodes i).memberships.sentCalls n.memberships event)).Stale r u) : s.Stale r u := by
  obtain ⟨hset, hmembers, hedits⟩ := stale
  rw [edits_send, not_or] at hedits
  refine ⟨hset, fun j member => ?_, hedits.1⟩
  by_cases hj : j = i
  · subst hj
    obtain member' | hremoved := (orderly.moves hn).removed (orderly.nodes j) open' member
    · exact hmembers j (by simpa [Member, send] using member')
    · exact hedits.2 hremoved
  · exact hmembers j (by simpa [Member, send, hj] using member)

/-- Who is not stale without a closed connection is not stale behind the close. -/
theorem Accurate.close {i : ι} {c : ConnectionId} {n : Node} {connection : Connection}
    {calls : List SentCall} (h : s.Accurate)
    (hget : (s.nodes i).memberships.hub.connectionManager.getConnection c = some connection)
    (closed : n.memberships = (s.nodes i).memberships.close c)
    (keeps : s.KeepsRosters (.node i (.close c))) :
    (({ s with nodes := Function.update s.nodes i n } : PresenceCluster ι).send i
      calls).Accurate := by
  rintro r u ⟨hset, hmembers, hedits⟩ j c' hlive
  rw [edits_send, not_or] at hedits
  have live_iff : ∀ j c', (({ s with nodes := Function.update s.nodes i n } :
      PresenceCluster ι).send i calls).Live j u c' ↔ s.Live j u c' ∧ ¬(j = i ∧ c' = c) := by
    intro j c'
    by_cases hj : j = i
    · subst hj
      simp [Live, send, closed, hasConnection_close]
    · simp [Live, send, hj]
  have not_member : ∀ j c', s.Live j u c' → ¬(j = i ∧ c' = c) →
      c' ∉ (s.nodes j).memberships.hub.roomManager.members r := by
    intro j c' hlive hother hmem
    refine hmembers j ⟨c', (live_iff j c').mpr ⟨hlive, hother⟩, ?_⟩
    by_cases hj : j = i
    · subst hj
      have hne : c' ≠ c := fun hc => hother ⟨rfl, hc⟩
      simpa [send, closed] using mem_members_close.mpr ⟨hne, hmem⟩
    · simpa [send, hj] using hmem
  obtain ⟨hold, hother⟩ := (live_iff j c').mp hlive
  by_cases huser : connection.userId = u
  · subst huser
    exact keeps connection hget ⟨j, c', hold, hother⟩ r ⟨hset, not_member, hedits.1⟩
  · refine h r u ⟨hset, fun k member => ?_, hedits.1⟩ j c' hold
    obtain ⟨d, hconnection, hmem⟩ := member
    refine not_member k d hconnection ?_ hmem
    rintro ⟨rfl, rfl⟩
    obtain ⟨connection', hget', rfl⟩ := hconnection
    exact huser (congrArg Connection.userId (Option.some.inj (hget.symm.trans hget')))

theorem Accurate.step (h : s.Accurate) (orderly : s.Orderly) (keeps : s.KeepsRosters e)
    (hstep : s.step cfg options e = some t) : t.Accurate := by
  obtain ⟨i, event, n, rfl, hn, rfl⟩ | ⟨i, call, rfl, own, rfl⟩ |
    ⟨i, now, sent, rest, rfl, hpending, rfl⟩ := step_cases hstep
  · by_cases hclose : ∃ c, event = .close c
    · obtain ⟨c, rfl⟩ := hclose
      obtain ⟨⟨connection, hget⟩, closed⟩ := Node.step_effect hn
      exact h.close hget closed keeps
    · intro r u stale j c hlive
      have old := stale_of_send orderly hn (not_exists.mp hclose) stale
      have offline := h r u old
      by_cases hj : j = i
      · subst hj
        have hlive' : n.memberships.HasConnection u c := by simpa [Live, send] using hlive
        obtain hold | ⟨connection, tick, rfl, rfl⟩ :=
          (orderly.moves hn).online (orderly.nodes j) hlive'
        · exact offline j c hold
        · exact keeps.2 r old
      · exact offline j c (by simpa [Live, send, hj] using hlive)
  · rintro r u ⟨hset, hmembers, hedits⟩
    rw [edits_send, not_or] at hedits
    exact h r u ⟨hset, hmembers, hedits.1⟩
  · rintro r u ⟨hset, hmembers, hedits⟩ j c hlive
    have hremoved := edits_execute cfg options now r u false hpending
    rw [execute, PresenceStore.mem_roomSet_step] at hset
    obtain hadded | ⟨hnone, hold, -⟩ := hset
    · have hkept : ¬s.Edits r u false := by
        rw [hremoved, not_or]
        exact ⟨by simp [hadded], hedits⟩
      obtain ⟨k, member⟩ | hedits' := keeps sent (by rw [hpending]; rfl) r u hadded ⟨j, c, hlive⟩
      · exact hmembers k member
      · exact hkept hedits'
    · have hkept : ¬s.Edits r u false := by
        rw [hremoved, not_or]
        exact ⟨by simp [hnone], hedits⟩
      exact h r u ⟨hold, hmembers, hkept⟩ j c hlive

omit [DecidableEq ι] in
/-- When the cluster has settled, the rosters list members only. -/
theorem Accurate.sound (h : s.Accurate) (orderly : s.Orderly) (leases : s.Leases cfg)
    (settled : s.Settled) : s.RosterSound := by
  intro r now s' roster hroster u hlisted
  obtain ⟨-, hset, leased⟩ := (PresenceStore.mem_getRoomRoster_iff
    (fun v hv => orderly.sets _ v hv) hroster).mp hlisted
  obtain ⟨i, c, hlive⟩ := leases.live orderly settled leased
  by_contra hnone
  refine h (trim r) u ⟨hset, not_exists.mp hnone, ?_⟩ i c hlive
  rintro ⟨j, sent, hsent, -⟩
  rw [(settled j).1] at hsent
  cases hsent

/-- Roster soundness: in every run in which no user is or comes online that is in the set of a
room where no live connection of it is, every settled state has sound rosters. -/
theorem rosters_sound (cfg : ι → ServerConfig) (options : PresenceManagerOptions)
    (redis : ι → Option Bool) (es : List (PresenceClusterEvent ι))
    (keeps : EveryStep (step cfg options) (fun s e _ => s.KeepsRosters e) (initial redis) es) :
    Always (step cfg options) (fun s => s.Settled → s.RosterSound) (initial redis) es := by
  have start : (initial redis).Orderly ∧ (initial redis).Leases cfg ∧ (initial redis).Accurate := by
    refine ⟨orderly_initial redis, ⟨fun key member hholds => ?_, nofun⟩, fun r u stale => ?_⟩
    · exact absurd hholds (SortedSet.not_holds_empty member)
    · exact absurd stale.1 (OrderedSet.not_mem_empty u)
  have always := always_of_everyStep
    (I := fun s : PresenceCluster ι => s.Orderly ∧ s.Leases cfg ∧ s.Accurate)
    (fun s e t h hstep hkeeps => ⟨h.1.step hkeeps.plainConnect hstep, h.2.1.step h.1 hstep,
      h.2.2.step h.1 hkeeps hstep⟩) start keeps
  exact always.mono fun s h settled => h.2.2.sound h.1 h.2.1 settled

/-- Where no connection opens or closes, it is enough that whoever is put into the set of a room
is in it on some node. -/
def addsMembers (s : PresenceCluster Bool) : PresenceClusterEvent Bool → Bool
  | .node _ (.connect ..) | .node _ (.close _) => false
  | .execute i _ =>
      (s.pending i).head?.all fun sent =>
        match sent.call with
        | .addRoomMember roomId userId =>
            decide (∃ j, ∃ c ∈ ((s.nodes j).memberships.hub.roomManager.members
              (trim roomId)).toList, (s.nodes j).memberships.HasConnection (trim userId) c)
        | _ => true
  | _ => true

theorem keepsRosters_of_addsMembers {s : PresenceCluster Bool} {e : PresenceClusterEvent Bool}
    (h : s.addsMembers e = true) : s.KeepsRosters e := by
  cases e with
  | node i event =>
      cases event with
      | connect | close => cases h
      | frame | resume | redisMessage | subscriptionSettled | publishSettled | link
      | setPresenceManager | transport => trivial
  | call i call => trivial
  | execute i now =>
      intro sent hsent r u hadded _
      have hmember := (Option.all_eq_true _ _).mp h sent hsent
      left
      cases hcall : sent.call with
      | addRoomMember roomId userId =>
          rw [hcall] at hadded
          obtain ⟨⟨rfl, rfl, -⟩, -⟩ := Option.ite_none_right_eq_some.mp hadded
          simp only [hcall, decide_eq_true_eq] at hmember
          obtain ⟨j, c, hmem, hconnection⟩ := hmember
          exact ⟨j, c, hconnection, hmem⟩
      | removeRoomMember roomId userId =>
          rw [hcall] at hadded
          obtain ⟨-, hfalse⟩ := Option.ite_none_right_eq_some.mp hadded
          cases hfalse
      | registerConnection | removeConnection | flushLeaseRenewals | getUserConnectionCount
      | pruneExpired | getRoomRoster =>
          rw [hcall] at hadded
          cases hadded

/-- Alice joins a room, and the roster of the room lists her. -/
theorem rosters_sound_join :
    ∃ s, run (step rosterConfig {}) (initial fun _ => some true) (joinOn false "c1") = some s ∧
      s.Settled ∧ ((s.store.getRoomRoster "lobby" 1).toOption).map Prod.snd = some ["alice"] ∧
      s.RosterSound := by
  have hrun : (run (step rosterConfig {}) (initial fun _ => some true) (joinOn false "c1")).any
      (fun s => decide (s.Settled ∧
        ((s.store.getRoomRoster "lobby" 1).toOption).map Prod.snd = some ["alice"])) = true := by
    decide +kernel
  obtain ⟨s, hs, hend⟩ := (Option.any_eq_true _ _).mp hrun
  rw [decide_eq_true_eq] at hend
  have keeps : EveryStep (step rosterConfig {}) (fun s e _ => s.KeepsRosters e)
      (initial fun _ => some true) (joinOn false "c1") := by
    intro t ht
    constructor
    · exact ⟨by decide, fun r stale => OrderedSet.not_mem_empty _ stale.1⟩
    · have htail : ∀ t ∈ step rosterConfig {} (initial fun _ => some true)
          (.node false (.connect { connectionId := "c1", userId := "alice" } rosterTick)),
          EveryStep (step rosterConfig {}) (fun s e _ => s.addsMembers e = true) t
            (joinOn false "c1").tail := by
        decide +kernel
      exact (htail t ht).mono fun s e _ => keepsRosters_of_addsMembers
  have sound := rosters_sound rosterConfig {} (fun _ => some true) (joinOn false "c1") keeps
  exact ⟨s, hs, hend.1, hend.2, sound.final hs hend.1⟩

/-- Alice has a connection in a room and one that is not, and closes the first. -/
def closeInRoom : List (PresenceClusterEvent Bool) :=
  joinOn false "c1" ++
    [.node false (.connect { connectionId := "c2", userId := "alice" } rosterTick),
      .execute false 0, .node false (.close "c1"), .execute false 0]

/-- A close leaves the user in the set of the room. -/
theorem close_in_room_unsound :
    ¬ ∀ (cfg : Bool → ServerConfig) (options : PresenceManagerOptions)
      (redis : Bool → Option Bool) (es : List (PresenceClusterEvent Bool)),
      Always (step cfg options) (fun s => s.Settled → s.RosterSound) (initial redis) es := by
  intro h
  have hrun : (run (step rosterConfig {}) (initial fun _ => some true) closeInRoom).any
      (fun s => decide (s.Settled ∧
        (∀ i, (s.nodes i).memberships.hub.roomManager.members "lobby" = ∅)) &&
        (s.store.getRoomRoster "lobby" 1).toOption.any (fun result =>
          decide (result.2 = ["alice"]))) = true := by
    decide +kernel
  obtain ⟨s, hs, hend⟩ := (Option.any_eq_true _ _).mp hrun
  simp only [Bool.and_eq_true, decide_eq_true_eq] at hend
  obtain ⟨⟨settled, hempty⟩, hroster⟩ := hend
  have sound := (h rosterConfig {} (fun _ => some true) closeInRoom).final hs settled
  cases hquery : s.store.getRoomRoster "lobby" 1 with
  | error message =>
      rw [hquery] at hroster
      cases hroster
  | ok result =>
      rw [hquery] at hroster
      have hlisted : result.2 = ["alice"] := by simpa [Except.toOption] using hroster
      obtain ⟨i, c, -, hmem⟩ := sound "lobby" 1 result.1 result.2 hquery "alice" (by simp [hlisted])
      rw [show trim "lobby" = "lobby" by decide, hempty i] at hmem
      exact OrderedSet.not_mem_empty c hmem

end PresenceCluster

end Pulse
