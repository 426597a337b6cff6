import Pulse.Core.Rosters
import Pulse.Redis.LeaseRenewal

/-!
# Roster completeness

A leave asks the connections of its own node only, and a roster query drops the members
without a lease, though their connections live on: both may take a user out of the set
of a room where it is still a member. As long as they do not, a roster has every member
whose lease lasts.
-/

namespace Pulse

open Collections Js Transition MessageDispatcher

universe u

namespace PresenceCluster

open Memberships

variable {ι : Type u} [DecidableEq ι] {cfg : ι → ServerConfig} {options : PresenceManagerOptions}
variable {s t : PresenceCluster ι} {e : PresenceClusterEvent ι}

/-- Redis takes the user out of the set of a room when it executes the call. -/
def TakesOut (s : PresenceCluster ι) (now : ℚ) (r : RoomId) (u : UserId) (call : PresenceCall) :
    Prop :=
  call.edit r u = some false ∨ s.store.Drops now r u call

/-- Who is taken out of the set of a room is not in the room on any node, or is about to be put
into it. -/
def KeepsMembers (s : PresenceCluster ι) : PresenceClusterEvent ι → Prop
  | .execute i now => ∀ sent ∈ (s.pending i).head?, ∀ r u, s.TakesOut now r u sent.call →
      (∃ j, s.Member j r u) → s.Edits r u true
  | e => PlainConnect e

section decidable

instance (store : PresenceStore) (now : ℚ) (u : UserId) : Decidable (store.Leased now u) :=
  decidable_of_iff _ PresenceStore.leased_iff

instance (store : PresenceStore) (now : ℚ) (r : RoomId) (u : UserId) :
    (call : PresenceCall) → Decidable (store.Drops now r u call)
  | .getRoomRoster roomId =>
      decidable_of_iff (trim roomId = r ∧ r ≠ "" ∧ ¬store.Leased now u)
        (by simp [PresenceStore.Drops])
  | .registerConnection .. | .removeConnection .. | .flushLeaseRenewals _
  | .getUserConnectionCount _ | .pruneExpired _ | .addRoomMember .. | .removeRoomMember .. =>
      isFalse nofun

variable [Fintype ι]

instance (s : PresenceCluster ι) : Decidable s.Settled :=
  inferInstanceAs (Decidable (∀ i, s.pending i = [] ∧ (s.nodes i).memberships.suspended = []))

instance (s : PresenceCluster ι) (r : RoomId) (u : UserId) (added : Bool) :
    Decidable (s.Edits r u added) :=
  inferInstanceAs (Decidable (∃ i, ∃ sent ∈ s.pending i, sent.call.edit r u = some added))

instance : (e : PresenceClusterEvent ι) → Decidable (PlainConnect e)
  | .node _ (.connect connection _) => inferInstanceAs (Decidable (PlainUserId connection.userId))
  | .node _ (.frame ..) | .node _ (.resume ..) | .node _ (.close _) | .node _ (.redisMessage ..)
  | .node _ (.subscriptionSettled ..) | .node _ .publishSettled | .node _ (.link _)
  | .node _ .setPresenceManager | .node _ (.transport ..) | .call .. | .execute .. =>
      isTrue trivial

omit [DecidableEq ι] [Fintype ι] in
/-- It is enough to look at the rooms and the connections which the nodes have. -/
theorem keepsMembers_execute_iff {i : ι} {now : ℚ} :
    s.KeepsMembers (.execute i now) ↔ ∀ sent ∈ (s.pending i).head?, ∀ j,
      ∀ r ∈ (s.nodes j).memberships.hub.roomManager.rooms.keys,
      ∀ c ∈ ((s.nodes j).memberships.hub.roomManager.members r).toList,
      ∀ connection ∈ (s.nodes j).memberships.hub.connectionManager.getConnection c,
        (sent.call.edit r connection.userId = some false ∨
          s.store.Drops now r connection.userId sent.call) →
        s.Edits r connection.userId true := by
  constructor
  · intro h sent hsent j r _ c hmem connection hget htaken
    exact h sent hsent r connection.userId htaken ⟨j, c, ⟨connection, hget, rfl⟩, hmem⟩
  · rintro h sent hsent r u htaken ⟨j, c, ⟨connection, hget, rfl⟩, hmem⟩
    exact h sent hsent j r (RoomManager.mem_keys_of_mem_members hmem) c hmem connection hget htaken

instance (s : PresenceCluster ι) : (e : PresenceClusterEvent ι) → Decidable (s.KeepsMembers e)
  | .execute _ _ => decidable_of_iff _ keepsMembers_execute_iff.symm
  | .node i event => inferInstanceAs (Decidable (PlainConnect (.node i event)))
  | .call .. => isTrue trivial

end decidable

/-- The lease of a connection lasts beyond `now`. -/
def LeaseLasts (cfg : ι → ServerConfig) (s : PresenceCluster ι) (i : ι) (u : UserId)
    (c : ConnectionId) (now : ℚ) : Prop :=
  ∃ key expireAt, leaseKey (cfg i).instanceId u c = .ok key ∧
    (s.store.users key.1).score? now key.2 = some expireAt ∧ (now : Score) < expireAt

/-- A roster of a room has the user of each live connection in the room whose lease lasts. -/
def RosterComplete (cfg : ι → ServerConfig) (s : PresenceCluster ι) : Prop :=
  ∀ i u c r now, (s.nodes i).memberships.HasConnection u c →
    c ∈ (s.nodes i).memberships.hub.roomManager.members r → s.LeaseLasts cfg i u c now →
    ∃ s' roster, s.store.getRoomRoster r now = .ok (s', roster) ∧ u ∈ roster

/-- Every member is in the set of its room, or is about to be put into it. -/
def Listed (s : PresenceCluster ι) : Prop :=
  ∀ i r u, s.Member i r u → u ∈ s.store.roomSet r ∨ s.Edits r u true

omit [DecidableEq ι] in
theorem KeepsMembers.plainConnect (h : s.KeepsMembers e) : PlainConnect e := by
  cases e with
  | node i event => exact h
  | call i call => trivial
  | execute i now => trivial

theorem Listed.step (h : s.Listed) (orderly : s.Orderly) (keeps : s.KeepsMembers e)
    (hstep : s.step cfg options e = some t) : t.Listed := by
  intro j r u member
  obtain ⟨i, event, n, rfl, hn, rfl⟩ | ⟨i, call, rfl, own, rfl⟩ |
    ⟨i, now, sent, rest, rfl, hpending, rfl⟩ := step_cases hstep
  · rw [edits_send]
    by_cases hj : j = i
    · subst hj
      have member' : n.memberships.IsMember r u := by simpa [Member, send] using member
      obtain hold | hadded := (orderly.moves hn).added (orderly.nodes j) member'
      · exact (h j r u hold).imp id .inl
      · exact .inr (.inr hadded)
    · have member' : s.Member j r u := by simpa [Member, send, hj] using member
      exact (h j r u member').imp id .inl
  · rw [edits_send]
    exact (h j r u member).imp id .inl
  · have hedits := edits_execute cfg options now r u true hpending
    rw [execute, PresenceStore.mem_roomSet_step]
    by_cases htaken : s.TakesOut now r u sent.call
    · have hadded := keeps sent (by rw [hpending]; rfl) r u htaken ⟨j, member⟩
      exact (hedits.mp hadded).imp .inl id
    · rw [TakesOut, not_or] at htaken
      obtain hset | hadded := h j r u member
      · left
        cases hedit : sent.call.edit r u with
        | none => exact .inr ⟨rfl, hset, htaken.2⟩
        | some added =>
            cases added with
            | true => exact .inl rfl
            | false => exact absurd hedit htaken.1
      · exact (hedits.mp hadded).imp .inl id

omit [DecidableEq ι] in
/-- When the cluster has settled, the sets of the rooms have all members. -/
theorem Listed.complete (h : s.Listed) (orderly : s.Orderly) (settled : s.Settled) :
    s.RosterComplete cfg := by
  intro i u c r now hconnection hmem ⟨key, expireAt, hkey, hscore, hlasts⟩
  have proper := orderly.nodes i
  obtain ⟨htrim, hne⟩ := proper.identifier r c hmem
  have plain : PlainUserId u := by
    obtain ⟨connection, hget, rfl⟩ := id hconnection
    exact proper.registered c connection hget
  have hset : u ∈ s.store.roomSet r := by
    obtain hset | ⟨j, sent, hsent, -⟩ := h i r u ⟨c, hconnection, hmem⟩
    · exact hset
    · rw [(settled j).1] at hsent
      cases hsent
  have leased : s.store.Leased now u := by
    obtain ⟨-, -, -, rfl⟩ := PresenceStore.leaseKey_eq_ok_iff.mp hkey
    rw [plain.1] at hscore
    exact ⟨_, expireAt, hscore, hlasts⟩
  obtain ⟨result, hroster⟩ : ∃ result, s.store.getRoomRoster r now = .ok result := by
    have hroom : trim r ≠ "" := htrim.symm ▸ hne
    rw [PresenceStore.getRoomRoster, if_neg hroom, executeGetRoomPresenceRoster,
      Refines.getRoomMembersKey_trim hroom]
    exact ⟨_, rfl⟩
  refine ⟨result.1, result.2, hroster, ?_⟩
  refine (PresenceStore.mem_getRoomRoster_iff (fun v hv => orderly.sets _ v hv) hroster).mpr ?_
  rw [htrim]
  exact ⟨hne, hset, leased⟩

/-- Roster completeness: in every run in which nobody is taken out of the set of a room where it
is still a member, every settled state has complete rosters. -/
theorem rosters_complete (cfg : ι → ServerConfig) (options : PresenceManagerOptions)
    (redis : ι → Option Bool) (es : List (PresenceClusterEvent ι))
    (keeps : EveryStep (step cfg options) (fun s e _ => s.KeepsMembers e) (initial redis) es) :
    Always (step cfg options) (fun s => s.Settled → s.RosterComplete cfg) (initial redis) es := by
  have start : (initial redis).Orderly ∧ (initial redis).Listed := by
    refine ⟨orderly_initial redis, fun i r u member => ?_⟩
    obtain ⟨c, -, hmem⟩ := member
    exact absurd hmem (OrderedSet.not_mem_empty c)
  have always := always_of_everyStep (I := fun s : PresenceCluster ι => s.Orderly ∧ s.Listed)
    (fun s e t h hstep hkeeps => ⟨h.1.step hkeeps.plainConnect hstep,
      h.2.step h.1 hkeeps hstep⟩) start keeps
  exact always.mono fun s h settled => h.2.complete h.1 settled

def rosterConfig (i : Bool) : ServerConfig :=
  { instanceId := if i then "node-b" else "node-a"
    idempotency := { capacity := 10, digest := id } }

def rosterTick : Tick := { now := 0, frameId := "unused", replyId := "unused" }

/-- Alice connects to a node and joins a room; every call is answered at once. -/
def joinOn (i : Bool) (c : ConnectionId) : List (PresenceClusterEvent Bool) :=
  [.node i (.connect { connectionId := c, userId := "alice" } rosterTick), .execute i 0,
    .node i (.frame c (some (Node.roomFrame .roomJoin "lobby" none)) rosterTick), .execute i 0,
    .node i (.resume 0 none rosterTick), .execute i 0, .node i (.resume 0 none rosterTick)]

/-- Alice is in the room on two nodes, and leaves it on one. -/
def leaveElsewhere : List (PresenceClusterEvent Bool) :=
  joinOn false "c1" ++ joinOn true "c2" ++
    [.node false (.frame "c1" (some (Node.roomFrame .roomLeave "lobby" none)) rosterTick),
      .execute false 0, .node false (.resume 0 none rosterTick)]

theorem rosters_complete_two_nodes :
    ∃ s, run (step rosterConfig {}) (initial fun _ => some true)
        (joinOn false "c1" ++ joinOn true "c2") = some s ∧
      s.Settled ∧ s.Member true "lobby" "alice" ∧ s.RosterComplete rosterConfig := by
  have hrun : (run (step rosterConfig {}) (initial fun _ => some true)
      (joinOn false "c1" ++ joinOn true "c2")).any (fun s => decide (s.Settled ∧
        (s.nodes true).memberships.HasConnection "alice" "c2" ∧
        "c2" ∈ (s.nodes true).memberships.hub.roomManager.members "lobby")) = true := by
    decide +kernel
  obtain ⟨s, hs, hend⟩ := (Option.any_eq_true _ _).mp hrun
  rw [decide_eq_true_eq] at hend
  obtain ⟨settled, hconnection, hmem⟩ := hend
  have complete := rosters_complete rosterConfig {} (fun _ => some true)
    (joinOn false "c1" ++ joinOn true "c2") (by decide +kernel)
  exact ⟨s, hs, settled, ⟨"c2", hconnection, hmem⟩, complete.final hs settled⟩

/-- A leave on one node takes the user out of the set of a room in which another node has it. -/
theorem leave_elsewhere_incomplete :
    ¬ ∀ (cfg : Bool → ServerConfig) (options : PresenceManagerOptions)
      (redis : Bool → Option Bool) (es : List (PresenceClusterEvent Bool)),
      Always (step cfg options) (fun s => s.Settled → s.RosterComplete cfg) (initial redis) es := by
  intro h
  have hrun : (run (step rosterConfig {}) (initial fun _ => some true) leaveElsewhere).any
      (fun s => decide (s.Settled ∧ (s.nodes true).memberships.HasConnection "alice" "c2" ∧
        "c2" ∈ (s.nodes true).memberships.hub.roomManager.members "lobby") &&
        ((s.store.users "pulse:presence:user:alice").score? 1 "node-b:c2").any (fun expireAt =>
          decide ((1 : Score) < expireAt)) &&
        decide (((s.store.getRoomRoster "lobby" 1).toOption).map Prod.snd = some [])) = true := by
    decide +kernel
  obtain ⟨s, hs, hend⟩ := (Option.any_eq_true _ _).mp hrun
  simp only [Bool.and_eq_true, decide_eq_true_eq] at hend
  obtain ⟨⟨⟨settled, hconnection, hmem⟩, hlease⟩, hroster⟩ := hend
  obtain ⟨expireAt, hscore, hlasts⟩ := (Option.any_eq_true _ _).mp hlease
  have lasts : s.LeaseLasts rosterConfig true "alice" "c2" 1 :=
    ⟨("pulse:presence:user:alice", "node-b:c2"), expireAt, by decide +kernel, hscore,
      of_decide_eq_true hlasts⟩
  have complete := (h rosterConfig {} (fun _ => some true) leaveElsewhere).final hs settled
  obtain ⟨s', roster, hok, hlisted⟩ := complete true "alice" "c2" "lobby" 1 hconnection hmem lasts
  rw [hok] at hroster
  cases hroster
  cases hlisted

end PresenceCluster

end Pulse
