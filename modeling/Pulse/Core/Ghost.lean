import Pulse.Core.BatchJoin
import Pulse.Core.Refcounts

/-!
# Memberships of closed connections

The close handler removes a connection from all rooms and thereby gives up its
references to room channels. A handler that is still suspended goes on later. The
rest of a join or a leave touches no membership any more, but a batch join goes on
joining. Closed connections stay out of all rooms exactly if no batch join of a
closed connection finds another room to join.
-/

namespace Pulse

open Collections Js Transition MessageDispatcher

theorem isWhiteSpace_of_isRoomIdChar {c : Char} (h : isRoomIdChar c = true) :
    Js.isWhiteSpace c = false := by
  by_contra hspace
  rw [Bool.not_eq_false, Js.isWhiteSpace, decide_eq_true_eq] at hspace
  have hval : c = Char.ofNat c.toNat := (Char.ofNat_toNat c).symm
  simp only [List.mem_cons, List.not_mem_nil, or_false] at hspace
  rcases hspace with hn | hn | hn | hn | hn | hn | hn | hn | hn | hn | hn | hn | hn | hn | hn |
    hn | hn | hn | hn | hn | hn | hn | hn | hn | hn <;>
  · rw [hn] at hval
    rw [hval] at h
    exact absurd h (by decide)

/-- The room ids which the join handlers accept are identifiers. -/
theorem isIdentifier_of_isValidRoomId {cfg : Config} {r : RoomId}
    (h : isValidRoomId cfg r = true) : IsIdentifier r := by
  simp only [isValidRoomId, Bool.and_eq_true, bne_iff_ne, List.all_eq_true] at h
  exact ⟨trim_of_forall fun c hc => isWhiteSpace_of_isRoomIdChar (h.2 c hc), h.1.1⟩

/-- The rest of a suspended batch join. -/
def Suspended.batch? : Suspended → Option BatchJoin
  | .batchAddRoomMember _ _ batch => some batch
  | _ => none

namespace Memberships

/-- A connection whose close handler has run: known, and registered no more. -/
def Closed (m : Memberships) (c : ConnectionId) : Prop :=
  c ∈ m.known ∧ c ∉ m.hub.connectionManager.connections.keys

instance (m : Memberships) (c : ConnectionId) : Decidable (m.Closed c) :=
  inferInstanceAs (Decidable (_ ∧ _))

def GhostFree (m : Memberships) : Prop :=
  ∀ c, m.Closed c → ∀ r, c ∉ m.hub.roomManager.members r

/-- Every reference to the channel of a room is held by a registered member. -/
def ReferencesRegistered (m : Memberships) : Prop :=
  m.hub.Registry fun s => ∀ roomId channel, IsIdentifier roomId →
    getRoomChannel roomId = .ok channel →
    s.getRefCount channel = ((m.hub.roomManager.getRoomConnectionIds roomId).filter
      fun c => c ∈ m.hub.connectionManager.connections.keys).length

/-- A batch join of a closed connection that goes on finds no room to join. -/
def ClosedBatchEnds (cfg : Config) (m : Memberships) : NodeEvent → Prop
  | .resume i _ _ => ∀ sender envelope batch,
      m.suspended[i]? = some (.batchAddRoomMember sender envelope batch) →
      m.Closed sender.connectionId → m.nextJoin cfg sender.connectionId batch = none
  | _ => True

theorem closedBatchEnds_resume_iff {cfg : Config} {m : Memberships} {i : Nat}
    {online : Option (List UserId)} {tick : Tick} :
    ClosedBatchEnds cfg m (.resume i online tick) ↔ ∀ k ∈ m.suspended[i]?,
      ∀ batch ∈ k.batch?, m.Closed k.sender.connectionId →
        m.nextJoin cfg k.sender.connectionId batch = none := by
  constructor
  · intro h k hk batch hbatch
    cases k with
    | batchAddRoomMember sender envelope rest =>
        cases hbatch
        exact h sender envelope batch hk
    | _ => cases hbatch
  · intro h sender envelope batch hk
    exact h _ hk batch rfl

instance (cfg : Config) (m : Memberships) : ∀ e, Decidable (ClosedBatchEnds cfg m e)
  | .resume .. => decidable_of_iff _ closedBatchEnds_resume_iff.symm
  | .connect .. | .frame .. | .close _ | .redisMessage .. | .subscriptionSettled ..
  | .publishSettled | .link _ | .setPresenceManager | .transport .. => isTrue trivial

/-- Redis rejects no subscription command. -/
def CommandsAccepted : NodeEvent → Prop
  | .subscriptionSettled _ accepted => accepted = true
  | _ => True

theorem ghostFree_frame {cfg : Config} {m m' : Memberships} {sender : Connection}
    (h : m.GhostFree) (registered : sender.connectionId ∈ m.hub.connectionManager.connections.keys)
    (change : FrameChange cfg sender m m') : m'.GhostFree := by
  have honly := change.onlyConcerns
  intro c hclosed r
  rw [Closed, honly.known, honly.connectionManager] at hclosed
  have hc : c ≠ sender.connectionId := fun heq => hclosed.2 (heq ▸ registered)
  rw [honly.members c hc]
  exact h c hclosed r

theorem ghostFree_resume_iff {cfg : Config} {m : Memberships} (h : m.GhostFree)
    (wf : m.WellFormed) {i : Nat} {k : Suspended} (hk : m.suspended[i]? = some k)
    (online : Option (List UserId)) (tick : Tick) :
    GhostFree (continueHandler cfg { m with suspended := m.suspended.eraseIdx i } online
        tick.reply k).1 ↔
      ClosedBatchEnds cfg m (.resume i online tick) := by
  have honly := continueHandler_onlyConcerns cfg m i online tick.reply k
  have hclosed : ∀ c, Closed (continueHandler cfg { m with suspended := m.suspended.eraseIdx i }
      online tick.reply k).1 c ↔ m.Closed c := by
    intro c
    rw [Closed, Closed, honly.known, honly.connectionManager]
  -- Only the memberships of the sender are in question.
  have hsender : GhostFree (continueHandler cfg { m with suspended := m.suspended.eraseIdx i }
      online tick.reply k).1 ↔
      (m.Closed k.sender.connectionId → ∀ r, k.sender.connectionId ∉ (continueHandler cfg
        { m with suspended := m.suspended.eraseIdx i } online
          tick.reply k).1.hub.roomManager.members r) := by
    constructor
    · exact fun hghost hc => hghost _ ((hclosed _).mpr hc)
    · intro hown c hc r
      rw [hclosed] at hc
      by_cases heq : c = k.sender.connectionId
      · rw [heq] at hc ⊢
        exact hown hc r
      · rw [honly.members c heq]
        exact h c hc r
  rw [hsender]
  have hidle : ∀ m' : Memberships,
      (∀ r, m'.hub.roomManager.members r = m.hub.roomManager.members r) →
      (m.Closed k.sender.connectionId → ∀ r,
        k.sender.connectionId ∉ m'.hub.roomManager.members r) := by
    intro m' hmembers hc r
    rw [hmembers r]
    exact h _ hc r
  have hupdate : ∀ (c : ConnectionId) (envelope : PulseEventEnvelope) (r : RoomId),
      (({ m with suspended := m.suspended.eraseIdx i } : Memberships).updateSeq c
        envelope).hub.roomManager.members r = m.hub.roomManager.members r := by
    intro c envelope r
    rw [updateSeq_eq]
  cases k with
  | batchAddRoomMember sender envelope batch =>
      rw [wf.resume_batch hk online tick.reply]
      cases hnext : m.nextJoin cfg sender.connectionId batch with
      | none =>
          refine iff_of_true (hidle _ (hupdate _ _)) ?_
          intro sender' envelope' batch' hk' _
          rw [hk, Option.some.injEq] at hk'
          cases hk'
          exact hnext
      | some next =>
          obtain ⟨roomId, rest⟩ := next
          have hjoined : sender.connectionId ∈
              (m.join roomId sender.connectionId).hub.roomManager.members roomId := by
            rw [join_members, if_pos rfl]
            exact OrderedSet.mem_insert.mpr (Or.inr rfl)
          constructor
          · intro hnot sender' envelope' batch' hk' hc
            rw [hk, Option.some.injEq] at hk'
            cases hk'
            exact absurd hjoined (hnot hc roomId)
          · intro hends hc
            have hnone := hends sender envelope batch hk hc
            rw [hnext] at hnone
            cases hnone
  | addRoomMember sender envelope roomId =>
      refine iff_of_true (hidle _ fun r => ?_) ?_
      · simp only [continueHandler, roomJoinAdded]
        split
        · exact hupdate _ _ r
        · exact hupdate _ _ r
      · intro sender' envelope' batch' hk'
        rw [hk] at hk'
        cases hk'
  | getRoomRoster sender envelope roomId =>
      refine iff_of_true (hidle _ fun r => rfl) ?_
      intro sender' envelope' batch' hk'
      rw [hk] at hk'
      cases hk'
  | removeRoomMember sender envelope roomId =>
      refine iff_of_true (hidle _ (hupdate _ _)) ?_
      intro sender' envelope' batch' hk'
      rw [hk] at hk'
      cases hk'

/-- Per event: exactly `ClosedBatchEnds` keeps closed connections out of all rooms. -/
theorem ghostFree_effect_iff {cfg : Config} {m m' : Memberships} {e : NodeEvent}
    (h : m.GhostFree) (wf : m.WellFormed) (effect : Effect cfg m m' e) :
    m'.GhostFree ↔ ClosedBatchEnds cfg m e := by
  cases e with
  | connect connection tick =>
      obtain ⟨fresh, rfl⟩ := effect
      refine iff_of_true ?_ trivial
      rintro c ⟨hknown, hkey⟩ r hmem
      simp only [connect, Hub.addConnection_connectionManager, ConnectionManager.addConnection,
        OrderedMap.mem_keys_set, not_or] at hkey
      exact h c ⟨wf.members_known r c hmem, hkey.2⟩ r hmem
  | frame connectionId raw tick =>
      obtain ⟨sender, hsender, change⟩ := effect
      obtain ⟨hid, hregistered, -⟩ := wf.registered hsender
      exact iff_of_true (ghostFree_frame h (hid ▸ hregistered) change) trivial
  | resume i online tick =>
      obtain ⟨k, hk, rfl⟩ := effect
      exact ghostFree_resume_iff h wf hk online tick
  | close connectionId =>
      obtain ⟨-, rfl⟩ := effect
      refine iff_of_true ?_ trivial
      rintro c ⟨hknown, hkey⟩ r hmem
      rw [mem_members_close] at hmem
      rw [mem_keys_close] at hkey
      exact h c ⟨hknown, fun hreg => hkey ⟨hmem.1, hreg⟩⟩ r hmem.2
  | redisMessage channel raw tick =>
      rw [effect]
      exact iff_of_true h trivial
  | subscriptionSettled i accepted =>
      obtain ⟨s, s', -, -, rfl⟩ := effect
      exact iff_of_true h trivial
  | publishSettled =>
      obtain ⟨f, -, rfl⟩ := effect
      exact iff_of_true h trivial
  | link connected =>
      obtain ⟨f, -, rfl⟩ := effect
      exact iff_of_true h trivial
  | setPresenceManager =>
      rw [effect]
      exact iff_of_true h trivial
  | transport connectionId readyState bufferedAmount sendFails =>
      rw [effect]
      exact iff_of_true h trivial

/-- The room handlers keep the counts of the room channels. -/
theorem kept_roomsCounted (cfg : Config) (sender : Connection)
    (envelope : PulseEventEnvelope) :
    Kept cfg sender envelope fun m => m.hub.RoomsCounted where
  join := fun _ _ hvalid h => h.joinRoom (isIdentifier_of_isValidRoomId hvalid) _
  leave := fun _ r h => h.leaveRoom r _
  updateSeq := by
    intro m h
    rw [updateSeq_eq]
    exact h
  suspend := fun _ _ _ _ _ h => h

theorem roomsCounted_updateRegistry {m : Memberships} (h : m.hub.RoomsCounted)
    {f : Subscriptions → Subscriptions} (keeps : Subscriptions.KeepsChannels f) :
    (m.updateRegistry f).hub.RoomsCounted where
  identifier := h.identifier
  count := by
    refine h.count.map rfl fun s hs r hr => ?_
    rw [Subscriptions.getRefCount, (keeps _).1]
    exact hs r hr

theorem roomsCounted_effect {cfg : Config} {m m' : Memberships} {e : NodeEvent}
    (h : m.hub.RoomsCounted) (effect : Effect cfg m m' e) (accepted : CommandsAccepted e) :
    m'.hub.RoomsCounted := by
  cases e with
  | connect connection tick =>
      obtain ⟨-, rfl⟩ := effect
      exact h.addConnection connection
  | frame connectionId raw tick =>
      obtain ⟨sender, -, change⟩ := effect
      exact Kept.frameChange (fun envelope _ => kept_roomsCounted cfg sender envelope) h
        (fun m f keeps hm => roomsCounted_updateRegistry hm keeps) change
  | resume i online tick =>
      obtain ⟨k, -, rfl⟩ := effect
      exact (kept_roomsCounted cfg k.sender k.envelope).continueHandler (by exact h) online
        tick.reply
  | close connectionId =>
      obtain ⟨-, rfl⟩ := effect
      exact (h.removeConnection connectionId).removeConnectionFromAllRooms connectionId _
  | redisMessage channel raw tick =>
      rw [effect]
      exact h
  | subscriptionSettled i accepted =>
      obtain ⟨s, s', hs, hsettle, rfl⟩ := effect
      have hregistry : s'.registry = s.registry := by
        simp only [CommandsAccepted] at accepted
        simp only [Subscriptions.settle, accepted] at hsettle
        split at hsettle
        · cases hsettle
        · cases hsettle
          rfl
      refine ⟨h.identifier, ?_⟩
      intro s₁ hs₁ r hr
      simp only [updateRegistry, hs, Option.map_some, Option.some.injEq] at hs₁
      rw [← hs₁, Subscriptions.getRefCount, hregistry]
      exact h.count s hs r hr
  | publishSettled =>
      obtain ⟨f, keeps, rfl⟩ := effect
      exact roomsCounted_updateRegistry h keeps
  | link connected =>
      obtain ⟨f, keeps, rfl⟩ := effect
      exact roomsCounted_updateRegistry h keeps
  | setPresenceManager =>
      rw [effect]
      exact h
  | transport connectionId readyState bufferedAmount sendFails =>
      rw [effect]
      exact h

/-- Without ghosts every reference belongs to a registered member. -/
theorem GhostFree.referencesRegistered {m : Memberships} (h : m.GhostFree) (wf : m.WellFormed)
    (counted : m.hub.RoomsCounted) : m.ReferencesRegistered := by
  intro s hs roomId channel hid hchannel
  rw [getRoomChannel_of_identifier hid, Except.ok.injEq] at hchannel
  rw [← hchannel, counted.count s hs roomId hid]
  have hall : (m.hub.roomManager.getRoomConnectionIds roomId).filter
      (fun c => c ∈ m.hub.connectionManager.connections.keys) =
        m.hub.roomManager.getRoomConnectionIds roomId := by
    refine List.filter_eq_self.mpr fun c hc => decide_eq_true ?_
    by_contra hkey
    exact h c ⟨wf.members_known roomId c hc, hkey⟩ roomId hc
  rw [hall]
  rfl

end Memberships

namespace Node

open Memberships

theorem roomsCounted_initial (redis : Option Bool) (presence : Bool) :
    (initial redis presence).memberships.hub.RoomsCounted where
  identifier := fun _ c hmem => absurd hmem (OrderedSet.not_mem_empty c)
  count := by
    intro s hs r _
    simp only [initial, Option.map_eq_some_iff] at hs
    obtain ⟨connected, -, rfl⟩ := hs
    rfl

theorem ghostFree_initial (redis : Option Bool) (presence : Bool) :
    (initial redis presence).memberships.GhostFree :=
  fun c hclosed => absurd hclosed.1 (OrderedSet.not_mem_empty c)

/-- Over whole runs: closed connections are in no room if and only if no batch join of
a closed connection joins on, and as long as Redis accepts the commands they then hold
no reference to a room channel either. -/
theorem no_ghost_membership_iff (cfg : ServerConfig) (redis : Option Bool) (presence : Bool)
    (es : List NodeEvent) :
    (Always (step cfg) (fun n => n.memberships.GhostFree) (initial redis presence) es ↔
      EveryStep (step cfg) (fun n e _ => ClosedBatchEnds cfg.toConfig n.memberships e)
        (initial redis presence) es) ∧
    ((∀ e ∈ es, CommandsAccepted e) →
      (Always (step cfg)
          (fun n => n.memberships.GhostFree ∧ n.memberships.ReferencesRegistered)
          (initial redis presence) es ↔
        EveryStep (step cfg) (fun n e _ => ClosedBatchEnds cfg.toConfig n.memberships e)
          (initial redis presence) es)) := by
  have hghost : Always (step cfg) (fun n => n.memberships.GhostFree)
      (initial redis presence) es ↔
      EveryStep (step cfg) (fun n e _ => ClosedBatchEnds cfg.toConfig n.memberships e)
        (initial redis presence) es :=
    always_iff_everyStep (wellFormed_step cfg)
      (fun _ _ _ wf h hstep => ghostFree_effect_iff h wf (step_effect hstep))
      (wellFormed_initial redis presence) (ghostFree_initial redis presence) es
  refine ⟨hghost, fun haccepted => ?_⟩
  constructor
  · exact fun h => hghost.mp (h.mono fun _ hn => hn.1)
  · intro h
    have hcounted : Always (step cfg) (fun n => n.memberships.hub.RoomsCounted)
        (initial redis presence) es :=
      always_of_everyStep
        (fun _ _ _ hc hstep hacc => roomsCounted_effect hc (step_effect hstep) hacc)
        (roomsCounted_initial redis presence) (everyStep_of_forall_mem haccepted _)
    have hwf : Always (step cfg) (fun n => n.memberships.WellFormed)
        (initial redis presence) es :=
      always_of_invariant (wellFormed_step cfg) (wellFormed_initial redis presence) es
    refine ((hghost.mpr h).and (hwf.and hcounted)).mono ?_
    rintro n ⟨hfree, wf, counted⟩
    exact ⟨hfree, hfree.referencesRegistered wf counted⟩

/-- A single join and the last turn of a batch join are suspended when their connection
closes; both go on and leave nothing behind. -/
theorem no_ghost_membership_single_join :
    let cfg : ServerConfig := { instanceId := "pulse-node-1", idempotency := { digest := id } }
    let tick : Tick := ⟨1, "0197-f", "0197-r"⟩
    Always (step cfg) (fun n => n.memberships.GhostFree ∧ n.memberships.ReferencesRegistered)
      (initial (some true) true)
      [.connect { connectionId := "c", userId := "u" } tick,
        .frame "c" (some (roomFrame .roomJoin "a" none)) tick,
        .subscriptionSettled 0 true,
        .frame "c" (some (batchJoinFrame ["b", "d"])) tick,
        .resume 1 none tick,
        .close "c",
        .resume 1 none tick,
        .resume 0 none tick,
        .resume 0 (some ["u"]) tick] := by
  refine ((no_ghost_membership_iff _ _ _ _).2 ?_).mpr ?_
  · simp [CommandsAccepted]
  · decide +kernel

/-- A batch join of two rooms is suspended behind the first one; the connection closes,
and the batch join goes on to the second. -/
theorem ghost_membership :
    ¬ ∀ cfg redis presence es,
      Always (step cfg) (fun n => n.memberships.GhostFree ∧ n.memberships.ReferencesRegistered)
        (initial redis presence) es := by
  let cfg : ServerConfig := { instanceId := "pulse-node-1", idempotency := { digest := id } }
  let tick : Tick := ⟨1, "0197-f", "0197-r"⟩
  let es : List NodeEvent :=
    [.connect { connectionId := "c", userId := "u" } tick,
      .frame "c" (some (batchJoinFrame ["a", "b"])) tick,
      .close "c",
      .resume 0 none tick]
  intro h
  refine not_always_of_run (q := fun n => decide ("c" ∈ n.memberships.known) &&
      decide ("c" ∉ n.memberships.hub.connectionManager.connections.keys) &&
      decide ("c" ∈ n.memberships.hub.roomManager.members "b")) ?_ ?_ (h cfg (some true) true es)
  · intro n hq hfree
    simp only [Bool.and_eq_true, decide_eq_true_eq] at hq
    exact hfree.1 "c" hq.1 "b" hq.2
  · decide +kernel

end Node

end Pulse
