import Pulse.Core.BatchJoin

/-!
# The room limit of a connection

A single join checks the limit against the room set as it is. A batch join counts
from the size which the room set had when the frame arrived, so rooms that other
frames joined while it was suspended escape its count. The limit holds throughout
a run exactly if no batch join goes on beyond it in this way.
-/

namespace Pulse

open Collections Js Transition MessageDispatcher

namespace RoomManager

/-- The rooms which list a connection. -/
def roomsOf (m : RoomManager) (connectionId : ConnectionId) : OrderedSet RoomId :=
  ⟨m.getAllRoomIds.filter fun roomId => connectionId ∈ m.members roomId,
    m.rooms.keys_nodup.filter _⟩

@[simp] theorem mem_roomsOf {m : RoomManager} {c : ConnectionId} {r : RoomId} :
    r ∈ m.roomsOf c ↔ c ∈ m.members r := by
  rw [OrderedSet.mem_def, roomsOf, List.mem_filter, decide_eq_true_eq]
  exact ⟨fun h => h.2, fun h => ⟨mem_keys_of_mem_members h, h⟩⟩

end RoomManager

namespace Memberships

/-- The number of rooms a connection is a member of. -/
def roomCount (m : Memberships) (connectionId : ConnectionId) : Nat :=
  (m.hub.roomManager.roomsOf connectionId).size

def Capped (cfg : Config) (m : Memberships) : Prop :=
  ∀ c, m.roomCount c ≤ cfg.maxRoomsPerConnection

/-- A batch join which goes on to a room its connection is not in finds room left. -/
def BatchWithinCap (cfg : Config) (m : Memberships) : NodeEvent → Prop
  | .resume i _ _ => ∀ sender envelope batch roomId rest,
      m.suspended[i]? = some (.batchAddRoomMember sender envelope batch) →
      m.nextJoin cfg sender.connectionId batch = some (roomId, rest) →
      sender.connectionId ∉ m.hub.roomManager.members roomId →
      m.roomCount sender.connectionId < cfg.maxRoomsPerConnection
  | _ => True

theorem roomCount_congr {m m' : Memberships} {c : ConnectionId}
    (h : ∀ r, c ∈ m'.hub.roomManager.members r ↔ c ∈ m.hub.roomManager.members r) :
    m'.roomCount c = m.roomCount c :=
  OrderedSet.size_eq_of_mem_iff fun r => by
    rw [RoomManager.mem_roomsOf, RoomManager.mem_roomsOf, h r]

/-- The two views count the same rooms. -/
theorem WellFormed.roomCount_eq {m : Memberships} (h : m.WellFormed) {c : ConnectionId}
    (hc : c ∈ m.hub.connectionManager.connections.keys) : m.roomCount c = (m.rooms c).size :=
  OrderedSet.size_eq_of_mem_iff fun r => by
    rw [RoomManager.mem_roomsOf, h.agree c hc r]

theorem roomCount_join (m : Memberships) (r : RoomId) (c : ConnectionId) :
    (m.join r c).roomCount c =
      if c ∈ m.hub.roomManager.members r then m.roomCount c else m.roomCount c + 1 := by
  have hsize : (m.join r c).roomCount c = ((m.hub.roomManager.roomsOf c).insert r).size := by
    refine OrderedSet.size_eq_of_mem_iff fun r' => ?_
    rw [RoomManager.mem_roomsOf, join_members, OrderedSet.mem_insert, RoomManager.mem_roomsOf]
    by_cases hr : r' = r <;> simp [hr]
  rw [hsize]
  by_cases hmem : c ∈ m.hub.roomManager.members r
  · rw [if_pos hmem, OrderedSet.insert_of_mem (RoomManager.mem_roomsOf.mpr hmem)]
    rfl
  · rw [if_neg hmem, OrderedSet.size_insert_of_not_mem (by simpa using hmem)]
    rfl

section frames

variable {cfg : Config} {m : Memberships} {sender : Connection}

@[simp] theorem updateSeq_rooms (m : Memberships) (c : ConnectionId)
    (envelope : PulseEventEnvelope) : (m.updateSeq c envelope).rooms = m.rooms := by
  rw [updateSeq_eq]

@[simp] theorem suspend_rooms (m : Memberships) (k : Suspended) : (m.suspend k).rooms = m.rooms :=
  rfl

theorem roomJoinAdded_rooms (m : Memberships) (sender : Connection)
    (envelope : PulseEventEnvelope) (roomId : RoomId) (fresh : Fresh) :
    (roomJoinAdded m sender envelope roomId fresh).1.rooms = m.rooms := by
  simp only [roomJoinAdded]
  split <;> simp

/-- A single join never exceeds the limit. -/
theorem handleRoomJoin_size (envelope : PulseEventEnvelope) (fresh : Fresh)
    (h : (m.rooms sender.connectionId).size ≤ cfg.maxRoomsPerConnection) :
    ((handleRoomJoin cfg m sender envelope fresh).1.rooms sender.connectionId).size ≤
      cfg.maxRoomsPerConnection := by
  simp only [handleRoomJoin]
  split
  · exact h
  · split
    · exact h
    · rename_i hlimit
      have hinsert : ((m.rooms sender.connectionId).insert
          (envelope.targetRoomId.getD "")).size ≤ cfg.maxRoomsPerConnection := by
        by_cases hmem : envelope.targetRoomId.getD "" ∈ m.rooms sender.connectionId
        · rw [OrderedSet.insert_of_mem hmem]
          exact h
        · have hlt := Nat.lt_of_not_le fun hge => hlimit ⟨hmem, hge⟩
          rw [OrderedSet.size_insert_of_not_mem hmem]
          omega
      split
      · simpa using hinsert
      · rw [roomJoinAdded_rooms]
        simpa using hinsert

/-- While its own count is the live one, the loop of a batch join respects the limit. -/
theorem batchJoinLoop_size (envelope : PulseEventEnvelope) (currentCount : Nat) (fresh : Fresh)
    (entries : List Json) (joinedRooms : List RoomId) (newlyAdded : Nat)
    (live : (m.rooms sender.connectionId).size = currentCount + newlyAdded)
    (h : (m.rooms sender.connectionId).size ≤ cfg.maxRoomsPerConnection) :
    ((batchJoinLoop cfg sender envelope currentCount fresh entries m joinedRooms
      newlyAdded).1.rooms sender.connectionId).size ≤ cfg.maxRoomsPerConnection := by
  induction entries generalizing m joinedRooms newlyAdded with
  | nil => simpa [batchJoinLoop, batchJoinDone] using h
  | cons entry rest ih =>
      simp only [batchJoinLoop]
      split
      · exact ih _ _ live h
      · split
        · simpa [batchJoinDone] using h
        · rename_i hlimit
          have hjoined : ((m.join (batchEntry entry) sender.connectionId).rooms
              sender.connectionId).size =
                if batchEntry entry ∉ m.rooms sender.connectionId then
                  (m.rooms sender.connectionId).size + 1
                else (m.rooms sender.connectionId).size := by
            rw [join_rooms, if_pos rfl]
            by_cases hmem : batchEntry entry ∈ m.rooms sender.connectionId
            · rw [OrderedSet.insert_of_mem hmem, if_neg (not_not.mpr hmem)]
            · rw [OrderedSet.size_insert_of_not_mem hmem, if_pos hmem]
          have hbound : ((m.join (batchEntry entry) sender.connectionId).rooms
              sender.connectionId).size ≤ cfg.maxRoomsPerConnection := by
            rw [hjoined]
            split
            · rename_i hnew
              have hlt := Nat.lt_of_not_le fun hge => hlimit ⟨hnew, hge⟩
              omega
            · exact h
          split
          · exact hbound
          · refine ih _ _ ?_ hbound
            rw [hjoined]
            split <;> omega

theorem handleRoomBatchJoin_size (envelope : PulseEventEnvelope) (fresh : Fresh)
    (h : (m.rooms sender.connectionId).size ≤ cfg.maxRoomsPerConnection) :
    ((handleRoomBatchJoin cfg m sender envelope fresh).1.rooms sender.connectionId).size ≤
      cfg.maxRoomsPerConnection := by
  rw [handleRoomBatchJoin]
  split
  · simp only
    split
    · exact h
    · exact batchJoinLoop_size envelope _ fresh _ _ _ rfl h
  · exact h

theorem handleRoomLeave_size (envelope : PulseEventEnvelope) (fresh : Fresh)
    (h : (m.rooms sender.connectionId).size ≤ cfg.maxRoomsPerConnection) :
    ((handleRoomLeave m sender envelope fresh).1.rooms sender.connectionId).size ≤
      cfg.maxRoomsPerConnection := by
  have herase := Nat.le_trans
    (OrderedSet.size_erase_le (m.rooms sender.connectionId) (envelope.targetRoomId.getD "")) h
  simp only [handleRoomLeave]
  split
  · simpa using herase
  · simpa [roomLeaveDone] using herase

theorem FrameChange.size {m' : Memberships} (change : FrameChange cfg sender m m')
    (h : (m.rooms sender.connectionId).size ≤ cfg.maxRoomsPerConnection) :
    (m'.rooms sender.connectionId).size ≤ cfg.maxRoomsPerConnection := by
  cases change with
  | rejected => exact h
  | seq envelope _ f _ => simpa [updateRegistry] using h
  | join envelope _ fresh => exact handleRoomJoin_size envelope fresh h
  | batchJoin envelope _ fresh => exact handleRoomBatchJoin_size envelope fresh h
  | leave envelope _ fresh => exact handleRoomLeave_size envelope fresh h

end frames

/-- A frame keeps the limit: its sender is registered, so the room set it checks is the
one the limit is about. -/
theorem Capped.frame {cfg : Config} {m m' : Memberships} {sender : Connection}
    (h : Capped cfg m) (wf : m.WellFormed) (wf' : m'.WellFormed)
    (registered : sender.connectionId ∈ m.hub.connectionManager.connections.keys)
    (change : FrameChange cfg sender m m') : Capped cfg m' := by
  have honly := change.onlyConcerns
  intro c
  by_cases hc : c = sender.connectionId
  · rw [hc, wf'.roomCount_eq (by rw [honly.connectionManager]; exact registered)]
    refine change.size ?_
    rw [← wf.roomCount_eq registered]
    exact h sender.connectionId
  · have hsame : m'.roomCount c = m.roomCount c := roomCount_congr (honly.members c hc)
    rw [hsame]
    exact h c

/-- Only a batch join can break the limit, and only as `BatchWithinCap` excludes. -/
theorem capped_resume_iff {cfg : Config} {m : Memberships} (h : Capped cfg m)
    (wf : m.WellFormed) {i : Nat} {k : Suspended} (hk : m.suspended[i]? = some k)
    (online : Option (List UserId)) (tick : Tick) :
    Capped cfg (continueHandler cfg { m with suspended := m.suspended.eraseIdx i } online
        tick.reply k).1 ↔
      BatchWithinCap cfg m (.resume i online tick) := by
  have hidle : ∀ m' : Memberships,
      (∀ r, m'.hub.roomManager.members r = m.hub.roomManager.members r) → Capped cfg m' := by
    intro m' hmembers c
    have hsame : m'.roomCount c = m.roomCount c := roomCount_congr fun r => by rw [hmembers r]
    rw [hsame]
    exact h c
  have hupdate : ∀ (c : ConnectionId) (envelope : PulseEventEnvelope) (r : RoomId),
      (({ m with suspended := m.suspended.eraseIdx i } : Memberships).updateSeq c
        envelope).hub.roomManager.members r = m.hub.roomManager.members r := by
    intro c envelope r
    rw [updateSeq_eq]
  cases k with
  | batchAddRoomMember sender envelope batch =>
      rw [wf.resume_batch hk online tick.reply]
      cases hnext : m.nextJoin cfg sender.connectionId batch with
      | none =>
          refine iff_of_true (hidle _ (hupdate _ _)) ?_
          intro sender' envelope' batch' roomId rest hk' hnext'
          rw [hk, Option.some.injEq] at hk'
          cases hk'
          rw [hnext] at hnext'
          cases hnext'
      | some next =>
          obtain ⟨roomId, rest⟩ := next
          have hcount : ∀ c, ((({ m with suspended := m.suspended.eraseIdx i } :
              Memberships).join roomId sender.connectionId).suspend
                (.batchAddRoomMember sender envelope (batch.advance
                  (decide (roomId ∉ m.rooms sender.connectionId)) roomId rest))).roomCount c =
              if c = sender.connectionId ∧
                  sender.connectionId ∉ m.hub.roomManager.members roomId then
                m.roomCount c + 1
              else m.roomCount c := by
            intro c
            by_cases hc : c = sender.connectionId
            · subst hc
              refine (roomCount_join { m with suspended := m.suspended.eraseIdx i } roomId
                sender.connectionId).trans ?_
              by_cases hmem : sender.connectionId ∈ m.hub.roomManager.members roomId
              · simp only [hmem, if_true, not_true_eq_false, and_false, if_false]
                rfl
              · simp only [hmem, if_false, not_false_eq_true, and_self, if_true]
                rfl
            · rw [if_neg fun hand => hc hand.1]
              refine roomCount_congr fun r => ?_
              refine Iff.trans (b := c ∈ (m.join roomId
                sender.connectionId).hub.roomManager.members r) Iff.rfl ?_
              rw [join_members]
              by_cases hr : r = roomId <;> simp [hr, hc]
          constructor
          · intro hcapped sender' envelope' batch' roomId' rest' hk' hnext' hmem
            rw [hk, Option.some.injEq] at hk'
            cases hk'
            rw [hnext, Option.some.injEq] at hnext'
            cases hnext'
            have hnew := hcapped sender.connectionId
            rw [hcount, if_pos ⟨rfl, hmem⟩] at hnew
            exact hnew
          · intro hwithin c
            rw [hcount]
            split
            · rename_i hand
              rw [hand.1]
              exact hwithin sender envelope batch roomId rest hk hnext hand.2
            · exact h c
  | addRoomMember sender envelope roomId =>
      refine iff_of_true (hidle _ fun r => ?_) ?_
      · simp only [continueHandler, roomJoinAdded]
        split
        · exact hupdate _ _ r
        · exact hupdate _ _ r
      · intro sender' envelope' batch' roomId' rest' hk'
        rw [hk] at hk'
        cases hk'
  | getRoomRoster sender envelope roomId =>
      refine iff_of_true (hidle _ fun r => rfl) ?_
      intro sender' envelope' batch' roomId' rest' hk'
      rw [hk] at hk'
      cases hk'
  | removeRoomMember sender envelope roomId =>
      refine iff_of_true (hidle _ (hupdate _ _)) ?_
      intro sender' envelope' batch' roomId' rest' hk'
      rw [hk] at hk'
      cases hk'

theorem roomCount_mono {m m' : Memberships} {c : ConnectionId}
    (h : ∀ r, c ∈ m'.hub.roomManager.members r → c ∈ m.hub.roomManager.members r) :
    m'.roomCount c ≤ m.roomCount c :=
  OrderedSet.size_le_of_subset fun r hr =>
    RoomManager.mem_roomsOf.mpr (h r (RoomManager.mem_roomsOf.mp hr))

/-- Per event: from a state within the limit, exactly `BatchWithinCap` keeps it. -/
theorem capped_effect_iff {cfg : Config} {m m' : Memberships} {e : NodeEvent}
    (h : Capped cfg m) (wf : m.WellFormed) (wf' : m'.WellFormed) (effect : Effect cfg m m' e) :
    Capped cfg m' ↔ BatchWithinCap cfg m e := by
  have hfewer : (∀ c r, c ∈ m'.hub.roomManager.members r → c ∈ m.hub.roomManager.members r) →
      Capped cfg m' := fun hmembers c => Nat.le_trans (roomCount_mono (hmembers c)) (h c)
  cases e with
  | connect connection tick =>
      obtain ⟨-, rfl⟩ := effect
      exact iff_of_true (hfewer fun _ _ hmem => hmem) trivial
  | frame connectionId raw tick =>
      obtain ⟨sender, hsender, change⟩ := effect
      obtain ⟨hid, hregistered, -⟩ := wf.registered hsender
      exact iff_of_true (h.frame wf wf' (hid ▸ hregistered) change) trivial
  | resume i online tick =>
      obtain ⟨k, hk, rfl⟩ := effect
      exact capped_resume_iff h wf hk online tick
  | close connectionId =>
      obtain ⟨-, rfl⟩ := effect
      exact iff_of_true (hfewer fun _ _ hmem => (mem_members_close.mp hmem).2) trivial
  | redisMessage channel raw tick =>
      rw [effect]
      exact iff_of_true h trivial
  | subscriptionSettled i accepted =>
      obtain ⟨s, s', -, -, rfl⟩ := effect
      exact iff_of_true h trivial
  | publishSettled =>
      obtain ⟨f, -, rfl⟩ := effect
      exact iff_of_true h trivial
  | link connected =>
      obtain ⟨f, -, rfl⟩ := effect
      exact iff_of_true h trivial
  | setPresenceManager =>
      rw [effect]
      exact iff_of_true h trivial
  | transport connectionId readyState bufferedAmount sendFails =>
      rw [effect]
      exact iff_of_true h trivial

end Memberships

namespace Node

open Memberships

/-- Over whole runs: no connection ever exceeds the limit if and only if no batch join
goes on beyond it after a suspension. -/
theorem room_cap_iff (cfg : ServerConfig) (redis : Option Bool) (presence : Bool)
    (es : List NodeEvent) :
    Always (step cfg) (fun n => Capped cfg.toConfig n.memberships) (initial redis presence) es ↔
      EveryStep (step cfg) (fun n e _ => BatchWithinCap cfg.toConfig n.memberships e)
        (initial redis presence) es := by
  refine always_iff_everyStep (wellFormed_step cfg) ?_ (wellFormed_initial redis presence) ?_ es
  · intro n e n' wf hcapped hstep
    exact capped_effect_iff hcapped wf (wellFormed_step cfg n e n' wf hstep) (step_effect hstep)
  · intro c
    exact Nat.zero_le _

/-- With a limit of two, a batch join of two rooms and a single join which arrives while
the batch is suspended: three rooms. -/
theorem room_cap_exceeded :
    ¬ ∀ cfg redis presence es,
      Always (step cfg) (fun n => Capped cfg.toConfig n.memberships)
        (initial redis presence) es := by
  let cfg : ServerConfig :=
    { instanceId := "pulse-node-1", maxRoomsPerConnection := 2, idempotency := { digest := id } }
  let tick : Tick := ⟨1, "0197-f", "0197-r"⟩
  let es : List NodeEvent :=
    [.connect { connectionId := "c", userId := "u" } tick,
      .frame "c" (some (batchJoinFrame ["a", "b"])) tick,
      .frame "c" (some (roomFrame .roomJoin "d" none)) tick,
      .resume 0 none tick]
  intro h
  refine not_always_of_run (q := fun n => decide (2 < n.memberships.roomCount "c")) ?_ ?_
    (h cfg none true es)
  · intro n hcount hcapped
    exact absurd (hcapped "c") (Nat.not_le.mpr (of_decide_eq_true hcount))
  · decide +kernel

end Node

end Pulse
