import Pulse.Core.Agreement

/-!
# Turns of a suspended batch join

With presence reported, the loop of a batch join suspends after each room it
joins. One turn therefore joins at most one room, `nextJoin`, or ends the loop.
Whatever a handler does, it concerns the memberships of its own sender only.
-/

namespace Pulse

open Collections Js MessageDispatcher

/-- The local variables after one more room was joined. -/
def BatchJoin.advance (batch : BatchJoin) (isNew : Bool) (roomId : RoomId) (rest : List Json) :
    BatchJoin :=
  { remaining := rest
    joinedRooms := batch.joinedRooms ++ [roomId]
    currentCount := batch.currentCount
    newlyAdded := if isNew then batch.newlyAdded + 1 else batch.newlyAdded }

namespace Memberships

/-- The room which the loop joins next, with the entries behind it; `none` if the loop
ends, for want of a valid entry or of capacity by its own count. -/
def nextJoin (cfg : Config) (m : Memberships) (sender : ConnectionId) (batch : BatchJoin) :
    Option (RoomId × List Json) :=
  match batch.remaining.dropWhile fun entry => !isValidRoomId cfg (batchEntry entry) with
  | [] => none
  | entry :: rest =>
      if batchEntry entry ∉ m.rooms sender ∧
          batch.currentCount + batch.newlyAdded ≥ cfg.maxRoomsPerConnection then none
      else some (batchEntry entry, rest)

theorem batchJoinLoop_turn {cfg : Config} {m : Memberships} {sender : Connection}
    (reports : m.reportsPresence sender = true) (envelope : PulseEventEnvelope) (fresh : Fresh)
    (batch : BatchJoin) :
    batchJoinLoop cfg sender envelope batch.currentCount fresh batch.remaining m
        batch.joinedRooms batch.newlyAdded =
      match m.nextJoin cfg sender.connectionId batch with
      | none => batchJoinDone m sender envelope batch.joinedRooms fresh
      | some (roomId, rest) =>
          ((m.join roomId sender.connectionId).suspend (.batchAddRoomMember sender envelope
            (batch.advance (decide (roomId ∉ m.rooms sender.connectionId)) roomId rest)),
              none) := by
  obtain ⟨remaining, joinedRooms, currentCount, newlyAdded⟩ := batch
  induction remaining with
  | nil => rfl
  | cons entry rest ih =>
      have hreports : ∀ r, (m.join r sender.connectionId).reportsPresence sender = true :=
        fun _ => reports
      rw [batchJoinLoop]
      by_cases hvalid : isValidRoomId cfg (batchEntry entry) = true
      · simp only [hvalid, Bool.not_true, Bool.false_eq_true, if_false, hreports, if_true, nextJoin,
          List.dropWhile_cons_of_neg, not_false_eq_true]
        split
        · rfl
        · simp [BatchJoin.advance]
      · simp only [hvalid, Bool.not_false, if_true]
        -- An invalid entry is skipped by the loop and by `nextJoin` alike.
        have hskip : m.nextJoin cfg sender.connectionId
            ⟨entry :: rest, joinedRooms, currentCount, newlyAdded⟩ =
              m.nextJoin cfg sender.connectionId
                ⟨rest, joinedRooms, currentCount, newlyAdded⟩ := by
          simp [nextJoin, hvalid]
        rw [hskip]
        exact ih

/-- Two states that differ only in what concerns one connection. -/
structure OnlyConcerns (c : ConnectionId) (m₀ m : Memberships) : Prop where
  connectionManager : m.hub.connectionManager = m₀.hub.connectionManager
  known : m.known = m₀.known
  members : ∀ c' ≠ c, ∀ r,
    c' ∈ m.hub.roomManager.members r ↔ c' ∈ m₀.hub.roomManager.members r
  lastSeenSeq : ∀ c' ≠ c, m.lastSeenSeq c' = m₀.lastSeenSeq c'

theorem OnlyConcerns.refl (c : ConnectionId) (m : Memberships) : OnlyConcerns c m m :=
  ⟨rfl, rfl, fun _ _ _ => Iff.rfl, fun _ _ => rfl⟩

theorem kept_onlyConcerns (cfg : Config) (sender : Connection) (envelope : PulseEventEnvelope)
    (m₀ : Memberships) : Kept cfg sender envelope (OnlyConcerns sender.connectionId m₀) where
  join := by
    intro m r _ h
    refine ⟨h.connectionManager, h.known, ?_, h.lastSeenSeq⟩
    intro c hc r'
    rw [join_members, ← h.members c hc]
    by_cases hr : r' = r <;> simp [hr, hc]
  leave := by
    intro m r h
    refine ⟨h.connectionManager, h.known, ?_, h.lastSeenSeq⟩
    intro c hc r'
    rw [leave_members, ← h.members c hc]
    by_cases hr : r' = r <;> simp [hr, hc]
  updateSeq := by
    intro m h
    rw [updateSeq_eq]
    refine ⟨h.connectionManager, h.known, h.members, ?_⟩
    intro c hc
    rw [← h.lastSeenSeq c hc]
    cases envelope.seq with
    | none => rfl
    | some seq => exact Function.update_of_ne hc _ _
  suspend := fun _ _ _ _ _ h => ⟨h.connectionManager, h.known, h.members, h.lastSeenSeq⟩

theorem FrameChange.onlyConcerns {cfg : Config} {sender : Connection} {m m' : Memberships}
    (change : FrameChange cfg sender m m') : OnlyConcerns sender.connectionId m m' :=
  Kept.frameChange (fun envelope _ => kept_onlyConcerns cfg sender envelope m) (.refl _ m)
    (fun _ _ _ h => ⟨h.connectionManager, h.known, h.members, h.lastSeenSeq⟩) change

theorem continueHandler_onlyConcerns (cfg : Config) (m : Memberships) (i : Nat)
    (online : Option (List UserId)) (fresh : Fresh) (k : Suspended) :
    OnlyConcerns k.sender.connectionId m
      (continueHandler cfg { m with suspended := m.suspended.eraseIdx i } online fresh k).1 :=
  have herased : OnlyConcerns k.sender.connectionId m
      { m with suspended := m.suspended.eraseIdx i } :=
    ⟨rfl, rfl, fun _ _ _ => Iff.rfl, fun _ _ => rfl⟩
  (kept_onlyConcerns cfg k.sender k.envelope m).continueHandler herased online fresh

/-- Known connections stay known. -/
theorem Effect.known_mono {cfg : Config} {m m' : Memberships} {e : NodeEvent}
    (effect : Effect cfg m m' e) {c : ConnectionId} (hc : c ∈ m.known) : c ∈ m'.known := by
  cases e with
  | connect connection tick =>
      obtain ⟨-, rfl⟩ := effect
      exact OrderedSet.mem_insert.mpr (Or.inl hc)
  | frame connectionId raw tick =>
      obtain ⟨sender, -, change⟩ := effect
      rw [change.onlyConcerns.known]
      exact hc
  | resume i online tick =>
      obtain ⟨k, -, rfl⟩ := effect
      rw [(continueHandler_onlyConcerns cfg m i online tick.reply k).known]
      exact hc
  | close connectionId =>
      obtain ⟨-, rfl⟩ := effect
      exact hc
  | redisMessage channel raw tick =>
      rw [effect]
      exact hc
  | subscriptionSettled i accepted =>
      obtain ⟨s, s', -, -, rfl⟩ := effect
      exact hc
  | publishSettled =>
      obtain ⟨f, -, rfl⟩ := effect
      exact hc
  | link connected =>
      obtain ⟨f, -, rfl⟩ := effect
      exact hc
  | setPresenceManager =>
      rw [effect]
      exact hc
  | transport connectionId readyState bufferedAmount sendFails =>
      rw [effect]
      exact hc

/-- A connection which is registered behind an event was so before, or is a new one. -/
theorem Effect.registered {cfg : Config} {m m' : Memberships} {e : NodeEvent}
    (effect : Effect cfg m m' e) {c : ConnectionId} {connection : Connection}
    (hc : m'.hub.connectionManager.getConnection c = some connection) :
    m.hub.connectionManager.getConnection c = some connection ∨
      c ∉ m.known ∧ ∃ tick, e = .connect connection tick ∧ connection.connectionId = c := by
  have hsame : m'.hub.connectionManager = m.hub.connectionManager →
      m.hub.connectionManager.getConnection c = some connection := fun heq => heq ▸ hc
  cases e with
  | connect connection' tick =>
      obtain ⟨fresh, rfl⟩ := effect
      have hset : (m.hub.connectionManager.connections.set connection'.connectionId
          connection').get? c = some connection := hc
      rw [OrderedMap.get?_set] at hset
      split at hset
      · rename_i heq
        cases hset
        exact Or.inr ⟨heq ▸ fresh, tick, rfl, heq.symm⟩
      · exact Or.inl hset
  | frame connectionId raw tick =>
      obtain ⟨sender, -, change⟩ := effect
      exact Or.inl (hsame change.onlyConcerns.connectionManager)
  | resume i online tick =>
      obtain ⟨k, -, rfl⟩ := effect
      exact Or.inl (hsame
        (continueHandler_onlyConcerns cfg m i online tick.reply k).connectionManager)
  | close connectionId =>
      obtain ⟨-, rfl⟩ := effect
      simp only [close, Hub.removeConnectionFromAllRooms_connectionManager,
        Hub.removeConnection_connectionManager, ConnectionManager.removeConnection] at hc
      split at hc
      · exact Or.inl hc
      · have hdelete : (m.hub.connectionManager.connections.delete connectionId).get? c =
            some connection := hc
        rw [OrderedMap.get?_delete] at hdelete
        split at hdelete
        · cases hdelete
        · exact Or.inl hdelete
  | redisMessage channel raw tick => exact Or.inl (hsame (by rw [effect]))
  | subscriptionSettled i accepted =>
      obtain ⟨s, s', -, -, rfl⟩ := effect
      exact Or.inl hc
  | publishSettled =>
      obtain ⟨f, -, rfl⟩ := effect
      exact Or.inl hc
  | link connected =>
      obtain ⟨f, -, rfl⟩ := effect
      exact Or.inl hc
  | setPresenceManager => exact Or.inl (hsame (by rw [effect]))
  | transport connectionId readyState bufferedAmount sendFails =>
      exact Or.inl (hsame (by rw [effect]))

/-- The turn of a batch join, as the handlers of a well-formed state resume it. -/
theorem WellFormed.resume_batch {cfg : Config} {m : Memberships} (h : m.WellFormed) {i : Nat}
    {sender : Connection} {envelope : PulseEventEnvelope} {batch : BatchJoin}
    (hk : m.suspended[i]? = some (.batchAddRoomMember sender envelope batch))
    (online : Option (List UserId)) (fresh : Fresh) :
    (continueHandler cfg { m with suspended := m.suspended.eraseIdx i } online fresh
        (.batchAddRoomMember sender envelope batch)).1 =
      match m.nextJoin cfg sender.connectionId batch with
      | none =>
          ({ m with suspended := m.suspended.eraseIdx i } : Memberships).updateSeq
            sender.connectionId envelope
      | some (roomId, rest) =>
          (({ m with suspended := m.suspended.eraseIdx i } : Memberships).join roomId
            sender.connectionId).suspend (.batchAddRoomMember sender envelope
              (batch.advance (decide (roomId ∉ m.rooms sender.connectionId)) roomId rest)) := by
  have hreports : m.reportsPresence sender = true :=
    h.suspended_reported _ (List.mem_of_getElem? hk)
  rw [continueHandler, batchJoinLoop_turn (by exact hreports)]
  have hnext : ({ m with suspended := m.suspended.eraseIdx i } : Memberships).nextJoin cfg
      sender.connectionId batch = m.nextJoin cfg sender.connectionId batch := rfl
  rw [hnext]
  cases m.nextJoin cfg sender.connectionId batch <;> rfl

end Memberships

end Pulse
