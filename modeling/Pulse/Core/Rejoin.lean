import Pulse.Core.Acknowledgements
import Pulse.Core.Sequence

/-!
# Joining rooms again

A batch join which asks a connection into its desired rooms, while the other requests on
the connection join nothing but desired rooms and leave none of them. The loop of the
batch join then never stops at the room limit, however often it is suspended and whatever
is joined meanwhile, so its acknowledgement means that the connection is in every desired
room. The correlation id `κ` marks the requests for all of the rooms.
-/

namespace Pulse

open Collections Js Transition MessageDispatcher

/-- The rooms which a batch join names. -/
def batchRooms (envelope : PulseEventEnvelope) : List RoomId :=
  match envelope.payload.get? "rooms" with
  | some (.arr rooms) => rooms.map batchEntry
  | _ => []

/-- A request that joins desired rooms only, and leaves none of them. -/
def Spares (desired : List RoomId) (envelope : PulseEventEnvelope) : Prop :=
  (envelope.type = .roomJoin → envelope.targetRoomId.getD "" ∈ desired) ∧
    (envelope.type = .roomBatchJoin → ∀ roomId ∈ batchRooms envelope, roomId ∈ desired) ∧
      (envelope.type = .roomLeave → envelope.targetRoomId.getD "" ∉ desired)

instance (desired : List RoomId) (envelope : PulseEventEnvelope) :
    Decidable (Spares desired envelope) :=
  inferInstanceAs (Decidable ((_ → _) ∧ (_ → ∀ roomId ∈ batchRooms envelope, _) ∧ (_ → _)))

/-- A request on the connection: one for all desired rooms if it is marked, and harmless
otherwise. -/
structure Asks (desired : List RoomId) (κ : String) (envelope : PulseEventEnvelope) : Prop where
  named : ∃ name, envelope.correlationId = some name ∧ name ≠ ""
  marked : envelope.correlationId = some κ → envelope.type = .roomBatchJoin ∧
    ∃ rooms, envelope.payload.get? "rooms" = some (.arr rooms) ∧ rooms.map batchEntry = desired
  spares : Spares desired envelope

namespace Memberships

/-- The connection is in every desired room, by its own account. -/
def Restored (desired : List RoomId) (c : ConnectionId) (m : Memberships) : Prop :=
  ∀ r ∈ desired, r ∈ m.rooms c

/-- A suspended handler, for a connection in these rooms: a marked one still joins what is
missing, and no batch join counts rooms that the connection is not in. -/
def Resumable (desired : List RoomId) (κ : String) (rooms : OrderedSet RoomId) :
    Suspended → Prop
  | .batchAddRoomMember _ envelope batch =>
      (∀ entry ∈ batch.remaining, batchEntry entry ∈ desired) ∧
        batch.currentCount + batch.newlyAdded ≤ rooms.size ∧
          (envelope.correlationId = some κ →
            ∀ r ∈ desired, r ∈ rooms ∨ r ∈ batch.remaining.map batchEntry)
  | .addRoomMember _ envelope _ => envelope.correlationId ≠ some κ
  | .getRoomRoster _ envelope _ => envelope.correlationId ≠ some κ
  | .removeRoomMember _ envelope _ => envelope.correlationId ≠ some κ

/-- What a piece of a handler does for its connection, and what its reply means. -/
structure Turn (desired : List RoomId) (κ : String) (c : ConnectionId)
    (envelope : PulseEventEnvelope) (m : Memberships)
    (result : Memberships × Option PulseEventEnvelope) : Prop where
  grows : ∀ r ∈ m.rooms c, r ∈ result.1.rooms c
  within : ∀ r ∈ result.1.rooms c, r ∈ desired
  kept : ∀ k ∈ m.suspended, k ∈ result.1.suspended
  suspended : ∀ k ∈ result.1.suspended, k ∈ m.suspended ∨
    k.envelope = envelope ∧ Resumable desired κ (result.1.rooms c) k
  replied : envelope.correlationId = some κ → result.2.isSome = true →
    Restored desired c result.1
  silent : envelope.correlationId = some κ → result.2 = none →
    ∃ k ∈ result.1.suspended, k.sender.connectionId = c ∧ k.envelope.correlationId = some κ

variable {desired : List RoomId} {κ : String} {c : ConnectionId} {m m' : Memberships}
variable {cfg : Config} {sender : Connection} {envelope : PulseEventEnvelope}

theorem Resumable.mono {rooms rooms' : OrderedSet RoomId} {k : Suspended}
    (h : Resumable desired κ rooms k) (grows : ∀ r ∈ rooms, r ∈ rooms') :
    Resumable desired κ rooms' k := by
  cases k with
  | batchAddRoomMember sender envelope batch =>
      obtain ⟨hremaining, hcount, hcovers⟩ := h
      refine ⟨hremaining, Nat.le_trans hcount (OrderedSet.size_le_of_subset grows), ?_⟩
      exact fun hmarked r hr => (hcovers hmarked r hr).imp_left (grows r)
  | _ => exact h

/-- While a desired room is missing, the limit is not reached. -/
theorem size_lt_of_missing {rooms : OrderedSet RoomId} (within : ∀ r ∈ rooms, r ∈ desired)
    {r : RoomId} (hr : r ∈ desired) (missing : r ∉ rooms) : rooms.size < desired.length := by
  have hnodup : (r :: rooms.toList).Nodup := List.nodup_cons.mpr ⟨missing, rooms.nodup⟩
  have hsubset : r :: rooms.toList ⊆ desired := by
    intro r' hr'
    rcases List.mem_cons.mp hr' with rfl | hmem
    · exact hr
    · exact within r' hmem
  exact (List.subperm_of_subset hnodup hsubset).length_le

/-- The handler goes on from a state with more rooms. -/
theorem Turn.start {result : Memberships × Option PulseEventEnvelope}
    (h : Turn desired κ c envelope m' result) (grows : ∀ r ∈ m.rooms c, r ∈ m'.rooms c)
    (suspended : m'.suspended = m.suspended) : Turn desired κ c envelope m result where
  grows := fun r hr => h.grows r (grows r hr)
  within := h.within
  kept := by
    rw [← suspended]
    exact h.kept
  suspended := by
    rw [← suspended]
    exact h.suspended
  replied := h.replied
  silent := h.silent

/-- A handler without a marked request that neither joins, leaves nor suspends. -/
theorem Turn.idle {result : Memberships × Option PulseEventEnvelope}
    (within : ∀ r ∈ m.rooms c, r ∈ desired) (unmarked : envelope.correlationId ≠ some κ)
    (rooms : result.1.rooms c = m.rooms c) (suspended : result.1.suspended = m.suspended) :
    Turn desired κ c envelope m result where
  grows := by
    rw [rooms]
    exact fun _ hr => hr
  within := by
    rw [rooms]
    exact within
  kept := by
    rw [suspended]
    exact fun _ hk => hk
  suspended := by
    rw [suspended]
    exact fun _ hk => Or.inl hk
  replied := fun hmarked => absurd hmarked unmarked
  silent := fun hmarked => absurd hmarked unmarked

/-- A handler without a marked request that suspends. -/
theorem Turn.suspend {k : Suspended} (within : ∀ r ∈ m.rooms c, r ∈ desired)
    (unmarked : envelope.correlationId ≠ some κ) (hk : k.envelope = envelope)
    (resumable : Resumable desired κ (m.rooms c) k) (reply : Option PulseEventEnvelope) :
    Turn desired κ c envelope m (m.suspend k, reply) where
  grows := fun _ hr => hr
  within := within
  kept := fun _ hk => List.mem_append_left _ hk
  suspended := by
    intro k' hk'
    refine (List.mem_append.mp hk').imp_right fun hnew => ?_
    rw [List.mem_singleton.mp hnew]
    exact ⟨hk, resumable⟩
  replied := fun hmarked => absurd hmarked unmarked
  silent := fun hmarked => absurd hmarked unmarked

theorem mem_join_rooms {r r' : RoomId} :
    r' ∈ (m.join r c).rooms c ↔ r' ∈ m.rooms c ∨ r' = r := by
  rw [join_rooms, if_pos rfl, OrderedSet.mem_insert]

theorem roomJoinAdded_turn (within : ∀ r ∈ m.rooms c, r ∈ desired)
    (unmarked : envelope.correlationId ≠ some κ) (roomId : RoomId) (fresh : Fresh) :
    Turn desired κ c envelope m (roomJoinAdded m sender envelope roomId fresh) := by
  have hrooms : (m.updateSeq sender.connectionId envelope).rooms = m.rooms := by
    rw [updateSeq_eq]
  simp only [roomJoinAdded]
  split
  · have hturn : Turn desired κ c envelope (m.updateSeq sender.connectionId envelope) (_, none) :=
      .suspend (k := .getRoomRoster sender envelope roomId) (by rwa [hrooms]) unmarked rfl unmarked
        none
    refine hturn.start ?_ (updateSeq_suspended _ _ _)
    rw [hrooms]
    exact fun _ hr => hr
  · exact .idle within unmarked (by rw [hrooms]) (updateSeq_suspended _ _ _)

theorem handleRoomJoin_turn (within : ∀ r ∈ m.rooms sender.connectionId, r ∈ desired)
    (unmarked : envelope.correlationId ≠ some κ)
    (joins : envelope.targetRoomId.getD "" ∈ desired) (fresh : Fresh) :
    Turn desired κ sender.connectionId envelope m
      (handleRoomJoin cfg m sender envelope fresh) := by
  simp only [handleRoomJoin]
  split
  · exact .idle within unmarked rfl rfl
  · split
    · exact .idle within unmarked rfl rfl
    · have hwithin : ∀ r ∈ (m.join (envelope.targetRoomId.getD "")
          sender.connectionId).rooms sender.connectionId, r ∈ desired := by
        intro r hr
        rcases mem_join_rooms.mp hr with hold | rfl
        · exact within r hold
        · exact joins
      have hgrows : ∀ r ∈ m.rooms sender.connectionId, r ∈ (m.join
          (envelope.targetRoomId.getD "") sender.connectionId).rooms sender.connectionId :=
        fun r hr => mem_join_rooms.mpr (Or.inl hr)
      split
      · refine Turn.start (.suspend (k := .addRoomMember sender envelope _) hwithin unmarked rfl
          unmarked none) hgrows rfl
      · exact Turn.start (roomJoinAdded_turn hwithin unmarked _ fresh) hgrows rfl

theorem roomLeaveDone_turn (within : ∀ r ∈ m.rooms c, r ∈ desired)
    (unmarked : envelope.correlationId ≠ some κ) (roomId : RoomId) (fresh : Fresh) :
    Turn desired κ c envelope m (roomLeaveDone m sender envelope roomId fresh) :=
  .idle within unmarked (by rw [roomLeaveDone, updateSeq_eq]) (updateSeq_suspended _ _ _)

theorem handleRoomLeave_turn (within : ∀ r ∈ m.rooms sender.connectionId, r ∈ desired)
    (unmarked : envelope.correlationId ≠ some κ)
    (leaves : envelope.targetRoomId.getD "" ∉ desired) (fresh : Fresh) :
    Turn desired κ sender.connectionId envelope m (handleRoomLeave m sender envelope fresh) := by
  have hsame : (m.leave (envelope.targetRoomId.getD "") sender.connectionId).rooms
      sender.connectionId = m.rooms sender.connectionId := by
    rw [leave_rooms, if_pos rfl, OrderedSet.erase_of_not_mem]
    exact fun hmem => leaves (within _ hmem)
  have hwithin : ∀ r ∈ (m.leave (envelope.targetRoomId.getD "")
      sender.connectionId).rooms sender.connectionId, r ∈ desired := by
    rw [hsame]
    exact within
  have hgrows : ∀ r ∈ m.rooms sender.connectionId, r ∈ (m.leave
      (envelope.targetRoomId.getD "") sender.connectionId).rooms sender.connectionId := by
    rw [hsame]
    exact fun _ hr => hr
  simp only [handleRoomLeave]
  split
  · refine Turn.start (.suspend (k := .removeRoomMember sender envelope _) hwithin unmarked rfl
      unmarked none) hgrows rfl
  · exact Turn.start (roomLeaveDone_turn hwithin unmarked _ fresh) hgrows rfl

/-- The loop joins what is left of the desired rooms, or suspends on the way. -/
theorem batchJoinLoop_rejoins (joinable : ∀ r ∈ desired, isValidRoomId cfg r = true)
    (cap : desired.length ≤ cfg.maxRoomsPerConnection) (fresh : Fresh) (currentCount : Nat)
    (entries : List Json) (joinedRooms : List RoomId) (newlyAdded : Nat)
    (within : ∀ r ∈ m.rooms sender.connectionId, r ∈ desired)
    (names : ∀ entry ∈ entries, batchEntry entry ∈ desired)
    (count : currentCount + newlyAdded ≤ (m.rooms sender.connectionId).size)
    (covers : envelope.correlationId = some κ → ∀ r ∈ desired,
      r ∈ m.rooms sender.connectionId ∨ r ∈ entries.map batchEntry) :
    Turn desired κ sender.connectionId envelope m (batchJoinLoop cfg sender envelope currentCount
      fresh entries m joinedRooms newlyAdded) := by
  induction entries generalizing m joinedRooms newlyAdded with
  | nil =>
      have hrooms : (m.updateSeq sender.connectionId envelope).rooms = m.rooms := by
        rw [updateSeq_eq]
      rw [batchJoinLoop, batchJoinDone]
      refine ⟨?_, ?_, ?_, ?_, ?_, fun _ hnone => by cases hnone⟩
      · rw [hrooms]
        exact fun _ hr => hr
      · rw [hrooms]
        exact within
      · rw [updateSeq_suspended]
        exact fun _ hk => hk
      · rw [updateSeq_suspended]
        exact fun _ hk => Or.inl hk
      · intro hmarked _ r hr
        rw [hrooms]
        exact (covers hmarked r hr).resolve_right List.not_mem_nil
  | cons entry rest ih =>
      have hentry := names entry List.mem_cons_self
      have hvalid := joinable _ hentry
      have hrest : ∀ entry ∈ rest, batchEntry entry ∈ desired :=
        fun entry' h => names entry' (.tail _ h)
      have hroom : ¬ (batchEntry entry ∉ m.rooms sender.connectionId ∧
          currentCount + newlyAdded ≥ cfg.maxRoomsPerConnection) := by
        rintro ⟨hmissing, hfull⟩
        have hlt := size_lt_of_missing within hentry hmissing
        omega
      have hwithin : ∀ r ∈ (m.join (batchEntry entry)
          sender.connectionId).rooms sender.connectionId, r ∈ desired := by
        intro r hr
        rcases mem_join_rooms.mp hr with hold | rfl
        · exact within r hold
        · exact hentry
      have hgrows : ∀ r ∈ m.rooms sender.connectionId, r ∈ (m.join (batchEntry entry)
          sender.connectionId).rooms sender.connectionId :=
        fun r hr => mem_join_rooms.mpr (Or.inl hr)
      have hcount : currentCount + (if batchEntry entry ∉ m.rooms sender.connectionId then
          newlyAdded + 1 else newlyAdded) ≤
          ((m.join (batchEntry entry) sender.connectionId).rooms sender.connectionId).size := by
        rw [join_rooms, if_pos rfl]
        split
        · rename_i hmissing
          rw [OrderedSet.size_insert_of_not_mem hmissing]
          omega
        · rename_i hmem
          rw [OrderedSet.insert_of_mem (not_not.mp hmem)]
          exact count
      have hcovers : envelope.correlationId = some κ → ∀ r ∈ desired,
          r ∈ (m.join (batchEntry entry) sender.connectionId).rooms sender.connectionId ∨
            r ∈ rest.map batchEntry := by
        intro hmarked r hr
        rw [mem_join_rooms]
        rcases covers hmarked r hr with hold | hleft
        · exact Or.inl (Or.inl hold)
        · rw [List.map_cons, List.mem_cons] at hleft
          rcases hleft with rfl | hleft
          · exact Or.inl (Or.inr rfl)
          · exact Or.inr hleft
      simp only [batchJoinLoop, hvalid, Bool.not_true, Bool.false_eq_true, if_false, if_neg hroom]
      split
      · refine ⟨hgrows, hwithin, fun _ hk => List.mem_append_left _ hk, ?_,
          fun _ hsome => (by cases hsome), ?_⟩
        · intro k hk
          refine (List.mem_append.mp hk).imp_right fun hnew => ?_
          rw [List.mem_singleton.mp hnew]
          exact ⟨rfl, hrest, hcount, hcovers⟩
        · intro hmarked _
          exact ⟨_, List.mem_append_right _ List.mem_cons_self, rfl, hmarked⟩
      · exact Turn.start (ih _ _ hwithin hrest hcount hcovers) hgrows rfl

theorem handleRoomBatchJoin_rejoins (joinable : ∀ r ∈ desired, isValidRoomId cfg r = true)
    (cap : desired.length ≤ cfg.maxRoomsPerConnection)
    (within : ∀ r ∈ m.rooms sender.connectionId, r ∈ desired)
    (names : ∀ r ∈ batchRooms envelope, r ∈ desired)
    (covers : envelope.correlationId = some κ → ∃ rooms,
      envelope.payload.get? "rooms" = some (.arr rooms) ∧ rooms.map batchEntry = desired)
    (fresh : Fresh) :
    Turn desired κ sender.connectionId envelope m
      (handleRoomBatchJoin cfg m sender envelope fresh) := by
  rw [batchRooms] at names
  rw [handleRoomBatchJoin]
  split
  · rename_i rooms hrooms
    rw [hrooms] at names
    simp only
    split
    · rename_i hfull
      -- At the limit the connection is in all of the desired rooms already.
      have hall : Restored desired sender.connectionId m := by
        intro r hr
        by_contra hmissing
        have hlt := size_lt_of_missing within hr hmissing
        omega
      exact ⟨fun _ hr => hr, within, fun _ hk => hk, fun _ hk => Or.inl hk, fun _ _ => hall,
        fun _ hnone => by cases hnone⟩
    · refine batchJoinLoop_rejoins joinable cap fresh _ rooms [] 0 within ?_ (Nat.le_refl _) ?_
      · exact fun entry hentry => names _ (List.mem_map_of_mem hentry)
      · intro hmarked r hr
        obtain ⟨rooms', hrooms', hdesired⟩ := covers hmarked
        cases hrooms.symm.trans hrooms'
        rw [← hdesired] at hr
        exact Or.inr hr
  · rename_i hnone
    refine Turn.idle within (fun hmarked => ?_) rfl rfl
    obtain ⟨rooms, hrooms, -⟩ := covers hmarked
    exact hnone rooms hrooms

/-- A suspended handler goes on. -/
theorem continueHandler_turn (joinable : ∀ r ∈ desired, isValidRoomId cfg r = true)
    (cap : desired.length ≤ cfg.maxRoomsPerConnection) {k : Suspended}
    (within : ∀ r ∈ m.rooms k.sender.connectionId, r ∈ desired)
    (resumable : Resumable desired κ (m.rooms k.sender.connectionId) k)
    (online : Option (List UserId)) (fresh : Fresh) :
    Turn desired κ k.sender.connectionId k.envelope m
      (continueHandler cfg m online fresh k) := by
  cases k with
  | addRoomMember sender envelope roomId => exact roomJoinAdded_turn within resumable roomId fresh
  | getRoomRoster sender envelope roomId => exact .idle within resumable rfl rfl
  | batchAddRoomMember sender envelope batch =>
      obtain ⟨hnames, hcount, hcovers⟩ := resumable
      exact batchJoinLoop_rejoins joinable cap fresh _ _ _ _ within hnames hcount hcovers
  | removeRoomMember sender envelope roomId =>
      exact roomLeaveDone_turn within resumable roomId fresh

end Memberships

namespace MessageDispatcher

open Memberships

variable {desired : List RoomId} {κ : String} {n : Node} {sender : Connection}
variable {cfg : ServerConfig} {envelope : PulseEventEnvelope} {tick : Tick}

theorem runHandler_silent {result : Memberships × Option PulseEventEnvelope}
    (h : result.2 = none) : (runHandler n sender result).sockets = n.sockets := by
  rw [runHandler, h]
  rfl

/-- The handler of an accepted request. A marked one sends nothing when it is suspended. -/
theorem route_turn (joinable : ∀ r ∈ desired, isValidRoomId cfg.toConfig r = true)
    (cap : desired.length ≤ cfg.maxRoomsPerConnection)
    (within : ∀ r ∈ n.memberships.rooms sender.connectionId, r ∈ desired)
    (asks : Asks desired κ envelope) :
    ∃ reply, Turn desired κ sender.connectionId envelope n.memberships
        ((route cfg n sender envelope tick).memberships, reply) ∧
      (envelope.correlationId = some κ → reply = none →
        (route cfg n sender envelope tick).sockets = n.sockets) := by
  obtain ⟨hjoins, hbatch, hleaves⟩ := asks.spares
  have hunmarked : envelope.type ≠ .roomBatchJoin → envelope.correlationId ≠ some κ :=
    fun htype hmarked => htype (asks.marked hmarked).1
  have hturn : ∀ (reply : Option PulseEventEnvelope), envelope.type ≠ .roomBatchJoin →
      Turn desired κ sender.connectionId envelope n.memberships
        ((route cfg n sender envelope tick).memberships, reply) →
      ∃ reply, Turn desired κ sender.connectionId envelope n.memberships
          ((route cfg n sender envelope tick).memberships, reply) ∧
        (envelope.correlationId = some κ → reply = none →
          (route cfg n sender envelope tick).sockets = n.sockets) :=
    fun reply htype h => ⟨reply, h, fun hmarked => absurd hmarked (hunmarked htype)⟩
  have hidle : envelope.type ≠ .roomBatchJoin →
      (route cfg n sender envelope tick).memberships.rooms = n.memberships.rooms →
      (route cfg n sender envelope tick).memberships.suspended = n.memberships.suspended →
      ∃ reply, Turn desired κ sender.connectionId envelope n.memberships
          ((route cfg n sender envelope tick).memberships, reply) ∧
        (envelope.correlationId = some κ → reply = none →
          (route cfg n sender envelope tick).sockets = n.sockets) :=
    fun htype hrooms hsuspended => hturn none htype
      (.idle within (hunmarked htype) (by rw [hrooms]) hsuspended)
  cases htype : envelope.type with
  | roomBatchJoin =>
      have hrejoins := handleRoomBatchJoin_rejoins joinable cap within (hbatch htype)
        (fun hmarked => (asks.marked hmarked).2) tick.reply
      refine ⟨(handleRoomBatchJoin cfg.toConfig n.memberships sender envelope tick.reply).2, ?_, ?_⟩
      · simpa only [route, htype, runHandler_memberships] using hrejoins
      · intro _ hnone
        simp only [route, htype]
        exact runHandler_silent hnone
  | roomJoin =>
      refine hturn (handleRoomJoin cfg.toConfig n.memberships sender envelope tick.reply).2
        (by rw [htype]; decide) ?_
      simpa only [route, htype, runHandler_memberships] using
        handleRoomJoin_turn within (hunmarked (by rw [htype]; decide)) (hjoins htype) tick.reply
  | roomLeave =>
      refine hturn (handleRoomLeave n.memberships sender envelope tick.reply).2
        (by rw [htype]; decide) ?_
      simpa only [route, htype, runHandler_memberships] using
        handleRoomLeave_turn within (hunmarked (by rw [htype]; decide)) (hleaves htype) tick.reply
  | roomMessage =>
      by_cases member : envelope.targetRoomId.getD "" ∈ n.memberships.rooms sender.connectionId
      · obtain ⟨f, -, hf⟩ := handleRoomMessage_accepted cfg n sender envelope tick member
        refine hidle (by rw [htype]; decide) ?_ ?_
        · simp only [route, htype, hf, updateRegistry, updateSeq_eq]
        · simp only [route, htype, hf, updateRegistry, updateSeq_suspended]
      · refine hidle (by rw [htype]; decide) ?_ ?_ <;>
          simp only [route, htype, handleRoomMessage, member, not_false_eq_true, if_true,
            Node.sendReply_memberships]
  | directMessage =>
      obtain ⟨f, -, hf⟩ := handleDirectMessage_accepted cfg n sender envelope tick
      refine hidle (by rw [htype]; decide) ?_ ?_
      · simp only [route, htype, hf, updateRegistry, updateSeq_eq]
      · simp only [route, htype, hf, updateRegistry, updateSeq_suspended]
  | sysPing =>
      refine hidle (by rw [htype]; decide) ?_ ?_
      · simp only [route, htype, handlePing, Node.sendReply_memberships, updateSeq_eq]
      · simp only [route, htype, handlePing, Node.sendReply_memberships, updateSeq_suspended]
  | sysPong =>
      refine hidle (by rw [htype]; decide) ?_ ?_
      · simp only [route, htype, handlePong, updateSeq_eq]
      · simp only [route, htype, handlePong, updateSeq_suspended]
  | _ =>
      refine hidle (by rw [htype]; decide) ?_ ?_ <;> simp only [route, htype]

end MessageDispatcher

end Pulse
