import Pulse.Core.Agreement

/-!
# Batch joins and single joins

A batch join and one join for each of its entries lead to the same memberships, on a
node without presence. They answer alike unless the cap stops the batch: a single join
of a room that was joined before is acknowledged even then, while the batch does not
get to it.
-/

namespace Pulse

open Collections Js MessageDispatcher

namespace Memberships

/-- The states agree in everything but the sequence numbers. -/
structure SameRooms (m m' : Memberships) : Prop where
  hub : m'.hub = m.hub
  rooms : m'.rooms = m.rooms
  presence : m'.presence = m.presence

/-- A connection and the room manager have the same rooms for it. -/
def Agrees (m : Memberships) (c : ConnectionId) : Prop :=
  ∀ r, r ∈ m.rooms c ↔ c ∈ m.hub.roomManager.members r

theorem SameRooms.refl (m : Memberships) : SameRooms m m := ⟨rfl, rfl, rfl⟩

theorem SameRooms.symm {m m' : Memberships} (h : SameRooms m m') : SameRooms m' m :=
  ⟨h.hub.symm, h.rooms.symm, h.presence.symm⟩

theorem SameRooms.trans {m m' m'' : Memberships} (h : SameRooms m m') (h' : SameRooms m' m'') :
    SameRooms m m'' :=
  ⟨h'.hub.trans h.hub, h'.rooms.trans h.rooms, h'.presence.trans h.presence⟩

theorem sameRooms_updateSeq (m : Memberships) (c : ConnectionId) (envelope : PulseEventEnvelope) :
    SameRooms m (m.updateSeq c envelope) := by
  rw [updateSeq_eq]
  exact ⟨rfl, rfl, rfl⟩

theorem SameRooms.join {m m' : Memberships} (h : SameRooms m m') (r : RoomId)
    (c : ConnectionId) : SameRooms (m.join r c) (m'.join r c) := by
  refine ⟨?_, ?_, h.presence⟩
  · simp only [Memberships.join, h.hub]
  · simp only [Memberships.join, h.rooms]

theorem Agrees.join {m : Memberships} {c : ConnectionId} (h : m.Agrees c) (r : RoomId) :
    (m.join r c).Agrees c := by
  intro r'
  rw [join_rooms, join_members, if_pos rfl, OrderedSet.mem_insert, h]
  by_cases hr : r' = r
  · simp [hr]
  · simp [hr]

/-- Joining a room again changes nothing. -/
theorem sameRooms_join_of_mem {m : Memberships} {c : ConnectionId} {r : RoomId}
    (agrees : m.Agrees c) (h : r ∈ m.rooms c) : SameRooms m (m.join r c) := by
  have hmember := (agrees r).mp h
  have hroom : m.hub.roomManager.rooms.get? r = some (m.hub.roomManager.members r) := by
    have hkey := RoomManager.mem_keys_of_mem_members hmember
    obtain ⟨members, hmembers⟩ :=
      Option.isSome_iff_exists.mp (OrderedMap.get?_isSome_iff.mpr hkey)
    rw [RoomManager.members, hmembers]
    rfl
  have hmanager : (m.hub.roomManager.joinRoom r c).1 = m.hub.roomManager := by
    simp only [RoomManager.joinRoom, OrderedSet.insert_of_mem hmember,
      OrderedMap.set_of_get? hroom]
  refine ⟨?_, ?_, rfl⟩
  · simp [Memberships.join, Hub.joinRoom, hmanager, hmember]
  · simp [Memberships.join, OrderedSet.insert_of_mem h]

end Memberships

namespace MessageDispatcher

open Memberships

variable {cfg : Config} {m m' : Memberships} {sender : Connection} {fresh : Fresh}

/-- A client's frame for a single join. -/
def singleJoin (entry : Json) : Json :=
  .obj [("type", .str "ROOM_JOIN"), ("target", .obj [("roomId", entry)])]

/-- The validation of such a frame, and its handler. -/
def dispatchJoin (cfg : Config) (m : Memberships) (sender : Connection) (entry : Json)
    (fresh : Fresh) : Memberships × Option PulseEventEnvelope :=
  match EventValidator.validateIncoming (some (singleJoin entry)) sender.userId fresh with
  | .ok envelope => handleRoomJoin cfg m sender envelope fresh
  | .error _ => (m, none)

/-- The reply says `JOINED`. -/
def isJoined (reply : Option PulseEventEnvelope) : Bool :=
  reply.any fun envelope =>
    EventValidator.stringOf (envelope.payload.get? "status") == some "JOINED"

/-- One join for each entry; the second part lists the rooms that were answered `JOINED`. -/
def joinEach (cfg : Config) (sender : Connection) (fresh : Nat → Fresh) :
    List Json → Memberships → List RoomId → Memberships × List RoomId
  | [], m, joined => (m, joined)
  | entry :: rest, m, joined =>
      let turn := dispatchJoin cfg m sender entry (fresh rest.length)
      joinEach cfg sender fresh rest turn.1
        (if isJoined turn.2 then joined ++ [batchEntry entry] else joined)

/-- The rooms which the answer to a batch join reports as joined: an error reports none. -/
def reportedRooms (reply : Option PulseEventEnvelope) : List Json :=
  match reply.bind fun envelope => envelope.payload.get? "joinedRooms" with
  | some (.arr rooms) => rooms
  | _ => []

/-- The rooms of a connection when it has joined the valid ones among the entries. -/
def joinAll (cfg : Config) (rooms : OrderedSet RoomId) (entries : List Json) :
    OrderedSet RoomId :=
  ((entries.map batchEntry).filter (isValidRoomId cfg)).foldl OrderedSet.insert rooms

/-- No valid entry names one of the rooms. -/
def NamesNone (cfg : Config) (rooms : OrderedSet RoomId) (entries : List Json) : Prop :=
  ∀ e ∈ entries, isValidRoomId cfg (batchEntry e) = true → batchEntry e ∉ rooms

/-- Behind the entry that would exceed the cap no room is named which the connection is in by
then. -/
def NoneBehindStop (cfg : Config) (rooms : OrderedSet RoomId) (entries : List Json) : Prop :=
  ∀ before entry behind, entries = before ++ entry :: behind →
    isValidRoomId cfg (batchEntry entry) = true →
    batchEntry entry ∉ joinAll cfg rooms before →
    (joinAll cfg rooms before).size = cfg.maxRoomsPerConnection →
    NamesNone cfg (joinAll cfg rooms before) behind

/-- A connection at the cap names none of its rooms; one below it names none behind the entry
that stops the batch. -/
def NoneBehindCap (cfg : Config) (rooms : OrderedSet RoomId) (entries : List Json) : Prop :=
  if cfg.maxRoomsPerConnection ≤ rooms.size then NamesNone cfg rooms entries
  else NoneBehindStop cfg rooms entries

theorem joinAll_cons_invalid {rooms : OrderedSet RoomId} {entry : Json}
    (invalid : isValidRoomId cfg (batchEntry entry) = false) (entries : List Json) :
    joinAll cfg rooms (entry :: entries) = joinAll cfg rooms entries := by
  simp [joinAll, invalid]

theorem joinAll_cons_valid {rooms : OrderedSet RoomId} {entry : Json}
    (valid : isValidRoomId cfg (batchEntry entry) = true) (entries : List Json) :
    joinAll cfg rooms (entry :: entries) =
      joinAll cfg (rooms.insert (batchEntry entry)) entries := by
  simp [joinAll, valid]

theorem size_le_joinAll (cfg : Config) (rooms : OrderedSet RoomId) (entries : List Json) :
    rooms.size ≤ (joinAll cfg rooms entries).size := by
  have hgrows : ∀ (names : List RoomId) (rooms : OrderedSet RoomId),
      rooms.size ≤ (names.foldl OrderedSet.insert rooms).size := by
    intro names
    induction names with
    | nil => exact fun rooms => Nat.le_refl _
    | cons r names ih =>
        intro rooms
        refine Nat.le_trans ?_ (ih (rooms.insert r))
        exact OrderedSet.size_le_of_subset fun r' hr' => OrderedSet.mem_insert.mpr (Or.inl hr')
  exact hgrows _ rooms

theorem noneBehindStop_nil (rooms : OrderedSet RoomId) : NoneBehindStop cfg rooms [] := by
  intro before entry behind hsplit
  simp at hsplit

/-- An invalid entry is skipped. -/
theorem noneBehindStop_cons_invalid {rooms : OrderedSet RoomId} {entry : Json}
    (invalid : isValidRoomId cfg (batchEntry entry) = false) (rest : List Json) :
    NoneBehindStop cfg rooms (entry :: rest) ↔ NoneBehindStop cfg rooms rest := by
  constructor
  · intro h before e behind hsplit
    have hnext := h (entry :: before) e behind (by rw [hsplit]; rfl)
    rwa [joinAll_cons_invalid invalid] at hnext
  · intro h before e behind hsplit hvalid
    cases before with
    | nil =>
        obtain ⟨rfl, rfl⟩ := List.cons.inj hsplit
        exact absurd hvalid (by simp [invalid])
    | cons first before =>
        obtain ⟨rfl, htail⟩ := List.cons.inj hsplit
        rw [joinAll_cons_invalid invalid]
        exact h before e behind htail hvalid

/-- An entry that is joined counts from then on. -/
theorem noneBehindStop_cons_joined {rooms : OrderedSet RoomId} {entry : Json}
    (valid : isValidRoomId cfg (batchEntry entry) = true)
    (joins : batchEntry entry ∈ rooms ∨ rooms.size < cfg.maxRoomsPerConnection)
    (rest : List Json) :
    NoneBehindStop cfg rooms (entry :: rest) ↔
      NoneBehindStop cfg (rooms.insert (batchEntry entry)) rest := by
  constructor
  · intro h before e behind hsplit
    have hnext := h (entry :: before) e behind (by rw [hsplit]; rfl)
    rwa [joinAll_cons_valid valid] at hnext
  · intro h before e behind hsplit hvalid
    cases before with
    | nil =>
        obtain ⟨rfl, rfl⟩ := List.cons.inj hsplit
        intro hnew hsize
        have hlt : rooms.size < cfg.maxRoomsPerConnection := joins.resolve_left hnew
        have hsize : rooms.size = cfg.maxRoomsPerConnection := hsize
        omega
    | cons first before =>
        obtain ⟨rfl, htail⟩ := List.cons.inj hsplit
        rw [joinAll_cons_valid valid]
        exact h before e behind htail hvalid

/-- An entry that would exceed the cap is the one which stops the batch. -/
theorem noneBehindStop_cons_stop {rooms : OrderedSet RoomId} {entry : Json}
    (valid : isValidRoomId cfg (batchEntry entry) = true) (fresh : batchEntry entry ∉ rooms)
    (atCap : rooms.size = cfg.maxRoomsPerConnection) (rest : List Json) :
    NoneBehindStop cfg rooms (entry :: rest) ↔ NamesNone cfg rooms rest := by
  constructor
  · intro h
    exact h [] entry rest rfl valid fresh atCap
  · intro h before e behind hsplit hvalid hnew hsize
    cases before with
    | nil =>
        obtain ⟨rfl, rfl⟩ := List.cons.inj hsplit
        exact h
    | cons first before =>
        obtain ⟨rfl, -⟩ := List.cons.inj hsplit
        -- The rooms joined by then would include the entry, and so exceed the cap.
        rw [joinAll_cons_valid valid] at hsize
        have hgrown : (rooms.insert (batchEntry entry)).size = rooms.size + 1 :=
          OrderedSet.size_insert_of_not_mem fresh
        have hle := size_le_joinAll cfg (rooms.insert (batchEntry entry)) before
        omega

/-- A named room passes the validation of a single join, under its trimmed name. -/
theorem validate_singleJoin {entry : Json} (named : EventValidator.isNonBlankString entry = true)
    (senderId : String) (fresh : Fresh) :
    ∃ envelope, EventValidator.validateIncoming (some (singleJoin entry)) senderId fresh =
      .ok envelope ∧ envelope.targetRoomId = some (batchEntry entry) := by
  cases entry with
  | str s =>
      have hne : (trim s == "") = false := by
        simpa [EventValidator.isNonBlankString] using named
      have hjoin : EventType.ofText? "ROOM_JOIN" = some .roomJoin :=
        EventType.ofText?_text .roomJoin
      refine ⟨
        { eventId := fresh.eventId
          type := .roomJoin
          timestamp := .ofInt fresh.now
          senderId
          target := some { roomId := some (trim s) }
          payload := []
          ackRequired := some false }, ?_, rfl⟩
      simp [EventValidator.validateIncoming, singleJoin, EventValidator.stringOf, hjoin,
        EventValidator.validateObject, EventValidator.parseSeq, EventValidator.parseTarget,
        EventValidator.objectOf, EventValidator.isMissing, hne,
        EventValidator.checkRequirements, EventValidator.parseOriginInstanceId,
        EventValidator.parseOriginTimestampMs, bind, Except.bind, pure, Except.pure]
  | _ => cases named

theorem dispatchJoin_valid {entry : Json} {fresh : Fresh} {envelope : PulseEventEnvelope}
    (valid : EventValidator.validateIncoming (some (singleJoin entry)) sender.userId fresh =
      .ok envelope) :
    dispatchJoin cfg m sender entry fresh = handleRoomJoin cfg m sender envelope fresh := by
  delta dispatchJoin
  rw [valid]

/-- A single join which is answered `JOINED`. -/
theorem dispatchJoin_joined (fresh : Fresh) {entry : Json} (absent : m.presence = false)
    (named : EventValidator.isNonBlankString entry = true)
    (valid : isValidRoomId cfg (batchEntry entry) = true)
    (joins : batchEntry entry ∈ m.rooms sender.connectionId ∨
      (m.rooms sender.connectionId).size < cfg.maxRoomsPerConnection) :
    SameRooms (m.join (batchEntry entry) sender.connectionId)
        (dispatchJoin cfg m sender entry fresh).1 ∧
      isJoined (dispatchJoin cfg m sender entry fresh).2 = true := by
  obtain ⟨envelope, hvalid, htarget⟩ := validate_singleJoin named sender.userId fresh
  have hreports :
      ((m.join (batchEntry entry) sender.connectionId).reportsPresence sender) = false := by
    simp [reportsPresence, Memberships.join, absent]
  have hbelow : ¬ (batchEntry entry ∉ m.rooms sender.connectionId ∧
      (m.rooms sender.connectionId).size ≥ cfg.maxRoomsPerConnection) := by
    rintro ⟨hnew, hfull⟩
    rcases joins with hmem | hlt
    · exact hnew hmem
    · omega
  have habsent : ((m.join (batchEntry entry) sender.connectionId).updateSeq
      sender.connectionId envelope).presence = false := by
    rw [(sameRooms_updateSeq _ _ _).presence]
    exact absent
  rw [dispatchJoin_valid hvalid]
  simp only [handleRoomJoin, htarget, Option.getD_some, valid, Bool.not_true,
    Bool.false_eq_true, if_false, if_neg hbelow, hreports, roomJoinAdded, habsent]
  exact ⟨sameRooms_updateSeq _ _ _, rfl⟩

/-- A single join which is refused changes nothing. -/
theorem dispatchJoin_refused (fresh : Fresh) {entry : Json}
    (named : EventValidator.isNonBlankString entry = true)
    (refused : isValidRoomId cfg (batchEntry entry) = false ∨
      batchEntry entry ∉ m.rooms sender.connectionId ∧
        cfg.maxRoomsPerConnection ≤ (m.rooms sender.connectionId).size) :
    (dispatchJoin cfg m sender entry fresh).1 = m ∧
      isJoined (dispatchJoin cfg m sender entry fresh).2 = false := by
  obtain ⟨envelope, hvalid, htarget⟩ := validate_singleJoin named sender.userId fresh
  rw [dispatchJoin_valid hvalid]
  simp only [handleRoomJoin, htarget, Option.getD_some]
  by_cases hroom : isValidRoomId cfg (batchEntry entry) = true
  · have hfull := refused.resolve_left (by simp [hroom])
    simp only [hroom, Bool.not_true, Bool.false_eq_true, if_false, if_pos hfull]
    exact ⟨trivial, rfl⟩
  · simp only [hroom, Bool.not_false, if_true]
    exact ⟨trivial, rfl⟩

/-- The valid entries that name one of the rooms. -/
def namesAmong (cfg : Config) (rooms : OrderedSet RoomId) (entries : List Json) : List RoomId :=
  (entries.map batchEntry).filter fun r => isValidRoomId cfg r && decide (r ∈ rooms)

theorem namesAmong_eq_nil {rooms : OrderedSet RoomId} {entries : List Json} :
    namesAmong cfg rooms entries = [] ↔ NamesNone cfg rooms entries := by
  simp only [namesAmong, NamesNone, List.filter_eq_nil_iff, List.forall_mem_map, Bool.and_eq_true,
    decide_eq_true_eq, not_and]

/-- At the cap, single joins change nothing, and those of the connection's rooms are answered
`JOINED`. -/
theorem joinEach_full (fresh : Nat → Fresh) {entries : List Json} (joined : List RoomId)
    (same : SameRooms m m') (agrees : m.Agrees sender.connectionId) (absent : m.presence = false)
    (named : ∀ e ∈ entries, EventValidator.isNonBlankString e = true)
    (full : cfg.maxRoomsPerConnection ≤ (m.rooms sender.connectionId).size) :
    SameRooms m (joinEach cfg sender fresh entries m' joined).1 ∧
      (joinEach cfg sender fresh entries m' joined).2 =
        joined ++ namesAmong cfg (m.rooms sender.connectionId) entries := by
  induction entries generalizing m' joined with
  | nil => exact ⟨same, by simp [joinEach, namesAmong]⟩
  | cons entry rest ih =>
      obtain ⟨hentry, hrest⟩ := List.forall_mem_cons.mp named
      have habsent : m'.presence = false := same.presence.trans absent
      have hrooms : m'.rooms = m.rooms := same.rooms
      rw [joinEach]
      by_cases hjoins : isValidRoomId cfg (batchEntry entry) = true ∧
          batchEntry entry ∈ m.rooms sender.connectionId
      · obtain ⟨hvalid, hmem⟩ := hjoins
        obtain ⟨hsame, hanswer⟩ := dispatchJoin_joined (fresh rest.length) habsent hentry hvalid
          (Or.inl (hrooms ▸ hmem))
        have hagain := (sameRooms_join_of_mem agrees hmem).trans
          ((same.join (batchEntry entry) sender.connectionId).trans hsame)
        obtain ⟨hlast, hanswers⟩ := ih _ hagain hrest
        refine ⟨hlast, hanswers.trans ?_⟩
        simp [hanswer, namesAmong, hvalid, hmem]
      · have hrefused : isValidRoomId cfg (batchEntry entry) = false ∨
            batchEntry entry ∉ m'.rooms sender.connectionId ∧
              cfg.maxRoomsPerConnection ≤ (m'.rooms sender.connectionId).size := by
          rw [hrooms]
          by_cases hvalid : isValidRoomId cfg (batchEntry entry) = true
          · exact Or.inr ⟨fun hmem => hjoins ⟨hvalid, hmem⟩, full⟩
          · exact Or.inl (by simpa using hvalid)
        obtain ⟨hstays, hanswer⟩ := dispatchJoin_refused (fresh rest.length) hentry
          hrefused
        obtain ⟨hlast, hanswers⟩ := ih _ (hstays ▸ same) hrest
        refine ⟨hlast, hanswers.trans ?_⟩
        have hskip : (isValidRoomId cfg (batchEntry entry) &&
            decide (batchEntry entry ∈ m.rooms sender.connectionId)) = false := by
          simpa using hjoins
        simp [hanswer, namesAmong, hskip]

@[simp] theorem reportedRooms_batchJoinDone (m : Memberships) (sender : Connection)
    (envelope : PulseEventEnvelope) (joined : List RoomId) (fresh : Fresh) :
    reportedRooms (batchJoinDone m sender envelope joined fresh).2 = joined.map .str := rfl

/-- The loop of a batch join against the single joins of its entries, from states with the same
rooms. `newlyAdded` counts what the loop has added, so its cap test is that of a single join. -/
theorem batchJoinLoop_agrees {envelope : PulseEventEnvelope} (fresh : Nat → Fresh) {reply : Fresh}
    {currentCount : Nat} {entries : List Json} {joined : List RoomId} {newlyAdded : Nat}
    (same : SameRooms m m') (agrees : m.Agrees sender.connectionId) (absent : m.presence = false)
    (named : ∀ e ∈ entries, EventValidator.isNonBlankString e = true)
    (count : (m.rooms sender.connectionId).size = currentCount + newlyAdded)
    (capped : (m.rooms sender.connectionId).size ≤ cfg.maxRoomsPerConnection) :
    let batch := batchJoinLoop cfg sender envelope currentCount reply entries m joined newlyAdded
    let singles := joinEach cfg sender fresh entries m' joined
    SameRooms batch.1 singles.1 ∧
      (reportedRooms batch.2 = singles.2.map .str ↔
        NoneBehindStop cfg (m.rooms sender.connectionId) entries) := by
  induction entries generalizing m m' joined newlyAdded with
  | nil =>
      refine ⟨(sameRooms_updateSeq m _ _).symm.trans same, ?_⟩
      simp [batchJoinLoop, joinEach, noneBehindStop_nil]
  | cons entry rest ih =>
      obtain ⟨hentry, hrest⟩ := List.forall_mem_cons.mp named
      have habsent : m'.presence = false := same.presence.trans absent
      have hrooms : m'.rooms = m.rooms := same.rooms
      simp only [batchJoinLoop, joinEach]
      by_cases hvalid : isValidRoomId cfg (batchEntry entry) = true
      · simp only [hvalid, Bool.not_true, Bool.false_eq_true, if_false]
        by_cases hstop : batchEntry entry ∉ m.rooms sender.connectionId ∧
            currentCount + newlyAdded ≥ cfg.maxRoomsPerConnection
        · -- The batch ends here, the single joins go on at the cap.
          obtain ⟨hnew, hge⟩ := hstop
          have hfull : (m.rooms sender.connectionId).size = cfg.maxRoomsPerConnection := by omega
          obtain ⟨hstays, hanswer⟩ := dispatchJoin_refused (fresh rest.length) hentry
            (Or.inr ⟨hrooms ▸ hnew, hrooms ▸ hfull.ge⟩)
          obtain ⟨hlast, hanswers⟩ := joinEach_full fresh joined same agrees
            absent hrest hfull.ge
          rw [if_pos ⟨hnew, hge⟩, hstays, hanswer, if_neg Bool.false_ne_true]
          refine ⟨(sameRooms_updateSeq m _ _).symm.trans hlast, ?_⟩
          rw [reportedRooms_batchJoinDone, hanswers, List.map_append, List.self_eq_append_right,
            List.map_eq_nil_iff, namesAmong_eq_nil, noneBehindStop_cons_stop hvalid hnew hfull]
        · have hjoins : batchEntry entry ∈ m.rooms sender.connectionId ∨
              (m.rooms sender.connectionId).size < cfg.maxRoomsPerConnection := by
            by_cases hmem : batchEntry entry ∈ m.rooms sender.connectionId
            · exact Or.inl hmem
            · have hlt : ¬ currentCount + newlyAdded ≥ cfg.maxRoomsPerConnection :=
                fun hge => hstop ⟨hmem, hge⟩
              exact Or.inr (by omega)
          have hreports : ((m.join (batchEntry entry) sender.connectionId).reportsPresence
              sender) = false := by
            simp [reportsPresence, Memberships.join, absent]
          obtain ⟨hsame, hanswer⟩ := dispatchJoin_joined (fresh rest.length) habsent
            hentry hvalid (hrooms ▸ hjoins)
          have hnext := (same.join (batchEntry entry) sender.connectionId).trans hsame
          have hinsert : (m.join (batchEntry entry) sender.connectionId).rooms
              sender.connectionId = (m.rooms sender.connectionId).insert (batchEntry entry) := by
            rw [join_rooms, if_pos rfl]
          rw [if_neg hstop, hreports, if_neg Bool.false_ne_true, hanswer, if_pos rfl,
            noneBehindStop_cons_joined hvalid hjoins, ← hinsert]
          refine ih hnext (agrees.join _) absent hrest ?_ ?_
          · rw [hinsert]
            by_cases hmem : batchEntry entry ∈ m.rooms sender.connectionId
            · rw [OrderedSet.insert_of_mem hmem, if_neg (not_not.mpr hmem), count]
            · rw [OrderedSet.size_insert_of_not_mem hmem, if_pos hmem, count, Nat.add_assoc]
          · rw [hinsert]
            by_cases hmem : batchEntry entry ∈ m.rooms sender.connectionId
            · rw [OrderedSet.insert_of_mem hmem]
              exact capped
            · rw [OrderedSet.size_insert_of_not_mem hmem]
              exact hjoins.resolve_left hmem
      · obtain ⟨hstays, hanswer⟩ := dispatchJoin_refused (m := m') (fresh rest.length) hentry
          (Or.inl (by simpa using hvalid))
        simp only [hvalid, Bool.not_false, if_true]
        rw [hstays, hanswer, if_neg Bool.false_ne_true,
          noneBehindStop_cons_invalid (by simpa using hvalid)]
        exact ih same agrees absent hrest count capped

/-- What a batch join comes to on a connection below the cap and on a full one. -/
theorem handleRoomBatchJoin_agrees (cfg : Config) (fresh : Nat → Fresh) (reply : Fresh)
    {raw : Option Json} {frame : Fresh} {envelope : PulseEventEnvelope} (wf : m.WellFormed)
    (registered : sender.connectionId ∈ m.hub.connectionManager.connections.keys)
    (absent : m.presence = false)
    (valid : EventValidator.validateIncoming raw sender.userId frame = .ok envelope)
    (isBatch : envelope.type = .roomBatchJoin) :
    let batch := handleRoomBatchJoin cfg m sender envelope reply
    let singles := joinEach cfg sender fresh (namedRooms envelope) m []
    SameRooms batch.1 singles.1 ∧
      (reportedRooms batch.2 = singles.2.map .str ↔
        NoneBehindCap cfg (m.rooms sender.connectionId) (namedRooms envelope)) := by
  obtain ⟨rooms, hrooms, hnamed⟩ := EventValidator.validateIncoming_rooms valid isBatch
  have hagrees : m.Agrees sender.connectionId := wf.agree _ registered
  simp only [handleRoomBatchJoin, namedRooms, hrooms, NoneBehindCap]
  by_cases hfull : cfg.maxRoomsPerConnection ≤ (m.rooms sender.connectionId).size
  · obtain ⟨hlast, hanswers⟩ := joinEach_full fresh [] (.refl m) hagrees absent hnamed
      hfull
    rw [if_pos hfull, if_pos hfull]
    refine ⟨hlast, ?_⟩
    have herror : reportedRooms (some (errorReply envelope none "MAX_ROOMS_EXCEEDED"
        (maxRoomsMessage cfg) reply)) = [] := rfl
    rw [herror, hanswers, List.nil_append, List.nil_eq, List.map_eq_nil_iff, namesAmong_eq_nil]
  · rw [if_neg hfull, if_neg hfull]
    exact batchJoinLoop_agrees fresh (.refl m) hagrees absent hnamed rfl (by omega)

/-- A batch join and the single joins of its entries lead to the same memberships; the answer
reports exactly the entries that would have been answered `JOINED` if and only if none of the
connection's rooms is named where the cap has stopped the batch. -/
theorem batch_join_agrees_iff (cfg : Config) (fresh : Nat → Fresh) (reply : Fresh)
    {raw : Option Json} {frame : Fresh} {envelope : PulseEventEnvelope} (wf : m.WellFormed)
    (registered : sender.connectionId ∈ m.hub.connectionManager.connections.keys)
    (absent : m.presence = false)
    (valid : EventValidator.validateIncoming raw sender.userId frame = .ok envelope)
    (isBatch : envelope.type = .roomBatchJoin) :
    let batch := handleRoomBatchJoin cfg m sender envelope reply
    let singles := joinEach cfg sender fresh (namedRooms envelope) m []
    (SameRooms batch.1 singles.1 ∧ reportedRooms batch.2 = singles.2.map .str) ↔
      NoneBehindCap cfg (m.rooms sender.connectionId) (namedRooms envelope) := by
  obtain ⟨hsame, hreported⟩ := handleRoomBatchJoin_agrees cfg fresh reply wf registered absent
    valid isBatch
  exact ⟨fun h => hreported.mp h.2, fun h => ⟨hsame, hreported.mpr h⟩⟩

/-- One connection, in room `a`. -/
def inRoomA : Memberships :=
  ((Node.initial none false).memberships.connect
    { connectionId := "c", userId := "u" }).join "a" "c"

theorem inRoomA_wellFormed : inRoomA.WellFormed :=
  ((Node.wellFormed_initial none false).connect (OrderedSet.not_mem_empty _)).join
    (OrderedSet.mem_insert.mpr (Or.inr rfl)) "a"

/-- A batch that stays within the cap: it joins `b`, and `a` again. -/
theorem batch_join_agrees_within_cap :
    let cfg : Config := { instanceId := "pulse-node-1" }
    let sender : Connection := { connectionId := "c", userId := "u" }
    ∃ envelope, EventValidator.validateIncoming (some (Node.batchJoinFrame ["b", "a"])) "u"
        ⟨0, "f"⟩ = .ok envelope ∧
      SameRooms (handleRoomBatchJoin cfg inRoomA sender envelope ⟨0, "r"⟩).1
          (joinEach cfg sender (fun _ => ⟨0, "s"⟩) (namedRooms envelope) inRoomA []).1 ∧
        reportedRooms (handleRoomBatchJoin cfg inRoomA sender envelope ⟨0, "r"⟩).2 =
          (joinEach cfg sender (fun _ => ⟨0, "s"⟩) (namedRooms envelope) inRoomA []).2.map
            .str := by
  intro cfg sender
  have hvalid : EventValidator.validateIncoming (some (Node.batchJoinFrame ["b", "a"]))
      sender.userId ⟨0, "f"⟩ = .ok _ := rfl
  have hregistered : sender.connectionId ∈ inRoomA.hub.connectionManager.connections.keys := by
    decide +kernel
  refine ⟨_, hvalid, ?_⟩
  refine (batch_join_agrees_iff cfg (fun _ => ⟨0, "s"⟩) ⟨0, "r"⟩ inRoomA_wellFormed hregistered
    rfl hvalid rfl).mpr ?_
  show NoneBehindCap cfg (inRoomA.rooms "c") [.str "b", .str "a"]
  rw [NoneBehindCap, if_neg (by decide +kernel),
    noneBehindStop_cons_joined (by decide +kernel) (Or.inr (by decide +kernel)),
    noneBehindStop_cons_joined (by decide +kernel) (Or.inr (by decide +kernel))]
  exact noneBehindStop_nil _

/-- With a cap of one, a connection in `a` is acknowledged a join of `a`, and refused a batch
join of it. -/
theorem full_batch_join_reports_nothing :
    ¬ ∀ (cfg : Config) (m : Memberships) (sender : Connection) (fresh : Nat → Fresh)
      (raw : Option Json) (frame reply : Fresh) (envelope : PulseEventEnvelope),
      m.WellFormed → sender.connectionId ∈ m.hub.connectionManager.connections.keys →
      m.presence = false →
      EventValidator.validateIncoming raw sender.userId frame = .ok envelope →
      envelope.type = .roomBatchJoin →
      SameRooms (handleRoomBatchJoin cfg m sender envelope reply).1
          (joinEach cfg sender fresh (namedRooms envelope) m []).1 ∧
        reportedRooms (handleRoomBatchJoin cfg m sender envelope reply).2 =
          (joinEach cfg sender fresh (namedRooms envelope) m []).2.map .str := by
  intro h
  let cfg : Config := { instanceId := "pulse-node-1", maxRoomsPerConnection := 1 }
  let sender : Connection := { connectionId := "c", userId := "u" }
  have hanswers := (h cfg inRoomA sender (fun _ => ⟨0, "s"⟩) (some (Node.batchJoinFrame ["a"]))
    ⟨0, "f"⟩ ⟨0, "r"⟩ _ inRoomA_wellFormed (by decide +kernel) rfl rfl rfl).2
  have hcount := congrArg List.length hanswers
  revert hcount
  decide +kernel

end MessageDispatcher

end Pulse
