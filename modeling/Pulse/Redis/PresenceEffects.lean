import Pulse.Redis.PresenceLeases
import Pulse.Redis.RosterQuery

/-!
# What a presence call leaves in Redis

Of the set of a room, one user is added or taken out by the two membership calls and is
dropped by a roster query that finds no lease; nothing else touches the sets. A lease is
stored only by the calls that name it, and a removal takes it away.
-/

namespace Pulse

open Collections Js

/-- A user id that the keys and the rosters take as it is. -/
def PlainUserId (u : UserId) : Prop := trim u = u ∧ u ≠ "" ∧ ',' ∉ u.toList

instance (u : UserId) : Decidable (PlainUserId u) :=
  inferInstanceAs (Decidable (trim u = u ∧ u ≠ "" ∧ ',' ∉ u.toList))

/-- The user and the room that a membership call names; it does nothing for blank ids. -/
def NamesMember (r : RoomId) (u : UserId) (roomId : RoomId) (userId : UserId) : Prop :=
  trim roomId = r ∧ trim userId = u ∧ r ≠ "" ∧ u ≠ ""

instance (r : RoomId) (u : UserId) (roomId : RoomId) (userId : UserId) :
    Decidable (NamesMember r u roomId userId) :=
  inferInstanceAs (Decidable (trim roomId = r ∧ trim userId = u ∧ r ≠ "" ∧ u ≠ ""))

/-- What a call makes of the membership of a user in the set of a room, if it is about that. -/
def PresenceCall.edit (r : RoomId) (u : UserId) : PresenceCall → Option Bool
  | .addRoomMember roomId userId => if NamesMember r u roomId userId then some true else none
  | .removeRoomMember roomId userId => if NamesMember r u roomId userId then some false else none
  | _ => none

/-- Whether a call writes the lease of a connection or takes it away, if it is about that. -/
def PresenceCall.leaseEdit (u : UserId) (c : ConnectionId) : PresenceCall → Option Bool
  | .registerConnection userId connectionId =>
      if userId = u ∧ connectionId = c then some true else none
  | .removeConnection userId connectionId =>
      if userId = u ∧ connectionId = c then some false else none
  | .flushLeaseRenewals active =>
      if ∃ conn ∈ active, conn.1 = u ∧ conn.2 = c then some true else none
  | _ => none

theorem PresenceCall.leaseEdit_eq_some_false_iff {u : UserId} {c : ConnectionId}
    {call : PresenceCall} : call.leaseEdit u c = some false ↔ call = .removeConnection u c := by
  cases call <;> simp [leaseEdit]

namespace PresenceStore

variable {options : PresenceManagerOptions} {s : PresenceStore} {instanceId : String}
variable {now : ℚ} {call : PresenceCall} {r : RoomId} {u : UserId}

/-- The set of a room. -/
def roomSet (s : PresenceStore) (r : RoomId) : OrderedSet UserId :=
  s.rooms (PRESENCE_ROOM_MEMBERS_PREFIX ++ r ++ ":members")

/-- The call is a roster query of the room and finds no lease of the user. -/
def Drops (s : PresenceStore) (now : ℚ) (r : RoomId) (u : UserId) (call : PresenceCall) : Prop :=
  ∃ roomId, call = .getRoomRoster roomId ∧ trim roomId = r ∧ r ≠ "" ∧ ¬ s.Leased now u

/-- Every lease of a pipeline belongs to one of its connections. -/
theorem mem_of_mapM_leaseKey {active : List (UserId × ConnectionId)}
    {leases : List (String × String)} {lease : String × String}
    (h : (active.mapM fun conn => leaseKey instanceId conn.1 conn.2) = .ok leases)
    (hmem : lease ∈ leases) :
    ∃ conn ∈ active, leaseKey instanceId conn.1 conn.2 = .ok lease := by
  induction active generalizing leases with
  | nil =>
      cases h
      cases hmem
  | cons conn active ih =>
      rw [List.mapM_cons] at h
      cases hfirst : leaseKey instanceId conn.1 conn.2 with
      | error message =>
          rw [hfirst] at h
          cases h
      | ok key =>
          cases hrest : active.mapM fun conn => leaseKey instanceId conn.1 conn.2 with
          | error message =>
              rw [hfirst, hrest] at h
              cases h
          | ok keys =>
              rw [hfirst, hrest] at h
              cases h
              obtain rfl | hlater := List.mem_cons.mp hmem
              · exact ⟨conn, List.mem_cons_self, hfirst⟩
              · obtain ⟨conn', hconn', hlease⟩ := ih hrest hlater
                exact ⟨conn', List.mem_cons_of_mem _ hconn', hlease⟩

section equations

theorem leaseKey_of_empty {userId : UserId} {connectionId : ConnectionId}
    (h : userId = "" ∨ connectionId = "") (instanceId : String) (key : String × String) :
    leaseKey instanceId userId connectionId ≠ .ok key := by
  intro hok
  have hkey := hok
  rw [leaseKey, getPresenceUserKey] at hkey
  by_cases hblank : trim userId = ""
  · rw [leaseKey_of_blank hblank] at hok
    cases hok
  · obtain rfl | rfl := h
    · exact hblank (by decide)
    · simp [if_neg hblank, formatPresenceMember, bind, Except.bind] at hkey

theorem step_registerConnection_lease (options : PresenceManagerOptions) (s : PresenceStore)
    (instanceId : String) (now : ℚ) (userId : UserId) (connectionId : ConnectionId) :
    (s.step options ⟨instanceId, now, .registerConnection userId connectionId⟩).1 = s ∨
      ∃ key, leaseKey instanceId userId connectionId = .ok key ∧
        (s.step options ⟨instanceId, now, .registerConnection userId connectionId⟩).1 =
          s.setUser key.1 (registerPresence (s.users key.1) key.2 (now + options.presenceTtlMs) now
            options.keySafeguardTtlSec).1 := by
  by_cases hempty : userId = "" ∨ connectionId = ""
  · left
    simp only [step, perform, registerConnection, if_pos hempty, Except.map]
  · cases hlease : leaseKey instanceId userId connectionId with
    | error message =>
        left
        simp only [step, perform, registerConnection, if_neg hempty, executeRegisterPresence_eq,
          hlease, Except.map]
    | ok key =>
        refine Or.inr ⟨key, rfl, ?_⟩
        simp only [step, perform, registerConnection, if_neg hempty, executeRegisterPresence_eq,
          hlease, Except.map]

theorem step_removeConnection_lease (options : PresenceManagerOptions) (s : PresenceStore)
    (instanceId : String) (now : ℚ) (userId : UserId) (connectionId : ConnectionId) :
    (∀ key, leaseKey instanceId userId connectionId ≠ .ok key) ∧
        (s.step options ⟨instanceId, now, .removeConnection userId connectionId⟩).1 = s ∨
      ∃ key, leaseKey instanceId userId connectionId = .ok key ∧
        (s.step options ⟨instanceId, now, .removeConnection userId connectionId⟩).1 =
          s.setUser key.1 (removePresence (s.users key.1) key.2 now
            options.keySafeguardTtlSec).1 := by
  by_cases hempty : userId = "" ∨ connectionId = ""
  · left
    refine ⟨leaseKey_of_empty hempty instanceId, ?_⟩
    simp only [step, perform, removeConnection, if_pos hempty, Except.map]
  · cases hlease : leaseKey instanceId userId connectionId with
    | error message =>
        left
        refine ⟨fun _ hok => (by cases hok), ?_⟩
        simp only [step, perform, removeConnection, if_neg hempty, executeRemovePresence_eq,
          hlease, Except.map]
    | ok key =>
        refine Or.inr ⟨key, rfl, ?_⟩
        simp only [step, perform, removeConnection, if_neg hempty, executeRemovePresence_eq,
          hlease, Except.map]

theorem step_flushLeaseRenewals (options : PresenceManagerOptions) (s : PresenceStore)
    (instanceId : String) (now : ℚ) (active : List (UserId × ConnectionId)) :
    (s.step options ⟨instanceId, now, .flushLeaseRenewals active⟩).1 = s ∨
      ∃ leases keys, (active.mapM fun conn => leaseKey instanceId conn.1 conn.2) = .ok leases ∧
        (s.step options ⟨instanceId, now, .flushLeaseRenewals active⟩).1 =
          (s.addLeases now (now + options.presenceTtlMs) leases).expireKeys now
            (keyDeadline now options.keySafeguardTtlSec) (OrderedSet.toList keys) := by
  by_cases hactive : active = []
  · left
    simp [step, perform, renewLeases, hactive, Except.map]
  · cases hleases : active.mapM fun conn => leaseKey instanceId conn.1 conn.2 with
    | error message =>
        left
        simp [step, perform, renewLeases, hactive, hleases, bind, Except.bind, Except.map]
    | ok leases =>
        right
        refine ⟨leases, (leases.map Prod.fst).foldl OrderedSet.insert ∅, rfl, ?_⟩
        simp only [step, perform, renewLeases, execRenewals, if_neg hactive, hleases, bind,
          Except.bind, pure, Except.pure, Except.map]

theorem step_pruneKey (options : PresenceManagerOptions) (s : PresenceStore)
    (instanceId : String) (now : ℚ) (userId : UserId)
    (h : call = .getUserConnectionCount userId ∨ call = .pruneExpired userId) :
    (s.step options ⟨instanceId, now, call⟩).1 = s ∨
      ∃ key, (s.step options ⟨instanceId, now, call⟩).1 = s.pruneKey key now := by
  cases hkey : getPresenceUserKey userId with
  | error message =>
      left
      obtain rfl | rfl := h
      · simp [step, perform, getUserConnectionCount, hkey, bind, Except.bind, Except.map]
      · simp [step, perform, pruneExpired, hkey, bind, Except.bind, Except.map]
  | ok key =>
      refine Or.inr ⟨key, ?_⟩
      obtain rfl | rfl := h
      · simp [step, perform, getUserConnectionCount, hkey, bind, Except.bind, pure, Except.pure,
          Except.map]
      · simp [step, perform, pruneExpired, hkey, bind, Except.bind, pure, Except.pure, Except.map]

theorem step_getRoomRoster (options : PresenceManagerOptions) (s : PresenceStore)
    (instanceId : String) (now : ℚ) (roomId : RoomId) :
    (s.step options ⟨instanceId, now, .getRoomRoster roomId⟩).1 =
      if trim roomId = "" then s
      else (getRoomPresenceRoster s
        (PRESENCE_ROOM_MEMBERS_PREFIX ++ trim roomId ++ ":members") now).1 := by
  by_cases hblank : trim roomId = ""
  · simp [step, perform, getRoomRoster, hblank, Except.map]
  · simp only [step, perform, getRoomRoster, if_neg hblank, executeGetRoomPresenceRoster,
      Refines.getRoomMembersKey_trim hblank, bind, Except.bind, pure, Except.pure, Except.map]

theorem step_addRoomMember (options : PresenceManagerOptions) (s : PresenceStore)
    (instanceId : String) (now : ℚ) (roomId : RoomId) (userId : UserId) :
    (s.step options ⟨instanceId, now, .addRoomMember roomId userId⟩).1 =
      if trim roomId = "" ∨ trim userId = "" then s
      else s.setRoom (PRESENCE_ROOM_MEMBERS_PREFIX ++ trim roomId ++ ":members")
        ((s.roomSet (trim roomId)).insert (trim userId)) := by
  by_cases hblank : trim roomId = "" ∨ trim userId = ""
  · simp only [step, perform, addRoomMember, if_pos hblank, Except.map]
  · simp only [step, perform, addRoomMember, if_neg hblank, bind, Except.bind, pure, Except.pure,
      Refines.getRoomMembersKey_trim (not_or.mp hblank).1, Except.map, roomSet]

theorem step_removeRoomMember (options : PresenceManagerOptions) (s : PresenceStore)
    (instanceId : String) (now : ℚ) (roomId : RoomId) (userId : UserId) :
    (s.step options ⟨instanceId, now, .removeRoomMember roomId userId⟩).1 =
      if trim roomId = "" ∨ trim userId = "" then s
      else s.setRoom (PRESENCE_ROOM_MEMBERS_PREFIX ++ trim roomId ++ ":members")
        ((s.roomSet (trim roomId)).erase (trim userId)) := by
  by_cases hblank : trim roomId = "" ∨ trim userId = ""
  · simp only [step, perform, removeRoomMember, if_pos hblank, Except.map]
  · simp only [step, perform, removeRoomMember, if_neg hblank, bind, Except.bind, pure,
      Except.pure, Refines.getRoomMembersKey_trim (not_or.mp hblank).1, Except.map, roomSet]

end equations

section rooms

/-- A call which is no edit and no roster query leaves the sets alone. -/
theorem mem_roomSet_of_rooms {s' : PresenceStore} (rooms : s'.rooms = s.rooms)
    (edit : call.edit r u = none) (other : ∀ roomId, call ≠ .getRoomRoster roomId) :
    u ∈ s'.roomSet r ↔ call.edit r u = some true ∨
      call.edit r u = none ∧ u ∈ s.roomSet r ∧ ¬ s.Drops now r u call := by
  have hkept : ¬ s.Drops now r u call := fun ⟨roomId, hcall, _⟩ => other roomId hcall
  simp [roomSet, rooms, edit, hkept]

theorem mem_setRoom_roomSet {members : OrderedSet UserId} {r' : RoomId} :
    u ∈ (s.setRoom (PRESENCE_ROOM_MEMBERS_PREFIX ++ r' ++ ":members") members).roomSet r ↔
      if r' = r then u ∈ members else u ∈ s.roomSet r := by
  by_cases hr : r' = r
  · subst hr
    simp [roomSet, setRoom]
  · have hkey : PRESENCE_ROOM_MEMBERS_PREFIX ++ r ++ ":members" ≠
        PRESENCE_ROOM_MEMBERS_PREFIX ++ r' ++ ":members" := by
      rw [ne_eq, roomMembersKey_inj]
      exact Ne.symm hr
    simp only [roomSet, setRoom, Function.update_of_ne hkey, if_neg hr]

/-- A membership call is about one user of one room. -/
theorem mem_roomSet_edit_of_ne {roomId : RoomId} {userId : UserId} {members : OrderedSet UserId}
    (others : ∀ v ≠ trim userId, v ∈ members ↔ v ∈ s.roomSet (trim roomId))
    (h : ¬ NamesMember r u roomId userId) :
    u ∈ (if trim roomId = "" ∨ trim userId = "" then s
        else s.setRoom (PRESENCE_ROOM_MEMBERS_PREFIX ++ trim roomId ++ ":members")
          members).roomSet r ↔ u ∈ s.roomSet r := by
  split
  · rfl
  · rename_i hblack
    rw [not_or] at hblack
    rw [mem_setRoom_roomSet]
    split
    · rename_i hroom
      have huser : u ≠ trim userId := by
        rintro rfl
        exact h ⟨hroom, rfl, hroom ▸ hblack.1, hblack.2⟩
      rw [others u huser, hroom]
    · rfl

/-- Who is in the set of a room behind a call. -/
theorem mem_roomSet_step (options : PresenceManagerOptions) (s : PresenceStore)
    (instanceId : String) (now : ℚ) (call : PresenceCall) :
    u ∈ (s.step options ⟨instanceId, now, call⟩).1.roomSet r ↔
      call.edit r u = some true ∨
        call.edit r u = none ∧ u ∈ s.roomSet r ∧ ¬ s.Drops now r u call := by
  cases call with
  | registerConnection userId connectionId =>
      refine mem_roomSet_of_rooms ?_ rfl fun _ hcall => (by cases hcall)
      obtain h | ⟨key, -, h⟩ :=
        step_registerConnection_lease options s instanceId now userId connectionId
      · rw [h]
      · rw [h, setUser_rooms]
  | removeConnection userId connectionId =>
      refine mem_roomSet_of_rooms ?_ rfl fun _ hcall => (by cases hcall)
      obtain ⟨-, h⟩ | ⟨key, -, h⟩ :=
        step_removeConnection_lease options s instanceId now userId connectionId
      · rw [h]
      · rw [h, setUser_rooms]
  | flushLeaseRenewals active =>
      refine mem_roomSet_of_rooms ?_ rfl fun _ hcall => (by cases hcall)
      obtain h | ⟨leases, keys, -, h⟩ :=
        step_flushLeaseRenewals options s instanceId now active
      · rw [h]
      · rw [h, expireKeys_rooms, addLeases_rooms]
  | getUserConnectionCount userId =>
      refine mem_roomSet_of_rooms ?_ rfl fun _ hcall => (by cases hcall)
      obtain h | ⟨key, h⟩ := step_pruneKey options s instanceId now userId (Or.inl rfl)
      · rw [h]
      · rw [h, pruneKey, setUser_rooms]
  | pruneExpired userId =>
      refine mem_roomSet_of_rooms ?_ rfl fun _ hcall => (by cases hcall)
      obtain h | ⟨key, h⟩ := step_pruneKey options s instanceId now userId (Or.inr rfl)
      · rw [h]
      · rw [h, pruneKey, setUser_rooms]
  | getRoomRoster roomId =>
      have hdrops : s.Drops now r u (.getRoomRoster roomId) ↔
          trim roomId = r ∧ r ≠ "" ∧ ¬ s.Leased now u := by
        simp [Drops]
      rw [step_getRoomRoster, hdrops]
      by_cases hroom : trim roomId = r ∧ r ≠ ""
      · obtain ⟨hroom, hr⟩ := hroom
        rw [if_neg (hroom ▸ hr), hroom, roomSet,
          (pruned_getRoomPresenceRoster s _ now).members u]
        simp [PresenceCall.edit, roomSet, hr]
      · have hsame : u ∈ (if trim roomId = "" then s else (getRoomPresenceRoster s
            (PRESENCE_ROOM_MEMBERS_PREFIX ++ trim roomId ++ ":members") now).1).roomSet r ↔
              u ∈ s.roomSet r := by
          split
          · rfl
          · rename_i hblack
            rw [roomSet, (pruned_getRoomPresenceRoster s _ now).otherRooms _ ?_, roomSet]
            rw [ne_eq, roomMembersKey_inj]
            rintro rfl
            exact hroom ⟨rfl, hblack⟩
        have hkept : ¬ (trim roomId = r ∧ r ≠ "" ∧ ¬ s.Leased now u) :=
          fun h => hroom ⟨h.1, h.2.1⟩
        rw [hsame]
        simp only [PresenceCall.edit, hkept, not_false_iff, and_true, true_and, reduceCtorEq,
          false_or]
  | addRoomMember roomId userId =>
      have hkept : ¬ s.Drops now r u (.addRoomMember roomId userId) := by simp [Drops]
      rw [step_addRoomMember]
      by_cases hedit : NamesMember r u roomId userId
      · obtain ⟨hroom, huser, hr, hu⟩ := id hedit
        rw [if_neg (not_or.mpr ⟨hroom ▸ hr, huser ▸ hu⟩), mem_setRoom_roomSet, if_pos hroom]
        simp [PresenceCall.edit, hedit, huser]
      · have hothers : ∀ v ≠ trim userId, v ∈ (s.roomSet (trim roomId)).insert (trim userId) ↔
            v ∈ s.roomSet (trim roomId) := fun v hv => by simp [hv]
        rw [mem_roomSet_edit_of_ne hothers hedit]
        simp [PresenceCall.edit, hedit, hkept]
  | removeRoomMember roomId userId =>
      have hkept : ¬ s.Drops now r u (.removeRoomMember roomId userId) := by simp [Drops]
      rw [step_removeRoomMember]
      by_cases hedit : NamesMember r u roomId userId
      · obtain ⟨hroom, huser, hr, hu⟩ := id hedit
        rw [if_neg (not_or.mpr ⟨hroom ▸ hr, huser ▸ hu⟩), mem_setRoom_roomSet, if_pos hroom]
        simp [PresenceCall.edit, hedit, huser]
      · have hothers : ∀ v ≠ trim userId, v ∈ (s.roomSet (trim roomId)).erase (trim userId) ↔
            v ∈ s.roomSet (trim roomId) := fun v hv => by simp [hv]
        rw [mem_roomSet_edit_of_ne hothers hedit]
        simp [PresenceCall.edit, hedit, hkept]

end rooms

section leases

variable {key member : String}

theorem holds_setUser {key' : String} {leases : SortedSet String Score}
    (h : ((s.setUser key' leases).users key).Holds member) :
    key = key' ∧ leases.Holds member ∨ key ≠ key' ∧ (s.users key).Holds member := by
  by_cases hkey : key = key'
  · subst hkey
    rw [setUser_users_self] at h
    exact Or.inl ⟨rfl, h⟩
  · rw [setUser_users_ne hkey] at h
    exact Or.inr ⟨hkey, h⟩

theorem holds_pruneKey {key' : String} (h : ((s.pruneKey key' now).users key).Holds member) :
    (s.users key).Holds member := by
  obtain ⟨rfl, h⟩ | ⟨-, h⟩ := holds_setUser h
  · exact h.of_zremrangebyscore
  · exact h

theorem holds_addLeases {expireAt : Score} {leases : List (String × String)}
    (h : ((s.addLeases now expireAt leases).users key).Holds member) :
    (s.users key).Holds member ∨ (key, member) ∈ leases := by
  induction leases generalizing s with
  | nil => exact Or.inl h
  | cons lease leases ih =>
      obtain hheld | hmem := ih h
      · obtain ⟨rfl, hzadd⟩ | ⟨-, hold⟩ := holds_setUser hheld
        · obtain rfl | hold := SortedSet.Holds.of_zadd hzadd
          · exact Or.inr List.mem_cons_self
          · exact Or.inl hold
        · exact Or.inl hold
      · exact Or.inr (List.mem_cons_of_mem _ hmem)

theorem holds_expireKeys {deadline : Score} {keys : List String}
    (h : ((s.expireKeys now deadline keys).users key).Holds member) :
    (s.users key).Holds member := by
  induction keys generalizing s with
  | nil => exact h
  | cons key' keys ih =>
      obtain ⟨rfl, hexpire⟩ | ⟨-, hold⟩ := holds_setUser (ih h)
      · exact hexpire.of_expire
      · exact hold

theorem holds_getRoomPresenceRoster {roomKey : String}
    (h : ((getRoomPresenceRoster s roomKey now).1.users key).Holds member) :
    (s.users key).Holds member := by
  obtain ⟨husers, -, -⟩ := rosterLoop now roomKey (s.rooms roomKey).nodup s []
  rw [getRoomPresenceRoster] at h
  simp only [husers] at h
  split at h
  · exact h.of_zremrangebyscore
  · exact h

theorem holds_registerPresence {leases : SortedSet String Score} {member' : String}
    {expireAt : Score} {keyTtl : Int}
    (h : (registerPresence leases member' expireAt now keyTtl).1.Holds member) :
    member = member' ∨ leases.Holds member := by
  obtain heq | hold := SortedSet.Holds.of_zadd (SortedSet.Holds.of_expire h)
  · exact Or.inl heq
  · exact Or.inr hold.of_zremrangebyscore

theorem holds_removePresence {leases : SortedSet String Score} {member' : String} {keyTtl : Int}
    (h : (removePresence leases member' now keyTtl).1.Holds member) :
    member ≠ member' ∧ leases.Holds member := by
  simp only [removePresence] at h
  split at h
  · exact SortedSet.Holds.of_zrem (SortedSet.Holds.of_zremrangebyscore h.of_expire)
  · exact absurd h (SortedSet.not_holds_empty member)

/-- A stored lease was stored before and is not the one that the call removes, or is one which
the call writes. -/
theorem holds_step (options : PresenceManagerOptions) {call : PresenceCall}
    (h : ((s.step options ⟨instanceId, now, call⟩).1.users key).Holds member) :
    ((s.users key).Holds member ∧ ∀ u c, call.leaseEdit u c = some false →
        leaseKey instanceId u c ≠ .ok (key, member)) ∨
      ∃ u c, call.leaseEdit u c = some true ∧ leaseKey instanceId u c = .ok (key, member) := by
  simp only [PresenceCall.leaseEdit_eq_some_false_iff]
  cases call with
  | registerConnection userId connectionId =>
      obtain hsame | ⟨lease, hlease, hstep⟩ :=
        step_registerConnection_lease options s instanceId now userId connectionId
      · rw [hsame] at h
        exact Or.inl ⟨h, nofun⟩
      · rw [hstep] at h
        obtain ⟨rfl, hregister⟩ | ⟨-, hold⟩ := holds_setUser h
        · obtain rfl | hold := holds_registerPresence hregister
          · exact Or.inr ⟨userId, connectionId, if_pos ⟨rfl, rfl⟩, hlease⟩
          · exact Or.inl ⟨hold, nofun⟩
        · exact Or.inl ⟨hold, nofun⟩
  | removeConnection userId connectionId =>
      left
      obtain ⟨hrefused, hsame⟩ | ⟨lease, hlease, hstep⟩ :=
        step_removeConnection_lease options s instanceId now userId connectionId
      · rw [hsame] at h
        refine ⟨h, ?_⟩
        rintro u c ⟨⟩
        exact hrefused _
      · rw [hstep] at h
        obtain ⟨rfl, hremove⟩ | ⟨hkey, hold⟩ := holds_setUser h
        · obtain ⟨hne, hold⟩ := holds_removePresence hremove
          refine ⟨hold, ?_⟩
          rintro u c ⟨⟩ hok
          rw [hlease, Except.ok.injEq] at hok
          exact hne (congrArg Prod.snd hok).symm
        · refine ⟨hold, ?_⟩
          rintro u c ⟨⟩ hok
          rw [hlease, Except.ok.injEq] at hok
          exact hkey (congrArg Prod.fst hok).symm
  | flushLeaseRenewals active =>
      obtain hsame | ⟨leases, keys, hleases, hstep⟩ :=
        step_flushLeaseRenewals options s instanceId now active
      · rw [hsame] at h
        exact Or.inl ⟨h, nofun⟩
      · rw [hstep] at h
        obtain hold | hmem := holds_addLeases (holds_expireKeys h)
        · exact Or.inl ⟨hold, nofun⟩
        · obtain ⟨conn, hconn, hlease⟩ := mem_of_mapM_leaseKey hleases hmem
          exact Or.inr ⟨conn.1, conn.2, if_pos ⟨conn, hconn, rfl, rfl⟩, hlease⟩
  | getUserConnectionCount userId =>
      left
      refine ⟨?_, nofun⟩
      obtain hsame | ⟨key', hstep⟩ := step_pruneKey options s instanceId now userId (Or.inl rfl)
      · exact hsame ▸ h
      · exact holds_pruneKey (hstep ▸ h)
  | pruneExpired userId =>
      left
      refine ⟨?_, nofun⟩
      obtain hsame | ⟨key', hstep⟩ := step_pruneKey options s instanceId now userId (Or.inr rfl)
      · exact hsame ▸ h
      · exact holds_pruneKey (hstep ▸ h)
  | getRoomRoster roomId =>
      left
      refine ⟨?_, nofun⟩
      rw [step_getRoomRoster] at h
      split at h
      · exact h
      · exact holds_getRoomPresenceRoster h
  | addRoomMember roomId userId =>
      left
      refine ⟨?_, nofun⟩
      rw [step_addRoomMember] at h
      split at h
      · exact h
      · exact h
  | removeRoomMember roomId userId =>
      left
      refine ⟨?_, nofun⟩
      rw [step_removeRoomMember] at h
      split at h
      · exact h
      · exact h

end leases

/-- What a roster says of a room whose users have ids that survive the way through one string. -/
theorem mem_getRoomRoster_iff {s' : PresenceStore} {roster : List UserId}
    (plain : ∀ v ∈ s.roomSet (trim r), PlainUserId v)
    (h : s.getRoomRoster r now = .ok (s', roster)) :
    u ∈ roster ↔ trim r ≠ "" ∧ u ∈ s.roomSet (trim r) ∧ s.Leased now u := by
  by_cases hblank : trim r = ""
  · rw [getRoomRoster, if_pos hblank] at h
    cases h
    simp [hblank]
  · have hroster : roster = (s.roomSet (trim r)).toList.filter (s.leased now) := by
      rw [getRoomRoster, if_neg hblank, executeGetRoomPresenceRoster,
        Refines.getRoomMembersKey_trim hblank] at h
      have hpair : getRoomPresenceRoster s
          (PRESENCE_ROOM_MEMBERS_PREFIX ++ trim r ++ ":members") now =
            (s', (getRoomPresenceRoster s
              (PRESENCE_ROOM_MEMBERS_PREFIX ++ trim r ++ ":members") now).2) ∧
          splitRoster (getRoomPresenceRoster s
            (PRESENCE_ROOM_MEMBERS_PREFIX ++ trim r ++ ":members") now).2 = roster := by
        cases h
        exact ⟨rfl, rfl⟩
      rw [← hpair.2, getRoomPresenceRoster_reply, splitRoster_concatRoster]
      · rfl
      · intro v hv
        exact plain v (OrderedSet.mem_def.mpr (List.mem_filter.mp hv).1)
    rw [hroster, List.mem_filter, leased_iff]
    simp [hblank, OrderedSet.mem_def]

end PresenceStore

end Pulse
