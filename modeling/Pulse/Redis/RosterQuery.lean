import Pulse.Collections.Delimiter
import Pulse.Redis.PresenceLuaScripts

/-!
# Roster query

The loop of the roster script prunes the leases of every member of a room and drops the
members without any. The members it keeps reach the caller in one string, which is
split at its commas: ids that contain one arrive in pieces.
-/

namespace Pulse

open Collections Js

namespace PresenceStore

variable {s s' : PresenceStore} {now : ℚ} {roomKey : String}

/-- The user has a lease that expires after `now`. -/
def Leased (s : PresenceStore) (now : ℚ) (userId : UserId) : Prop :=
  ∃ member expireAt, (s.users (PRESENCE_USER_KEY_PREFIX ++ userId)).score? now member =
    some expireAt ∧ (now : Score) < expireAt

/-- The test of the script: some lease is left when the expired ones are pruned. -/
def leased (s : PresenceStore) (now : ℚ) (userId : UserId) : Bool :=
  decide (((s.users (PRESENCE_USER_KEY_PREFIX ++ userId)).zremrangebyscore now now).zcard now > 0)

theorem leased_iff {userId : UserId} : s.leased now userId = true ↔ s.Leased now userId := by
  rw [leased, decide_eq_true_eq, gt_iff_lt, Nat.pos_iff_ne_zero, ne_eq,
    SortedSet.zcard_eq_zero_iff, not_forall, Leased]
  refine exists_congr fun member => ?_
  rw [SortedSet.score?_zremrangebyscore le_rfl, ← ne_eq, Option.ne_none_iff_exists']
  exact exists_congr fun expireAt => SortedSet.filter_lt_eq_some

/-- What the query does to the keys: the members without a lease leave the room, and of the users'
keys only expired leases of members are gone. -/
structure Pruned (s s' : PresenceStore) (now : ℚ) (roomKey : String) : Prop where
  members : ∀ u, u ∈ s'.rooms roomKey ↔ u ∈ s.rooms roomKey ∧ s.Leased now u
  leases : ∀ (key : String) (t : Score), (now : Score) ≤ t → ∀ member expireAt,
    (now : Score) < expireAt →
      ((s'.users key).score? t member = some expireAt ↔
        (s.users key).score? t member = some expireAt)
  otherRooms : ∀ key, key ≠ roomKey → s'.rooms key = s.rooms key
  otherUsers : ∀ key, (∀ u ∈ s.rooms roomKey, key ≠ PRESENCE_USER_KEY_PREFIX ++ u) →
    s'.users key = s.users key

/-- The roster has exactly the members with a lease, each once. -/
structure Lists (s : PresenceStore) (now : ℚ) (roomKey : String) (roster : List UserId) : Prop where
  nodup : roster.Nodup
  mem_iff : ∀ u, u ∈ roster ↔ u ∈ s.rooms roomKey ∧ s.Leased now u

end PresenceStore

section turns

variable {s : PresenceStore} {now : ℚ} {roomKey : String}

open PresenceStore

theorem rosterTurn_users (acc : PresenceStore × List UserId) (u : UserId) :
    (rosterTurn now roomKey acc u).1.users = Function.update acc.1.users
      (PRESENCE_USER_KEY_PREFIX ++ u)
      ((acc.1.users (PRESENCE_USER_KEY_PREFIX ++ u)).zremrangebyscore now now) := by
  simp only [rosterTurn]
  split <;> rfl

theorem rosterTurn_rooms (acc : PresenceStore × List UserId) (u : UserId) :
    (rosterTurn now roomKey acc u).1.rooms =
      if acc.1.leased now u then acc.1.rooms
      else Function.update acc.1.rooms roomKey ((acc.1.rooms roomKey).erase u) := by
  simp only [rosterTurn, setUser, leased, decide_eq_true_eq]
  split <;> rfl

theorem rosterTurn_found (acc : PresenceStore × List UserId) (u : UserId) :
    (rosterTurn now roomKey acc u).2 =
      if acc.1.leased now u then acc.2 ++ [u] else acc.2 := by
  simp only [rosterTurn, setUser, leased, decide_eq_true_eq]
  split <;> rfl

/-- A turn does not touch the leases of other users. -/
theorem leased_rosterTurn (acc : PresenceStore × List UserId) {u u' : UserId} (h : u' ≠ u) :
    (rosterTurn now roomKey acc u).1.leased now u' = acc.1.leased now u' := by
  have hkey : PRESENCE_USER_KEY_PREFIX ++ u' ≠ PRESENCE_USER_KEY_PREFIX ++ u := by simpa using h
  rw [leased, leased, rosterTurn_users, Function.update_of_ne hkey]

/-- The whole loop: each user's key is pruned once, and each member is kept or dropped for the
leases it had at the start. -/
theorem rosterLoop (now : ℚ) (roomKey : String) {members : List UserId} (nodup : members.Nodup)
    (s : PresenceStore) (found : List UserId) :
    (∀ key, (members.foldl (rosterTurn now roomKey) (s, found)).1.users key =
        if key ∈ members.map (PRESENCE_USER_KEY_PREFIX ++ ·) then
          (s.users key).zremrangebyscore now now
        else s.users key) ∧
      (members.foldl (rosterTurn now roomKey) (s, found)).2 =
        found ++ members.filter (s.leased now) ∧
      (members.foldl (rosterTurn now roomKey) (s, found)).1.rooms =
        Function.update s.rooms roomKey
          ((s.rooms roomKey).filter fun u => decide (u ∉ members) || s.leased now u) := by
  induction members generalizing s found with
  | nil =>
      refine ⟨fun key => by simp, by simp, ?_⟩
      rw [OrderedSet.filter_eq_self (by simp), Function.update_eq_self]
      rfl
  | cons v members ih =>
      obtain ⟨hv, hrest⟩ := List.nodup_cons.mp nodup
      have hne : ∀ u ∈ members, u ≠ v := fun u hu heq => hv (heq ▸ hu)
      have hleased : ∀ u ∈ members, (rosterTurn now roomKey (s, found) v).1.leased now u =
          s.leased now u := fun u hu => leased_rosterTurn (s, found) (hne u hu)
      obtain ⟨husers, hfound, hrooms⟩ := ih hrest (rosterTurn now roomKey (s, found) v).1
        (rosterTurn now roomKey (s, found) v).2
      rw [List.foldl_cons]
      refine ⟨fun key => ?_, ?_, ?_⟩
      · rw [husers, rosterTurn_users]
        by_cases hkey : key = PRESENCE_USER_KEY_PREFIX ++ v
        · subst hkey
          simp [hv]
        · simp [hkey]
      · rw [hfound, rosterTurn_found, List.filter_congr hleased]
        by_cases h : s.leased now v = true <;> simp [h]
      · rw [hrooms, rosterTurn_rooms]
        by_cases h : s.leased now v = true
        · rw [if_pos h]
          congr 1
          refine OrderedSet.filter_congr fun u _ => ?_
          by_cases hu : u = v
          · simp [hu, hv, h]
          · rw [leased_rosterTurn (s, found) hu]
            simp [hu]
        · rw [if_neg h, Function.update_idem, Function.update_self, OrderedSet.erase_eq_filter,
            OrderedSet.filter_filter]
          congr 1
          refine OrderedSet.filter_congr fun u _ => ?_
          by_cases hu : u = v
          · simp [hu, hv, h]
          · rw [leased_rosterTurn (s, found) hu]
            simp [hu]

end turns

section query

variable {s : PresenceStore} {now : ℚ}

open PresenceStore

theorem getRoomPresenceRoster_reply (s : PresenceStore) (roomKey : String) (now : ℚ) :
    (getRoomPresenceRoster s roomKey now).2 =
      concatRoster ((s.rooms roomKey).toList.filter (s.leased now)) := by
  obtain ⟨-, hfound, -⟩ := rosterLoop now roomKey (s.rooms roomKey).nodup s []
  rw [getRoomPresenceRoster]
  exact congrArg concatRoster (hfound.trans (List.nil_append _))

/-- The keys are pruned as they should be, whatever the ids of the members are. -/
theorem pruned_getRoomPresenceRoster (s : PresenceStore) (roomKey : String) (now : ℚ) :
    Pruned s (getRoomPresenceRoster s roomKey now).1 now roomKey := by
  obtain ⟨husers, -, hrooms⟩ := rosterLoop now roomKey (s.rooms roomKey).nodup s []
  constructor
  case members =>
    intro u
    rw [getRoomPresenceRoster]
    simp only [hrooms]
    rw [Function.update_self, OrderedSet.mem_filter]
    refine and_congr_right fun hu => ?_
    rw [← leased_iff, decide_eq_false (not_not_intro (OrderedSet.mem_def.mp hu)), Bool.false_or]
  case leases =>
    intro key t ht member expireAt halive
    rw [getRoomPresenceRoster]
    simp only [husers]
    split
    · rw [SortedSet.score?_zremrangebyscore ht, SortedSet.filter_lt_eq_some, and_iff_left halive]
    · rfl
  case otherRooms =>
    intro key hkey
    rw [getRoomPresenceRoster]
    simp only [hrooms]
    rw [Function.update_of_ne hkey]
  case otherUsers =>
    intro key hkey
    rw [getRoomPresenceRoster]
    simp only [husers]
    refine if_neg fun hmem => ?_
    obtain ⟨u, hu, heq⟩ := List.mem_map.mp hmem
    exact hkey u hu heq.symm

theorem comma_not_mem_of_mem_splitRoster {result : String} {u : UserId}
    (h : u ∈ splitRoster result) : ',' ∉ u.toList := by
  rw [splitRoster] at h
  split at h
  · simp at h
  · obtain ⟨hu, -⟩ := List.mem_filter.mp h
    obtain ⟨l, hl, rfl⟩ := List.mem_map.mp hu
    rw [String.toList_ofList]
    exact not_mem_of_mem_splitOn hl

/-- The query is exact when and only when no member with a lease has a comma in its id. -/
theorem roster_query_exact_iff (s : PresenceStore) (now : ℚ) {roomId : RoomId}
    (named : trim roomId ≠ "")
    (clean : ∀ u ∈ s.rooms (PRESENCE_ROOM_MEMBERS_PREFIX ++ trim roomId ++ ":members"),
      trim u = u ∧ u ≠ "") :
    (∃ s' roster, executeGetRoomPresenceRoster s roomId now = .ok (s', roster) ∧
        Lists s now (PRESENCE_ROOM_MEMBERS_PREFIX ++ trim roomId ++ ":members") roster ∧
        Pruned s s' now (PRESENCE_ROOM_MEMBERS_PREFIX ++ trim roomId ++ ":members")) ↔
      ∀ u ∈ s.rooms (PRESENCE_ROOM_MEMBERS_PREFIX ++ trim roomId ++ ":members"),
        s.Leased now u → ',' ∉ u.toList := by
  generalize hkey : PRESENCE_ROOM_MEMBERS_PREFIX ++ trim roomId ++ ":members" = key at clean ⊢
  have hroom : getRoomMembersKey roomId = .ok key := by rw [getRoomMembersKey, if_neg named, hkey]
  have hrun : executeGetRoomPresenceRoster s roomId now =
      .ok ((getRoomPresenceRoster s key now).1,
        splitRoster (concatRoster ((s.rooms key).toList.filter (s.leased now)))) := by
    rw [← getRoomPresenceRoster_reply, executeGetRoomPresenceRoster, hroom]
    rfl
  have hkept : ∀ u, u ∈ (s.rooms key).toList.filter (s.leased now) ↔
      u ∈ s.rooms key ∧ s.Leased now u := fun u => by
    rw [List.mem_filter, leased_iff]
    rfl
  constructor
  · rintro ⟨s', roster, hok, lists, -⟩ u hu hleased
    rw [hrun] at hok
    injection hok with hpair
    injection hpair with _ hroster
    have hmem : u ∈ roster := (lists.mem_iff u).mpr ⟨hu, hleased⟩
    rw [← hroster] at hmem
    exact comma_not_mem_of_mem_splitRoster hmem
  · intro plain
    refine ⟨_, _, hrun, ?_, pruned_getRoomPresenceRoster s key now⟩
    rw [splitRoster_concatRoster fun u hu => ?_]
    · exact ⟨(s.rooms key).nodup.filter _, hkept⟩
    · obtain ⟨hmember, hleased⟩ := (hkept u).mp hu
      obtain ⟨htrim, hne⟩ := clean u hmember
      exact ⟨htrim, hne, plain u hmember hleased⟩

/-- A user with one lease in one room. -/
def lobbyOf (userId : UserId) : PresenceStore :=
  (({} : PresenceStore).setUser (PRESENCE_USER_KEY_PREFIX ++ userId)
    ((∅ : SortedSet String Score).zadd 0 "node-a:c1" 60000)).setRoom
      (PRESENCE_ROOM_MEMBERS_PREFIX ++ "lobby" ++ ":members")
        ((∅ : OrderedSet UserId).insert userId)

theorem mem_lobbyOf {u v : UserId}
    (h : u ∈ (lobbyOf v).rooms (PRESENCE_ROOM_MEMBERS_PREFIX ++ trim "lobby" ++ ":members")) :
    u = v := by
  have htrim : trim "lobby" = "lobby" := by decide +kernel
  rw [htrim] at h
  simpa [lobbyOf, setRoom] using h

theorem roster_query_exact_plain_id :
    (∃ s' roster, executeGetRoomPresenceRoster (lobbyOf "alice") "lobby" 10 = .ok (s', roster) ∧
        Lists (lobbyOf "alice") 10 (PRESENCE_ROOM_MEMBERS_PREFIX ++ trim "lobby" ++ ":members")
          roster ∧
        Pruned (lobbyOf "alice") s' 10
          (PRESENCE_ROOM_MEMBERS_PREFIX ++ trim "lobby" ++ ":members")) := by
  refine (roster_query_exact_iff (lobbyOf "alice") 10 (by decide +kernel) fun u hu => ?_).mpr
    fun u hu _ => ?_
  · rw [mem_lobbyOf hu]
    decide +kernel
  · rw [mem_lobbyOf hu]
    decide +kernel

/-- One user whose id has a comma is listed as two users, neither of whom is in the room. -/
theorem comma_id_listed_in_pieces :
    (executeGetRoomPresenceRoster (lobbyOf "a,b") "lobby" 10).map Prod.snd = .ok ["a", "b"] ∧
      (∀ u ∈ (lobbyOf "a,b").rooms (PRESENCE_ROOM_MEMBERS_PREFIX ++ trim "lobby" ++ ":members"),
        trim u = u ∧ u ≠ "") ∧
      ¬ ∃ s' roster, executeGetRoomPresenceRoster (lobbyOf "a,b") "lobby" 10 = .ok (s', roster) ∧
        Lists (lobbyOf "a,b") 10 (PRESENCE_ROOM_MEMBERS_PREFIX ++ trim "lobby" ++ ":members")
          roster ∧
        Pruned (lobbyOf "a,b") s' 10
          (PRESENCE_ROOM_MEMBERS_PREFIX ++ trim "lobby" ++ ":members") := by
  have hreply : (executeGetRoomPresenceRoster (lobbyOf "a,b") "lobby" 10).map Prod.snd =
      .ok ["a", "b"] := by
    decide +kernel
  refine ⟨hreply, fun u hu => ?_, ?_⟩
  · rw [mem_lobbyOf hu]
    decide +kernel
  · rintro ⟨s', roster, hok, lists, -⟩
    rw [hok] at hreply
    injection hreply with hroster
    have hmem : "a" ∈ roster := by simp [show roster = ["a", "b"] from hroster]
    have heq : "a" = "a,b" := mem_lobbyOf ((lists.mem_iff "a").mp hmem).1
    exact absurd heq (by decide)

end query

end Pulse
