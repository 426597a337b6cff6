import Pulse.Collections.Recency
import Pulse.Redis.PresenceEventTracker

/-!
# The window of the presence tracker

What `recordEvent` does over any sequence of calls. The tracker keeps its users in the
order of their last accepted events, so a user it drops was followed by accepted events
of as many other users as the tracker has room for. While a user stays, the accepted
timestamps increase.
-/

namespace Pulse

open Collections Js

namespace PresenceEventTracker

/-- The arguments of a call of `recordEvent`; a timestamp of `none` is `NaN`. -/
abbrev Report := UserId × Option Number

def record (t : PresenceEventTracker) (r : Report) : PresenceEventTracker × Bool :=
  match r.2 with
  | none => (t, false)
  | some timestamp => t.recordEvent r.1 timestamp

def records (t : PresenceEventTracker) (rs : List Report) : PresenceEventTracker :=
  rs.foldl (fun t r => (t.record r).1) t

/-- The event, if the call accepts it. -/
def accepts (t : PresenceEventTracker) (r : Report) : List (UserId × Number) :=
  if (t.record r).2 then (r.2.map (r.1, ·)).toList else []

/-- The accepted events, in order. -/
def accepted : PresenceEventTracker → List Report → List (UserId × Number)
  | _, [] => []
  | t, r :: rs => t.accepts r ++ accepted (t.record r).1 rs

/-- The users of the accepted events, in order. -/
def acceptedUsers (t : PresenceEventTracker) (rs : List Report) : List UserId :=
  (t.accepted rs).map Prod.fst

def timestampsOf (userId : UserId) (events : List (UserId × Number)) : List Number :=
  (events.filter (·.1 = userId)).map Prod.snd

/-- The timestamps of the accepted events about a user, in order. -/
def acceptedTimestamps (t : PresenceEventTracker) (userId : UserId) (rs : List Report) :
    List Number :=
  timestampsOf userId (t.accepted rs)

/-- The user has an entry. -/
def Tracks (t : PresenceEventTracker) (userId : UserId) : Prop :=
  userId ∈ t.lastSeenTimestamps.keys

instance (t : PresenceEventTracker) (userId : UserId) : Decidable (t.Tracks userId) :=
  inferInstanceAs (Decidable (userId ∈ t.lastSeenTimestamps.keys))

@[simp] theorem records_nil (t : PresenceEventTracker) : t.records [] = t := rfl

@[simp] theorem records_cons (t : PresenceEventTracker) (r : Report) (rs : List Report) :
    t.records (r :: rs) = (t.record r).1.records rs := rfl

theorem records_append (t : PresenceEventTracker) (rs rs' : List Report) :
    t.records (rs ++ rs') = (t.records rs).records rs' := List.foldl_append

theorem accepted_append (t : PresenceEventTracker) (rs rs' : List Report) :
    t.accepted (rs ++ rs') = t.accepted rs ++ (t.records rs).accepted rs' := by
  induction rs generalizing t with
  | nil => rfl
  | cons r rs ih => simp [accepted, ih]

/-- The entries which an accepted event leaves, its own apart. -/
def room (t : PresenceEventTracker) (userId : UserId) : OrderedMap UserId Number :=
  if t.lastSeenTimestamps.has userId then t.lastSeenTimestamps.delete userId
  else if t.lastSeenTimestamps.size ≥ t.maxUsers then
    match t.lastSeenTimestamps.keys.head? with
    | some oldestKey => t.lastSeenTimestamps.delete oldestKey
    | none => t.lastSeenTimestamps
  else t.lastSeenTimestamps

theorem recordEvent_of_fresh {t : PresenceEventTracker} {userId : UserId} {timestamp : Number}
    (h : t.isStale userId timestamp = false) :
    t.recordEvent userId timestamp =
      ({ t with lastSeenTimestamps := (t.room userId).set userId timestamp }, true) := by
  simp only [recordEvent, h, Bool.false_eq_true, if_false]
  rfl

/-- Making room drops the user itself, or the first user of a full tracker. -/
theorem keys_room (t : PresenceEventTracker) (userId : UserId) :
    (t.room userId).keys = t.lastSeenTimestamps.keys.erase userId ∧
        (t.Tracks userId ∨ t.lastSeenTimestamps.keys = [] ∨
          t.lastSeenTimestamps.keys.length < t.maxUsers) ∨
      ∃ oldest, t.lastSeenTimestamps.keys = oldest :: (t.room userId).keys ∧
        ¬ t.Tracks userId ∧ t.maxUsers ≤ t.lastSeenTimestamps.keys.length := by
  rw [room, OrderedMap.keys_length]
  split
  · rename_i htracked
    exact Or.inl ⟨OrderedMap.keys_delete _ _, Or.inl (OrderedMap.has_iff.mp htracked)⟩
  · rename_i hnew
    have hkey : userId ∉ t.lastSeenTimestamps.keys := fun h => hnew (OrderedMap.has_iff.mpr h)
    split
    · rename_i hfull
      cases hkeys : t.lastSeenTimestamps.keys with
      | nil => exact Or.inl ⟨by simpa using hkeys, Or.inr (Or.inl rfl)⟩
      | cons oldest rest =>
          refine Or.inr ⟨oldest, ?_, hkey, hfull⟩
          simp only [List.head?_cons]
          rw [OrderedMap.keys_delete, hkeys, List.erase_cons_head]
    · rename_i hspare
      exact Or.inl ⟨(List.erase_of_not_mem hkey).symm, Or.inr (Or.inr (not_le.mp hspare))⟩

theorem get?_room {t : PresenceEventTracker} {userId v : UserId} {lastSeen : Number}
    (h : (t.room userId).get? v = some lastSeen) :
    t.lastSeenTimestamps.get? v = some lastSeen := by
  have hdelete : ∀ k, (t.lastSeenTimestamps.delete k).get? v = some lastSeen →
      t.lastSeenTimestamps.get? v = some lastSeen := by
    intro k hget
    rw [OrderedMap.get?_delete] at hget
    split at hget
    · cases hget
    · exact hget
  rw [room] at h
  split at h
  · exact hdelete _ h
  · split at h
    · split at h
      · exact hdelete _ h
      · exact h
    · exact h

theorem not_mem_keys_room (t : PresenceEventTracker) (userId : UserId) :
    userId ∉ (t.room userId).keys := by
  rcases t.keys_room userId with ⟨hkeys, -⟩ | ⟨oldest, hkeys, hnew, -⟩
  · rw [hkeys]
    exact t.lastSeenTimestamps.keys_nodup.not_mem_erase
  · intro hmem
    rw [Tracks, hkeys] at hnew
    exact hnew (List.mem_cons_of_mem oldest hmem)

theorem timestampsOf_self (userId : UserId) (timestamp : Number) :
    timestampsOf userId [(userId, timestamp)] = [timestamp] := by
  simp [timestampsOf]

theorem timestampsOf_ne {userId v : UserId} (h : v ≠ userId) (timestamp : Number) :
    timestampsOf userId [(v, timestamp)] = [] := by
  simp [timestampsOf, h]

theorem acceptedTimestamps_cons (t : PresenceEventTracker) (userId : UserId) (r : Report)
    (rs : List Report) :
    t.acceptedTimestamps userId (r :: rs) =
      timestampsOf userId (t.accepts r) ++ (t.record r).1.acceptedTimestamps userId rs := by
  simp [acceptedTimestamps, timestampsOf, accepted]

/-- What an accepted event does to the tracker: it is newer than the last one about its
user, and its user goes to the end behind the ones for which there is room. -/
structure Accepts (t : PresenceEventTracker) (userId : UserId) (timestamp : Number)
    (t' : PresenceEventTracker) : Prop where
  fresh : ∀ lastSeen, t.lastSeenTimestamps.get? userId = some lastSeen →
    lastSeen.rank < timestamp.rank
  maxUsers : t'.maxUsers = t.maxUsers
  self : t'.lastSeenTimestamps.get? userId = some timestamp
  others : ∀ v ≠ userId, ∀ lastSeen, t'.lastSeenTimestamps.get? v = some lastSeen →
    t.lastSeenTimestamps.get? v = some lastSeen
  keys : t'.lastSeenTimestamps.keys = (t.room userId).keys ++ [userId]

theorem accepts_recordEvent {t : PresenceEventTracker} {userId : UserId} {timestamp : Number}
    (h : t.isStale userId timestamp = false) :
    t.Accepts userId timestamp (t.recordEvent userId timestamp).1 := by
  rw [recordEvent_of_fresh h]
  constructor
  · intro lastSeen hlast
    simp only [isStale, hlast, Bool.or_eq_false_iff] at h
    rw [← not_le, ← Number.le_iff_rank_le, h.2]
    exact Bool.false_ne_true
  · rfl
  · exact OrderedMap.get?_set_self _ _ _
  · intro v hv lastSeen hget
    rw [OrderedMap.get?_set_ne hv] at hget
    exact get?_room hget
  · exact OrderedMap.keys_set_of_not_mem (not_mem_keys_room t userId)

/-- A call either changes nothing or accepts its event. -/
theorem record_cases (t : PresenceEventTracker) (r : Report) :
    ((t.record r).1 = t ∧ t.accepts r = []) ∨
      ∃ timestamp, t.accepts r = [(r.1, timestamp)] ∧ t.Accepts r.1 timestamp (t.record r).1 := by
  obtain ⟨userId, timestamp⟩ := r
  cases timestamp with
  | none => exact Or.inl ⟨rfl, rfl⟩
  | some timestamp =>
      cases hstale : t.isStale userId timestamp with
      | true => exact Or.inl (by simp [record, accepts, recordEvent_of_stale hstale])
      | false =>
          refine Or.inr ⟨timestamp, ?_, accepts_recordEvent hstale⟩
          simp [accepts, record, recordEvent_of_fresh hstale]

/-- The invariant of the tracker: the users fit, and whatever stands behind a user had an
event accepted after it. -/
structure Window (t : PresenceEventTracker) (uses : List UserId) : Prop where
  size_le : t.lastSeenTimestamps.keys.length ≤ t.maxUsers
  retained : ∀ userId, t.Tracks userId → Retained userId t.lastSeenTimestamps.keys uses

section Step

variable {t t' : PresenceEventTracker} {userId v : UserId} {timestamp : Number}
  {uses : List UserId}

theorem Window.step (h : t.Window uses) (haccepts : t.Accepts userId timestamp t')
    (hpos : 1 ≤ t.maxUsers) : t'.Window (uses ++ [userId]) := by
  have hnew := not_mem_keys_room t userId
  constructor
  · rw [haccepts.keys, haccepts.maxUsers, List.length_append, List.length_singleton]
    have hsize := h.size_le
    rcases t.keys_room userId with ⟨hkeys, htracked | hnil | hspare⟩ | ⟨oldest, hkeys, -, -⟩
    · have hlen := List.length_erase_add_one htracked
      rw [hkeys]
      omega
    · rw [hkeys, hnil]
      exact hpos
    · have hlen := List.length_erase_le (a := userId) (l := t.lastSeenTimestamps.keys)
      rw [hkeys]
      omega
    · rw [hkeys, List.length_cons] at hsize
      exact hsize
  · intro v hv
    rw [Tracks, haccepts.keys] at hv
    rw [haccepts.keys]
    by_cases heq : v = userId
    · subst heq
      exact retained_self hnew uses
    · have hv := (List.mem_append.mp hv).resolve_right (by simpa using heq)
      apply Retained.append _ (Ne.symm heq)
      rcases t.keys_room userId with ⟨hkeys, -⟩ | ⟨oldest, hkeys, -, -⟩
      · rw [hkeys] at hv ⊢
        exact (h.retained v (List.mem_of_mem_erase hv)).erase (Ne.symm heq)
      · have hnodup := t.lastSeenTimestamps.keys_nodup
        rw [hkeys, List.nodup_cons] at hnodup
        have hbefore : t.Tracks v := by
          rw [Tracks, hkeys]
          exact List.mem_cons_of_mem oldest hv
        have hretained := h.retained v hbefore
        rw [hkeys] at hretained
        have hother : v ∉ [oldest] := by
          intro hmem
          exact hnodup.1 (List.mem_singleton.mp hmem ▸ hv)
        exact Retained.suffix hretained hother

/-- A user leaves only a full tracker, at the accepted event of a new user. -/
theorem Window.evicted (h : t.Window uses) (haccepts : t.Accepts userId timestamp t')
    (hv : t.Tracks v) (hgone : ¬ t'.Tracks v) :
    t.maxUsers ≤ othersSince v (uses ++ [userId]) := by
  rw [Tracks, haccepts.keys, List.mem_append, List.mem_singleton, not_or] at hgone
  obtain ⟨hdropped, hne⟩ := hgone
  rcases t.keys_room userId with ⟨hkeys, -⟩ | ⟨oldest, hkeys, -, hfull⟩
  · rw [hkeys] at hdropped
    exact (hdropped ((List.mem_erase_of_ne hne).mpr hv)).elim
  · have hnodup := t.lastSeenTimestamps.keys_nodup
    have hretained := h.retained v hv
    rw [Tracks] at hv
    rw [hkeys] at hv hnodup hretained hfull
    obtain rfl : v = oldest := (List.mem_cons.mp hv).resolve_right hdropped
    exact hfull.trans (hretained.length_le_of_first (List.nodup_cons.mp hnodup).2 (Ne.symm hne)
      (not_mem_keys_room t userId))

end Step

section Run

variable {t : PresenceEventTracker}

theorem maxUsers_record (t : PresenceEventTracker) (r : Report) :
    (t.record r).1.maxUsers = t.maxUsers := by
  rcases t.record_cases r with ⟨hsame, -⟩ | ⟨_, -, haccepts⟩
  · rw [hsame]
  · exact haccepts.maxUsers

theorem Window.record {uses : List UserId} (h : t.Window uses) (hpos : 1 ≤ t.maxUsers)
    (r : Report) : (t.record r).1.Window (uses ++ (t.accepts r).map Prod.fst) := by
  rcases t.record_cases r with ⟨hsame, hnone⟩ | ⟨timestamp, hsome, haccepts⟩
  · rw [hsame, hnone, List.map_nil, List.append_nil]
    exact h
  · rw [hsome]
    exact h.step haccepts hpos

theorem Window.records {uses : List UserId} (h : t.Window uses) (hpos : 1 ≤ t.maxUsers)
    (rs : List Report) : (t.records rs).Window (uses ++ t.acceptedUsers rs) := by
  induction rs generalizing t uses with
  | nil => simpa [acceptedUsers, accepted] using h
  | cons r rs ih =>
      have hrest := ih (h.record hpos r) (by rw [maxUsers_record]; exact hpos)
      simpa [acceptedUsers, accepted] using hrest

theorem maxUsers_records (t : PresenceEventTracker) (rs : List Report) :
    (t.records rs).maxUsers = t.maxUsers := by
  induction rs generalizing t with
  | nil => rfl
  | cons r rs ih => rw [records_cons, ih, maxUsers_record]

/-- A new tracker. -/
def fresh (maxUsers : Nat) : PresenceEventTracker := { maxUsers }

theorem window_fresh (maxUsers : Nat) : (fresh maxUsers).Window [] :=
  ⟨Nat.zero_le _, fun _ h => absurd h List.not_mem_nil⟩

/-- The timestamps accepted about a user increase from the last one on, for as long as the
user stays. -/
theorem acceptedTimestamps_increase {userId : UserId} {lastSeen : Number}
    (hlast : t.lastSeenTimestamps.get? userId = some lastSeen) (rs : List Report)
    (hstays : ∀ rs', rs' <+: rs → (t.records rs').Tracks userId) :
    (lastSeen :: t.acceptedTimestamps userId rs).Pairwise (·.rank < ·.rank) := by
  induction rs generalizing t lastSeen with
  | nil => exact List.pairwise_singleton _ _
  | cons r rs ih =>
      have hlater : ∀ rs', rs' <+: rs → ((t.record r).1.records rs').Tracks userId := by
        intro rs' hrs'
        exact hstays (r :: rs') ((List.prefix_cons_inj r).mpr hrs')
      have htracked : (t.record r).1.Tracks userId := hlater [] List.nil_prefix
      rw [acceptedTimestamps_cons]
      rcases t.record_cases r with ⟨hsame, hnone⟩ | ⟨timestamp, hsome, haccepts⟩
      · rw [hnone]
        exact ih (hsame.symm ▸ hlast) hlater
      · rw [hsome]
        by_cases heq : r.1 = userId
        · subst heq
          have hrest := ih haccepts.self hlater
          have hlt := haccepts.fresh lastSeen hlast
          rw [timestampsOf_self, List.singleton_append]
          refine List.pairwise_cons.mpr ⟨?_, hrest⟩
          rintro n hn
          rcases List.mem_cons.mp hn with rfl | hn
          · exact hlt
          · exact hlt.trans (List.rel_of_pairwise_cons hrest hn)
        · obtain ⟨kept, hkept⟩ := Option.isSome_iff_exists.mp
            (OrderedMap.get?_isSome_iff.mpr htracked)
          have hsame := haccepts.others userId (Ne.symm heq) kept hkept
          rw [timestampsOf_ne heq, List.nil_append]
          exact ih (hkept.trans (hsame.symm.trans hlast)) hlater

/-- From the first event on for which the user has an entry. -/
theorem acceptedTimestamps_increase_of_tracks {userId : UserId} (r : Report) (rs : List Report)
    (hstays : ∀ rs', rs' <+: rs → (t.records (r :: rs')).Tracks userId) :
    (t.acceptedTimestamps userId (r :: rs)).Pairwise (·.rank < ·.rank) := by
  have htracked : (t.record r).1.Tracks userId := hstays [] List.nil_prefix
  obtain ⟨lastSeen, hlast⟩ := Option.isSome_iff_exists.mp
    (OrderedMap.get?_isSome_iff.mpr htracked)
  have hrest := acceptedTimestamps_increase hlast rs hstays
  rw [acceptedTimestamps_cons]
  rcases t.record_cases r with ⟨-, hnone⟩ | ⟨timestamp, hsome, haccepts⟩
  · rw [hnone]
    exact (List.pairwise_cons.mp hrest).2
  · rw [hsome]
    by_cases heq : r.1 = userId
    · subst heq
      obtain rfl : timestamp = lastSeen := Option.some_inj.mp (haccepts.self.symm.trans hlast)
      rw [timestampsOf_self]
      exact hrest
    · rw [timestampsOf_ne heq]
      exact (List.pairwise_cons.mp hrest).2

/-- Over any calls of `recordEvent` on a new tracker: at most `maxUsers` users are held; the
timestamps accepted about a user increase for as long as the user has an entry; and a call
drops a user only if, with its own, the accepted events since the last one about that user
are about `maxUsers` other users or more. -/
theorem presence_window {maxUsers : Nat} (hpos : 1 ≤ maxUsers) (rs : List Report) :
    ((fresh maxUsers).records rs).lastSeenTimestamps.size ≤ maxUsers ∧
      (∀ userId r later,
        (∀ rs', rs' <+: later →
          (((fresh maxUsers).records rs).records (r :: rs')).Tracks userId) →
        (((fresh maxUsers).records rs).acceptedTimestamps userId (r :: later)).Pairwise
          (·.rank < ·.rank)) ∧
      ∀ userId r, ((fresh maxUsers).records rs).Tracks userId →
        ¬ ((fresh maxUsers).records (rs ++ [r])).Tracks userId →
        maxUsers ≤ othersSince userId ((fresh maxUsers).acceptedUsers (rs ++ [r])) := by
  have hmax : ((fresh maxUsers).records rs).maxUsers = maxUsers := maxUsers_records _ _
  have hwindow : ((fresh maxUsers).records rs).Window ((fresh maxUsers).acceptedUsers rs) := by
    simpa using (window_fresh maxUsers).records hpos rs
  have huses : ∀ r, (fresh maxUsers).acceptedUsers (rs ++ [r]) =
      (fresh maxUsers).acceptedUsers rs ++
        (((fresh maxUsers).records rs).accepts r).map Prod.fst := by
    intro r
    simp [acceptedUsers, accepted_append, accepted]
  refine ⟨?_, ?_, ?_⟩
  · have hsize := hwindow.size_le
    rwa [OrderedMap.keys_length, hmax] at hsize
  · intro userId r later hstays
    exact acceptedTimestamps_increase_of_tracks r later hstays
  · intro userId r htracks hgone
    rw [records_append, records_cons, records_nil] at hgone
    rw [huses]
    rcases ((fresh maxUsers).records rs).record_cases r with
      ⟨hsame, -⟩ | ⟨timestamp, hsome, haccepts⟩
    · rw [hsame] at hgone
      exact (hgone htracks).elim
    · have hothers := hwindow.evicted haccepts htracks hgone
      rw [hmax] at hothers
      rw [hsome]
      exact hothers

/-- With room for two, the third user drops the first one: two others had events accepted. -/
theorem presence_window_two :
    2 ≤ othersSince "alice" ((fresh 2).acceptedUsers
      ([("alice", some (.ofInt 7)), ("bob", none), ("bob", some (.ofInt 5))] ++
        [("carol", some (.ofInt 6))])) :=
  (presence_window (by decide) _).2.2 "alice" ("carol", some (.ofInt 6)) (by decide +kernel)
    (by decide +kernel)

end Run

end PresenceEventTracker

end Pulse
