import Pulse.Collections.OrderedMap
import Pulse.Event.Envelope
import Mathlib.Data.Finset.Card

/-!
# Presence event tracker

The newest presence timestamp accepted for each user, for a bounded number of
users in the order of their last accepted event.
-/

namespace Pulse

open Collections Js

structure PresenceEventTracker where
  maxUsers : Nat := 10000
  lastSeenTimestamps : OrderedMap UserId Number := ∅

namespace PresenceEventTracker

def isStale (t : PresenceEventTracker) (userId : UserId) (timestamp : Number) : Bool :=
  userId == "" ||
    match t.lastSeenTimestamps.get? userId with
    | some lastSeen => timestamp.le lastSeen
    | none => false

/-- The flag says whether the event was accepted. -/
def recordEvent (t : PresenceEventTracker) (userId : UserId) (timestamp : Number) :
    PresenceEventTracker × Bool :=
  if t.isStale userId timestamp then (t, false)
  else
    let timestamps :=
      if t.lastSeenTimestamps.has userId then t.lastSeenTimestamps.delete userId
      else if t.lastSeenTimestamps.size ≥ t.maxUsers then
        match t.lastSeenTimestamps.keys.head? with
        | some oldestKey => t.lastSeenTimestamps.delete oldestKey
        | none => t.lastSeenTimestamps
      else t.lastSeenTimestamps
    ({ t with lastSeenTimestamps := timestamps.set userId timestamp }, true)

variable {t : PresenceEventTracker} {userId : UserId} {timestamp : Number}

theorem isStale_iff (hne : userId ≠ "") :
    t.isStale userId timestamp = true ↔
      ∃ lastSeen, t.lastSeenTimestamps.get? userId = some lastSeen ∧
        timestamp.le lastSeen = true := by
  rw [isStale, beq_eq_false_iff_ne.mpr hne, Bool.false_or]
  cases t.lastSeenTimestamps.get? userId with
  | none => simp
  | some lastSeen => simp

theorem recordEvent_of_stale (h : t.isStale userId timestamp = true) :
    t.recordEvent userId timestamp = (t, false) := by
  simp only [recordEvent, h, if_true]

/-- The users that have to share the tracker fit into it. -/
def Holds (t : PresenceEventTracker) (users : Finset UserId) : Prop :=
  (∀ userId ∈ t.lastSeenTimestamps.keys, userId ∈ users) ∧ users.card ≤ t.maxUsers

/-- An event about one of the users the tracker has room for evicts no other user. -/
theorem get?_recordEvent {users : Finset UserId} (holds : t.Holds users) (member : userId ∈ users)
    (h : t.isStale userId timestamp = false) (userId' : UserId) :
    (t.recordEvent userId timestamp).1.lastSeenTimestamps.get? userId' =
      if userId' = userId then some timestamp else t.lastSeenTimestamps.get? userId' := by
  simp only [recordEvent, h, Bool.false_eq_true, if_false, OrderedMap.get?_set]
  by_cases heq : userId' = userId
  · rw [if_pos heq, if_pos heq]
  · rw [if_neg heq, if_neg heq]
    split
    · exact OrderedMap.get?_delete_ne heq
    · rename_i hnew
      rw [OrderedMap.has_iff] at hnew
      have hsubset : (userId :: t.lastSeenTimestamps.keys).toFinset ⊆ users := by
        intro v hv
        rw [List.mem_toFinset, List.mem_cons] at hv
        rcases hv with rfl | hv
        · exact member
        · exact holds.1 v hv
      have hcard := Finset.card_le_card hsubset
      rw [List.toFinset_card_of_nodup
        (List.nodup_cons.mpr ⟨hnew, t.lastSeenTimestamps.keys_nodup⟩), List.length_cons,
        OrderedMap.keys_length] at hcard
      have hroom : ¬ t.lastSeenTimestamps.size ≥ t.maxUsers := by
        have hfits := holds.2
        omega
      rw [if_neg hroom]

theorem recordEvent_maxUsers (t : PresenceEventTracker) (userId : UserId) (timestamp : Number) :
    (t.recordEvent userId timestamp).1.maxUsers = t.maxUsers := by
  simp only [recordEvent]
  split <;> rfl

theorem Holds.recordEvent {users : Finset UserId} (holds : t.Holds users)
    (member : userId ∈ users) (timestamp : Number) :
    (t.recordEvent userId timestamp).1.Holds users := by
  cases hstale : t.isStale userId timestamp with
  | true =>
      rw [recordEvent_of_stale hstale]
      exact holds
  | false =>
      refine ⟨?_, ?_⟩
      · intro v hv
        rw [← OrderedMap.get?_isSome_iff, get?_recordEvent holds member hstale] at hv
        split at hv
        · rename_i heq
          exact heq ▸ member
        · exact holds.1 v (OrderedMap.get?_isSome_iff.mp hv)
      · rw [recordEvent_maxUsers]
        exact holds.2

end PresenceEventTracker

end Pulse
