import Pulse.Collections.Recency
import Pulse.Core.Idempotency

/-!
# The idempotency window

The dispatcher uses the cache in one way only: it checks an event, and may record
it if the check missed. `CacheTouch` lists what such uses do over time. Every entry
stems from a recording, and an event stays in the cache as long as its uses keep
within the window: younger than the time to live, and fewer distinct other events
than the capacity in between.
-/

namespace Pulse

open Collections

/-- One use of the cache: a check, and a recording if the event is new and accepted. -/
structure IdempotencyUse where
  envelope : PulseEventEnvelope
  now : Int
  recorded : Option PulseEventEnvelope

/-- A use that found its event, or recorded it. -/
inductive CacheTouch
  | hit (eventId : EventId)
  | recorded (envelope ack : PulseEventEnvelope) (now : Int)

def CacheTouch.eventId : CacheTouch → EventId
  | .hit eventId => eventId
  | .recorded envelope _ _ => envelope.eventId

/-- The ids of the touches, in order. -/
def touchedIds (log : List CacheTouch) : List EventId := log.map CacheTouch.eventId

def recordedIds (log : List CacheTouch) : List EventId :=
  log.filterMap fun
    | .hit _ => none
    | .recorded envelope _ _ => some envelope.eventId

/-- When the event was recorded. -/
def recordingTimes (id : EventId) (log : List CacheTouch) : List Int :=
  log.filterMap fun
    | .hit _ => none
    | .recorded envelope _ now => if envelope.eventId = id then some now else none

theorem mem_recordingTimes {log : List CacheTouch} {envelope ack : PulseEventEnvelope}
    {now : Int} (h : .recorded envelope ack now ∈ log) :
    now ∈ recordingTimes envelope.eventId log :=
  List.mem_filterMap.mpr ⟨_, h, by simp⟩

theorem mem_touchedIds_of_recorded {log : List CacheTouch} {envelope ack : PulseEventEnvelope}
    {now : Int} (h : .recorded envelope ack now ∈ log) : envelope.eventId ∈ touchedIds log :=
  List.mem_map_of_mem (f := CacheTouch.eventId) h

theorem mem_touchedIds_of_recordedIds {log : List CacheTouch} {id : EventId}
    (h : id ∈ recordedIds log) : id ∈ touchedIds log := by
  rw [recordedIds, List.mem_filterMap] at h
  obtain ⟨touch, hmem, heq⟩ := h
  cases touch with
  | hit eventId => cases heq
  | recorded envelope ack now =>
      cases heq
      exact mem_touchedIds_of_recorded hmem

namespace IdempotencyManager

variable {options : IdempotencyOptions} {m : IdempotencyManager}

/-- An unexpired entry is there. -/
def Hits (options : IdempotencyOptions) (m : IdempotencyManager) (id : EventId) (now : Int) :
    Prop :=
  ∃ entry, m.cache.get? id = some entry ∧ now - entry.timestamp ≤ options.ttlMs

theorem check_of_hit {id : EventId} (payload : Js.Fields) {now : Int} {entry : IdempotencyEntry}
    (hentry : m.cache.get? id = some entry) (fresh : now - entry.timestamp ≤ options.ttlMs) :
    m.check options id payload now =
      (⟨(m.cache.delete id).set id entry⟩,
        if entry.payloadHash ≠ hashPayload options payload then
          { isDuplicate := true, hasConflict := true }
        else { isDuplicate := true, cachedAck := some entry.ackEnvelope }) := by
  have httl : ¬ now - entry.timestamp > options.ttlMs := not_lt.mpr fresh
  simp only [check, hentry, if_neg httl]
  split <;> rfl

theorem check_of_miss {id : EventId} (payload : Js.Fields) {now : Int}
    (h : ¬ Hits options m id now) :
    m.check options id payload now = (⟨m.cache.delete id⟩, { isDuplicate := false }) := by
  cases hentry : m.cache.get? id with
  | none =>
      rw [OrderedMap.delete_of_not_mem (OrderedMap.get?_eq_none_iff.mp hentry)]
      simp only [check, hentry]
  | some entry =>
      have httl : now - entry.timestamp > options.ttlMs := by
        by_contra hle
        exact h ⟨entry, hentry, not_lt.mp hle⟩
      simp only [check, hentry, if_pos httl]

theorem check_isDuplicate_iff {id : EventId} (payload : Js.Fields) {now : Int} :
    (m.check options id payload now).2.isDuplicate = true ↔ Hits options m id now := by
  by_cases h : Hits options m id now
  · obtain ⟨entry, hentry, hfresh⟩ := h
    rw [check_of_hit _ hentry hfresh]
    refine iff_of_true ?_ ⟨entry, hentry, hfresh⟩
    split <;> rfl
  · rw [check_of_miss payload h]
    exact iff_of_false (by simp) h

/-- A hit leaves the entries as they are and moves the key to the end. -/
theorem get?_check_hit {id : EventId} {payload : Js.Fields} {now : Int}
    (h : Hits options m id now) (id' : EventId) :
    (m.check options id payload now).1.cache.get? id' = m.cache.get? id' := by
  obtain ⟨entry, hentry, hfresh⟩ := h
  rw [check_of_hit _ hentry hfresh]
  by_cases heq : id' = id
  · rw [heq, hentry, OrderedMap.get?_set_self]
  · rw [OrderedMap.get?_set_ne heq, OrderedMap.get?_delete_ne heq]

theorem keys_check_hit {id : EventId} {now : Int} (payload : Js.Fields)
    (h : Hits options m id now) :
    (m.check options id payload now).1.cache.keys = m.cache.keys.erase id ++ [id] := by
  obtain ⟨entry, hentry, hfresh⟩ := h
  have hnot : id ∉ (m.cache.delete id).keys := by simp
  rw [check_of_hit _ hentry hfresh, OrderedMap.keys_set_of_not_mem hnot, OrderedMap.keys_delete]

theorem keys_check_miss {id : EventId} {now : Int} (payload : Js.Fields)
    (h : ¬ Hits options m id now) :
    (m.check options id payload now).1.cache.keys = m.cache.keys.erase id := by
  rw [check_of_miss payload h, OrderedMap.keys_delete]

/-- Making room drops at most the first key, and only when the cache is full. -/
theorem keys_evictOldest (options : IdempotencyOptions)
    (cache : OrderedMap EventId IdempotencyEntry) :
    (evictOldest options cache).keys = cache.keys ∨
      ∃ oldest rest, cache.keys = oldest :: rest ∧ options.capacity ≤ (oldest :: rest).length ∧
        (evictOldest options cache).keys = rest := by
  rw [evictOldest]
  split
  · rename_i hfull
    cases hkeys : cache.keys with
    | nil => exact Or.inl hkeys
    | cons oldest rest =>
        simp only [List.head?_cons]
        split
        · exact Or.inl hkeys
        · refine Or.inr ⟨oldest, rest, rfl, ?_, ?_⟩
          · rw [← hkeys, OrderedMap.keys_length]
            exact hfull
          · rw [OrderedMap.keys_delete, hkeys, List.erase_cons_head]
  · exact Or.inl rfl

theorem get?_evictOldest {cache : OrderedMap EventId IdempotencyEntry} {id : EventId}
    {entry : IdempotencyEntry} (h : (evictOldest options cache).get? id = some entry) :
    cache.get? id = some entry := by
  rw [evictOldest] at h
  split at h
  · split at h
    · exact h
    · split at h
      · exact h
      · rw [OrderedMap.get?_delete] at h
        split at h
        · cases h
        · exact h
  · exact h

theorem mem_keys_evictOldest {cache : OrderedMap EventId IdempotencyEntry} {id : EventId}
    (h : id ∈ (evictOldest options cache).keys) : id ∈ cache.keys := by
  rcases keys_evictOldest options cache with hsame | ⟨oldest, rest, hkeys, -, hrest⟩
  · rw [← hsame]
    exact h
  · rw [hkeys, List.mem_cons]
    exact Or.inr (hrest ▸ h)

end IdempotencyManager

namespace IdempotencyUse

open IdempotencyManager

variable {options : IdempotencyOptions} {m : IdempotencyManager} {log : List CacheTouch}

def apply (options : IdempotencyOptions) (m : IdempotencyManager) (u : IdempotencyUse) :
    IdempotencyManager :=
  let m := (m.check options u.envelope.eventId u.envelope.payload u.now).1
  match u.recorded with
  | some ack => m.recordAck options u.envelope.eventId ack u.envelope.payload u.now
  | none => m

/-- What is logged of a use. -/
def touch (options : IdempotencyOptions) (m : IdempotencyManager) (u : IdempotencyUse) :
    List CacheTouch :=
  if (m.check options u.envelope.eventId u.envelope.payload u.now).2.isDuplicate then
    [.hit u.envelope.eventId]
  else match u.recorded with
    | some ack => [.recorded u.envelope ack u.now]
    | none => []

/-- Only an event that is new gets recorded. -/
def Legal (options : IdempotencyOptions) (m : IdempotencyManager) (u : IdempotencyUse) : Prop :=
  u.recorded.isSome → ¬ Hits options m u.envelope.eventId u.now

/-- The use comes within the window of its event, if the event was touched before. -/
def InWindow (options : IdempotencyOptions) (log : List CacheTouch) (u : IdempotencyUse) : Prop :=
  u.envelope.eventId ∈ touchedIds log →
    othersSince u.envelope.eventId (touchedIds log) < options.capacity ∧
      ∀ time ∈ recordingTimes u.envelope.eventId log, u.now - time ≤ options.ttlMs

instance (options : IdempotencyOptions) (log : List CacheTouch) (u : IdempotencyUse) :
    Decidable (u.InWindow options log) :=
  inferInstanceAs (Decidable (_ → _ ∧ _))

theorem touch_of_hit {u : IdempotencyUse} (h : Hits options m u.envelope.eventId u.now) :
    u.touch options m = [.hit u.envelope.eventId] :=
  if_pos ((check_isDuplicate_iff _).mpr h)

theorem touch_of_miss {u : IdempotencyUse} (h : ¬ Hits options m u.envelope.eventId u.now) :
    u.touch options m =
      match u.recorded with
      | some ack => [.recorded u.envelope ack u.now]
      | none => [] :=
  if_neg fun hdup => h ((check_isDuplicate_iff _).mp hdup)

/-- What is logged of a use is its event, unless the event is new and gets refused. -/
theorem touch_eventId {u : IdempotencyUse} {touch : CacheTouch} (h : touch ∈ u.touch options m) :
    touch.eventId = u.envelope.eventId := by
  rw [IdempotencyUse.touch] at h
  split at h
  · rw [List.mem_singleton] at h
    rw [h]
    rfl
  · split at h
    · rw [List.mem_singleton] at h
      rw [h]
      rfl
    · exact absurd h List.not_mem_nil

end IdempotencyUse

/-- Every entry stems from a recording of the log: same event id, same payload digest, its
acknowledgement and its time. -/
def Sourced (options : IdempotencyOptions) (m : IdempotencyManager) (log : List CacheTouch) :
    Prop :=
  ∀ id entry, m.cache.get? id = some entry → ∃ envelope,
    .recorded envelope entry.ackEnvelope entry.timestamp ∈ log ∧ envelope.eventId = id ∧
      entry.payloadHash = IdempotencyManager.hashPayload options envelope.payload

/-- If the event was touched, it is either retained in the order of last use, or has left its
window by the number of others used since. -/
def Windowed (options : IdempotencyOptions) (m : IdempotencyManager) (log : List CacheTouch)
    (id : EventId) : Prop :=
  id ∈ touchedIds log → Retained id m.cache.keys (touchedIds log) ∨
    options.capacity ≤ othersSince id (touchedIds log)

section uses

open IdempotencyManager IdempotencyUse

variable {options : IdempotencyOptions} {m : IdempotencyManager} {log : List CacheTouch}
variable {u : IdempotencyUse}

theorem Sourced.apply (h : Sourced options m log) (legal : u.Legal options m) :
    Sourced options (u.apply options m) (log ++ u.touch options m) := by
  by_cases hhit : Hits options m u.envelope.eventId u.now
  · have hnone : u.recorded = none := by
      cases hrec : u.recorded with
      | none => rfl
      | some ack => exact absurd hhit (legal (by simp [hrec]))
    intro id entry hentry
    simp only [IdempotencyUse.apply, hnone, get?_check_hit hhit] at hentry
    obtain ⟨envelope, hmem, hrest⟩ := h id entry hentry
    exact ⟨envelope, List.mem_append_left _ hmem, hrest⟩
  · intro id entry hentry
    have hmiss := check_of_miss u.envelope.payload hhit
    rw [touch_of_miss hhit]
    cases hrec : u.recorded with
    | none =>
        simp only [IdempotencyUse.apply, hrec, hmiss, OrderedMap.get?_delete] at hentry
        split at hentry
        · cases hentry
        · obtain ⟨envelope, hmem, hrest⟩ := h id entry hentry
          exact ⟨envelope, List.mem_append_left _ hmem, hrest⟩
    | some ack =>
        simp only [IdempotencyUse.apply, hrec, hmiss, recordAck, OrderedMap.get?_set] at hentry
        split at hentry
        · rename_i heq
          rw [Option.some.injEq] at hentry
          subst hentry
          exact ⟨u.envelope, List.mem_append_right _ (List.mem_singleton_self _), heq.symm, rfl⟩
        · have hold := get?_evictOldest hentry
          rw [OrderedMap.get?_delete] at hold
          split at hold
          · cases hold
          · obtain ⟨envelope, hmem, hrest⟩ := h id entry hold
            exact ⟨envelope, List.mem_append_left _ hmem, hrest⟩

/-- Within the window a touched event is found. -/
theorem hits_of_inWindow (sourced : Sourced options m log)
    (windowed : Windowed options m log u.envelope.eventId) (window : u.InWindow options log)
    (touched : u.envelope.eventId ∈ touchedIds log) :
    Hits options m u.envelope.eventId u.now := by
  obtain ⟨hothers, httl⟩ := window touched
  have hretained := (windowed touched).resolve_right (Nat.not_le.mpr hothers)
  obtain ⟨entry, hentry⟩ := Option.isSome_iff_exists.mp (OrderedMap.get?_isSome_iff.mpr hretained.1)
  obtain ⟨envelope, hmem, hid, -⟩ := sourced _ entry hentry
  exact ⟨entry, hentry, httl _ (hid ▸ mem_recordingTimes hmem)⟩

/-- A use of another event keeps an event retained, unless it leaves its window. -/
theorem Retained.use {id : EventId} (h : Retained id m.cache.keys (touchedIds log))
    (hne : u.envelope.eventId ≠ id) (legal : u.Legal options m) :
    Retained id (u.apply options m).cache.keys (touchedIds (log ++ u.touch options m)) ∨
      options.capacity ≤ othersSince id (touchedIds (log ++ u.touch options m)) := by
  have herased := h.erase hne
  rw [touchedIds, List.map_append, ← touchedIds]
  by_cases hhit : Hits options m u.envelope.eventId u.now
  · have hnone : u.recorded = none := by
      cases hrec : u.recorded with
      | none => rfl
      | some ack => exact absurd hhit (legal (by simp [hrec]))
    rw [touch_of_hit hhit]
    simp only [IdempotencyUse.apply, hnone, keys_check_hit _ hhit]
    exact Or.inl (herased.append hne)
  · rw [touch_of_miss hhit]
    cases hrec : u.recorded with
    | none =>
        simp only [IdempotencyUse.apply, hrec, keys_check_miss _ hhit, List.map_nil,
          List.append_nil]
        exact Or.inl herased
    | some ack =>
        have hmiss := check_of_miss u.envelope.payload hhit
        have hkeys : (m.cache.delete u.envelope.eventId).keys =
            m.cache.keys.erase u.envelope.eventId := OrderedMap.keys_delete _ _
        have hnew : u.envelope.eventId ∉
            (evictOldest options (m.cache.delete u.envelope.eventId)).keys := by
          intro hmem
          have hdeleted := mem_keys_evictOldest hmem
          simp at hdeleted
        simp only [IdempotencyUse.apply, hrec, hmiss, recordAck,
          OrderedMap.keys_set_of_not_mem hnew]
        rcases keys_evictOldest options (m.cache.delete u.envelope.eventId) with
          hsame | ⟨oldest, rest, hfirst, hfull, hrest⟩
        · rw [hsame, hkeys]
          exact Or.inl (herased.append hne)
        · rw [hrest]
          rw [hkeys] at hfirst
          have hnodup : (oldest :: rest).Nodup := hfirst ▸ m.cache.keys_nodup.erase _
          rw [hfirst] at herased
          by_cases hold : oldest = id
          · -- The event itself makes room: as many others were used as the cache holds.
            subst hold
            refine Or.inr (Nat.le_trans hfull ?_)
            exact herased.length_le_of_first (List.nodup_cons.mp hnodup).2 hne
              (fun hmem => hnew (hrest ▸ hmem))
          · have hdropped := herased.erase hold
            rw [List.erase_cons_head] at hdropped
            exact Or.inl (hdropped.append hne)

/-- The uses of other events may come at any time, those of the event itself within the
window. -/
theorem Windowed.apply {id : EventId} (sourced : Sourced options m log)
    (h : Windowed options m log id) (legal : u.Legal options m)
    (window : u.envelope.eventId = id → u.InWindow options log) :
    Windowed options (u.apply options m) (log ++ u.touch options m) id := by
  intro hid
  by_cases hown : u.envelope.eventId = id
  · subst hown
    by_cases hhit : Hits options m u.envelope.eventId u.now
    · have hnone : u.recorded = none := by
        cases hrec : u.recorded with
        | none => rfl
        | some ack => exact absurd hhit (legal (by simp [hrec]))
      rw [touchedIds, List.map_append, touch_of_hit hhit, ← touchedIds]
      simp only [IdempotencyUse.apply, hnone, keys_check_hit _ hhit]
      exact Or.inl (retained_self (m.cache.keys_nodup.not_mem_erase) _)
    · have huntouched : u.envelope.eventId ∉ touchedIds log :=
        fun htouched => hhit (hits_of_inWindow sourced h (window rfl) htouched)
      rw [touchedIds, List.map_append, touch_of_miss hhit, ← touchedIds] at hid ⊢
      cases hrec : u.recorded with
      | none =>
          rw [hrec] at hid
          simp only [List.map_nil, List.append_nil] at hid
          exact absurd hid huntouched
      | some ack =>
          have hnew : u.envelope.eventId ∉
              (evictOldest options (m.cache.delete u.envelope.eventId)).keys := by
            intro hmem
            have hdeleted := mem_keys_evictOldest hmem
            simp at hdeleted
          simp only [IdempotencyUse.apply, hrec, check_of_miss u.envelope.payload hhit, recordAck,
            OrderedMap.keys_set_of_not_mem hnew]
          exact Or.inl (retained_self hnew _)
  · -- The event was touched before, by another use.
    have hbefore : id ∈ touchedIds log := by
      rw [touchedIds, List.map_append, List.mem_append] at hid
      refine hid.resolve_right fun hmem => ?_
      obtain ⟨touch, htouch, heq⟩ := List.mem_map.mp hmem
      exact hown ((touch_eventId htouch).symm.trans heq)
    rcases h hbefore with hretained | hleft
    · exact Retained.use hretained hown legal
    · refine Or.inr (Nat.le_trans hleft ?_)
      rw [touchedIds, touchedIds, List.map_append, IdempotencyUse.touch]
      split
      · exact othersSince_le_append hown _
      · split
        · exact othersSince_le_append hown _
        · simp

/-- The bookkeeping of a cache which is used within the window by the watched events. -/
structure Tracked (options : IdempotencyOptions) (watched : EventId → Prop)
    (m : IdempotencyManager) (log : List CacheTouch) : Prop where
  sourced : Sourced options m log
  windowed : ∀ id, watched id → Windowed options m log id
  once : ∀ id, watched id → (recordedIds log).count id ≤ 1

theorem tracked_initial (options : IdempotencyOptions) (watched : EventId → Prop) :
    Tracked options watched {} [] where
  sourced := by
    intro id entry h
    simp at h
  windowed := fun _ _ h => absurd h List.not_mem_nil
  once := fun _ _ => Nat.zero_le 1

theorem recordedIds_append (log log' : List CacheTouch) :
    recordedIds (log ++ log') = recordedIds log ++ recordedIds log' :=
  List.filterMap_append

theorem recordedIds_touch_of_hit (h : Hits options m u.envelope.eventId u.now) :
    recordedIds (u.touch options m) = [] := by
  rw [touch_of_hit h]
  rfl

theorem recordedIds_touch_of_miss (h : ¬ Hits options m u.envelope.eventId u.now) :
    recordedIds (u.touch options m) =
      match u.recorded with
      | some _ => [u.envelope.eventId]
      | none => [] := by
  rw [touch_of_miss h]
  cases u.recorded <;> rfl

theorem recorded_of_touch {id : EventId} (h : id ∈ recordedIds (u.touch options m)) :
    u.recorded.isSome = true ∧ id = u.envelope.eventId := by
  by_cases hhit : Hits options m u.envelope.eventId u.now
  · rw [recordedIds_touch_of_hit hhit] at h
    exact absurd h List.not_mem_nil
  · rw [recordedIds_touch_of_miss hhit] at h
    cases hrec : u.recorded with
    | none =>
        rw [hrec] at h
        exact absurd h List.not_mem_nil
    | some ack =>
        rw [hrec] at h
        exact ⟨rfl, List.mem_singleton.mp h⟩

/-- Within the window only an event which was never touched is recorded. -/
theorem Tracked.new_of_recorded {watched : EventId → Prop} (h : Tracked options watched m log)
    (legal : u.Legal options m) (hwatched : watched u.envelope.eventId)
    (window : u.InWindow options log) (recorded : u.recorded.isSome) :
    u.envelope.eventId ∉ touchedIds log :=
  fun touched => legal recorded (hits_of_inWindow h.sourced (h.windowed _ hwatched) window touched)

/-- An event may be watched from before its first use on. -/
theorem Tracked.watch {watched watched' : EventId → Prop} (h : Tracked options watched m log)
    (new : ∀ id, watched' id → watched id ∨ id ∉ touchedIds log) :
    Tracked options watched' m log where
  sourced := h.sourced
  windowed := by
    intro id hid
    rcases new id hid with hold | huntouched
    · exact h.windowed id hold
    · exact fun htouched => absurd htouched huntouched
  once := by
    intro id hid
    rcases new id hid with hold | huntouched
    · exact h.once id hold
    · have hzero : (recordedIds log).count id = 0 :=
        List.count_eq_zero.mpr fun hmem => huntouched (mem_touchedIds_of_recordedIds hmem)
      rw [hzero]
      exact Nat.zero_le 1

theorem Tracked.apply {watched : EventId → Prop} (h : Tracked options watched m log)
    (legal : u.Legal options m) (window : watched u.envelope.eventId → u.InWindow options log) :
    Tracked options watched (u.apply options m) (log ++ u.touch options m) where
  sourced := h.sourced.apply legal
  windowed := fun id hid => (h.windowed id hid).apply h.sourced legal fun heq => window (heq ▸ hid)
  once := by
    intro id hid
    rw [recordedIds_append, List.count_append]
    by_cases hhit : Hits options m u.envelope.eventId u.now
    · rw [recordedIds_touch_of_hit hhit]
      exact h.once id hid
    · rw [recordedIds_touch_of_miss hhit]
      cases hrec : u.recorded with
      | none => exact h.once id hid
      | some ack =>
          by_cases heq : u.envelope.eventId = id
          · subst heq
            have hnew := h.new_of_recorded legal hid (window hid) (by simp [hrec])
            have hzero : (recordedIds log).count u.envelope.eventId = 0 :=
              List.count_eq_zero.mpr fun hmem => hnew (mem_touchedIds_of_recordedIds hmem)
            simp [hzero]
          · simp only [List.count_singleton, beq_iff_eq, heq, if_false]
            exact h.once id hid

end uses

end Pulse
