import Pulse.Core.IdempotencyWindow
import Pulse.Transition.Run

/-!
# Traces of the idempotency cache

Checks, recordings and sweeps in any order, under a clock which does not go back. A trace
keeps what the cache forgets: the touches so far, and which events were looked for last in
vain. As long as only these are recorded, the cache has an event precisely as long as it
is in its window. The sweep relies on the order of the entries, which is that of the last
use; it is complete precisely when the expired entries come first.
-/

namespace Pulse

open Collections Transition

/-- A call of the cache. -/
inductive IdempotencyOp
  | check (envelope : PulseEventEnvelope) (now : Int)
  | recordAck (envelope ack : PulseEventEnvelope) (now : Int)
  | pruneExpired (now : Int)

def IdempotencyOp.now : IdempotencyOp → Int
  | .check _ now => now
  | .recordAck _ _ now => now
  | .pruneExpired now => now

structure IdempotencyTrace where
  manager : IdempotencyManager := {}
  clock : Int
  log : List CacheTouch := []
  /-- The events whose last use is a check that missed. -/
  missed : List EventId := []

namespace IdempotencyManager

variable {options : IdempotencyOptions} {m : IdempotencyManager} {now : Int}

def Expired (options : IdempotencyOptions) (now : Int) (entry : IdempotencyEntry) : Prop :=
  now - entry.timestamp > options.ttlMs

instance (options : IdempotencyOptions) (now : Int) (entry : IdempotencyEntry) :
    Decidable (Expired options now entry) :=
  inferInstanceAs (Decidable (_ > _))

/-- The sweep drops the expired entries at the front of the order. -/
theorem pruneLoop_entries (options : IdempotencyOptions) (now : Int)
    (entries : List (EventId × IdempotencyEntry)) (cache : OrderedMap EventId IdempotencyEntry)
    (pruned : Nat) (same : cache.entries = entries) :
    (pruneLoop options now entries cache pruned).1.entries =
        entries.dropWhile (fun e => decide (Expired options now e.2)) ∧
      (pruneLoop options now entries cache pruned).2 =
        pruned + (entries.takeWhile fun e => decide (Expired options now e.2)).length := by
  induction entries generalizing cache pruned with
  | nil => exact ⟨same, rfl⟩
  | cons e rest ih =>
      obtain ⟨eventId, entry⟩ := e
      rw [pruneLoop]
      by_cases hexpired : now - entry.timestamp > options.ttlMs
      · have hnodup := cache.nodup
        rw [same, List.map_cons, List.nodup_cons] at hnodup
        have hrest : (cache.delete eventId).entries = rest := by
          show cache.entries.filter (fun e => decide (e.1 ≠ eventId)) = rest
          rw [same, List.filter_cons_of_neg (by simp), List.filter_eq_self]
          intro e he
          have hmem : e.1 ∈ rest.map Prod.fst := List.mem_map_of_mem he
          have hne : e.1 ≠ eventId := fun heq => hnodup.1 (heq ▸ hmem)
          exact decide_eq_true hne
        have hpos : Expired options now entry := hexpired
        obtain ⟨hentries, hcount⟩ := ih (cache.delete eventId) (pruned + 1) hrest
        rw [if_pos hexpired, List.dropWhile_cons_of_pos (by exact decide_eq_true hpos),
          List.takeWhile_cons_of_pos (by exact decide_eq_true hpos)]
        refine ⟨hentries, ?_⟩
        rw [hcount, List.length_cons]
        omega
      · have hneg : ¬ Expired options now entry := hexpired
        rw [if_neg hexpired, List.dropWhile_cons_of_neg (by simpa using hneg),
          List.takeWhile_cons_of_neg (by simpa using hneg)]
        exact ⟨same, rfl⟩

theorem pruneExpired_entries (options : IdempotencyOptions) (m : IdempotencyManager)
    (now : Int) :
    (m.pruneExpired options now).1.cache.entries =
        m.cache.entries.dropWhile (fun e => decide (Expired options now e.2)) ∧
      (m.pruneExpired options now).2 =
        (m.cache.entries.takeWhile fun e => decide (Expired options now e.2)).length := by
  obtain ⟨hentries, hcount⟩ := pruneLoop_entries options now m.cache.entries m.cache 0 rfl
  exact ⟨hentries, hcount.trans (Nat.zero_add _)⟩

/-- Right behind a sweep: no expired entry is left, every other one is, and the result is the
number of entries that are gone. -/
def SweepsExpired (options : IdempotencyOptions) (now : Int) (m : IdempotencyManager) : Prop :=
  let (swept, pruned) := m.pruneExpired options now
  (∀ id entry, swept.cache.get? id = some entry ↔
      m.cache.get? id = some entry ∧ ¬ Expired options now entry) ∧
    pruned + swept.cache.size = m.cache.size

/-- No expired entry stands behind one that is not expired. -/
def ExpiredFirst (options : IdempotencyOptions) (now : Int) (m : IdempotencyManager) : Prop :=
  m.cache.entries.Pairwise fun a b => Expired options now b.2 → Expired options now a.2

instance (options : IdempotencyOptions) (now : Int) (m : IdempotencyManager) :
    Decidable (ExpiredFirst options now m) :=
  inferInstanceAs (Decidable (List.Pairwise _ _))

theorem forall_mem_dropWhile_iff {α : Type} {p : α → Prop} [DecidablePred p] {l : List α} :
    (∀ a ∈ l.dropWhile (fun a => decide (p a)), ¬ p a) ↔ l.Pairwise fun a b => p b → p a := by
  induction l with
  | nil => exact iff_of_true (fun _ h => absurd h List.not_mem_nil) .nil
  | cons a l ih =>
      rw [List.pairwise_cons]
      by_cases ha : p a
      · rw [List.dropWhile_cons_of_pos (by exact decide_eq_true ha), ih]
        exact ⟨fun h => ⟨fun _ _ _ => ha, h⟩, And.right⟩
      · rw [List.dropWhile_cons_of_neg (by simpa using ha), List.forall_mem_cons]
        constructor
        · rintro ⟨-, hrest⟩
          refine ⟨fun b hb hpb => absurd hpb (hrest b hb), List.pairwise_of_forall_mem_list ?_⟩
          exact fun b _ c hc hpc => absurd hpc (hrest c hc)
        · rintro ⟨hfirst, -⟩
          exact ⟨ha, fun b hb hpb => ha (hfirst b hb hpb)⟩

/-- A sweep is complete precisely when the expired entries come first. -/
theorem sweepsExpired_iff : SweepsExpired options now m ↔ ExpiredFirst options now m := by
  obtain ⟨hentries, hcount⟩ := pruneExpired_entries options m now
  rw [ExpiredFirst, ← forall_mem_dropWhile_iff, ← hentries]
  simp only [SweepsExpired, ← OrderedMap.mem_entries_iff]
  constructor
  · rintro ⟨hrest, -⟩ ⟨id, entry⟩ hmem
    exact ((hrest id entry).mp hmem).2
  · intro hfresh
    refine ⟨fun id entry => ⟨fun hmem => ⟨?_, hfresh _ hmem⟩, ?_⟩, ?_⟩
    · rw [hentries] at hmem
      exact (List.dropWhile_sublist _).subset hmem
    · rintro ⟨hmem, hunexpired⟩
      rw [← List.takeWhile_append_dropWhile (l := m.cache.entries)
        (p := fun e => decide (Expired options now e.2)), List.mem_append, ← hentries] at hmem
      refine hmem.resolve_left fun hdropped => hunexpired ?_
      simpa using List.mem_takeWhile_imp hdropped
    · rw [OrderedMap.size, OrderedMap.size, hcount, hentries, ← List.length_append,
        List.takeWhile_append_dropWhile]

end IdempotencyManager

namespace IdempotencyTrace

variable {options : IdempotencyOptions} {s t : IdempotencyTrace} {op : IdempotencyOp}

def initial (clock : Int) : IdempotencyTrace := { clock }

def check (options : IdempotencyOptions) (s : IdempotencyTrace) (envelope : PulseEventEnvelope)
    (now : Int) : IdempotencyTrace :=
  let (manager, result) := s.manager.check options envelope.eventId envelope.payload now
  { manager
    clock := now
    log := if result.isDuplicate then s.log ++ [.hit envelope.eventId] else s.log
    missed :=
      if result.isDuplicate then s.missed.filter (· ≠ envelope.eventId)
      else envelope.eventId :: s.missed }

def recordAck (options : IdempotencyOptions) (s : IdempotencyTrace)
    (envelope ack : PulseEventEnvelope) (now : Int) : IdempotencyTrace where
  manager := s.manager.recordAck options envelope.eventId ack envelope.payload now
  clock := now
  log := s.log ++ [.recorded envelope ack now]
  missed := s.missed.filter (· ≠ envelope.eventId)

/-- The clock does not go back. -/
def step (options : IdempotencyOptions) (s : IdempotencyTrace) (op : IdempotencyOp) :
    Option IdempotencyTrace :=
  if s.clock ≤ op.now then
    some (match op with
      | .check envelope now => s.check options envelope now
      | .recordAck envelope ack now => s.recordAck options envelope ack now
      | .pruneExpired now =>
          { s with manager := (s.manager.pruneExpired options now).1, clock := now })
  else none

/-- A sweep is complete. -/
def Sweeps (options : IdempotencyOptions) (s : IdempotencyTrace) : IdempotencyOp → Prop
  | .pruneExpired now => s.manager.SweepsExpired options now
  | _ => True

/-- A sweep comes when the expired entries are the first ones. -/
def SweepsInOrder (options : IdempotencyOptions) (s : IdempotencyTrace) : IdempotencyOp → Prop
  | .pruneExpired now => s.manager.ExpiredFirst options now
  | _ => True

theorem sweeps_iff : s.Sweeps options op ↔ s.SweepsInOrder options op := by
  cases op with
  | pruneExpired now => exact IdempotencyManager.sweepsExpired_iff
  | _ => exact Iff.rfl

/-- Over whole traces: every sweep is complete precisely if it comes when the expired entries
are the first ones. -/
theorem prune_removes_expired_iff (options : IdempotencyOptions) (clock : Int)
    (ops : List IdempotencyOp) :
    EveryStep (step options) (fun s op _ => s.Sweeps options op) (initial clock) ops ↔
      EveryStep (step options) (fun s op _ => s.SweepsInOrder options op) (initial clock) ops :=
  everyStep_iff (G := fun _ => True) (fun _ _ _ _ _ => sweeps_iff) (fun _ _ _ _ _ _ => trivial)
    trivial ops

/-- The event was recorded at most `ttlMs` ago. -/
def RecordedWithin (options : IdempotencyOptions) (log : List CacheTouch) (id : EventId)
    (now : Int) : Prop :=
  ∃ time ∈ recordingTimes id log, now - time ≤ options.ttlMs

/-- The cache has what is in the window, in the order of the last use. -/
structure Window (options : IdempotencyOptions) (m : IdempotencyManager) (clock : Int)
    (log : List CacheTouch) : Prop where
  sourced : Sourced options m log
  past : ∀ id, ∀ time ∈ recordingTimes id log, time ≤ clock
  latest : ∀ id entry, m.cache.get? id = some entry →
    ∀ time ∈ recordingTimes id log, time ≤ entry.timestamp
  retained : ∀ id, RecordedWithin options log id clock →
    othersSince id (touchedIds log) < options.capacity →
      Retained id m.cache.keys (touchedIds log)

section window

open IdempotencyManager IdempotencyUse

variable {m : IdempotencyManager} {clock now : Int} {log : List CacheTouch} {id : EventId}
variable {u : IdempotencyUse}

theorem RecordedWithin.earlier (h : RecordedWithin options log id now) (le : clock ≤ now) :
    RecordedWithin options log id clock := by
  obtain ⟨time, htime, hfresh⟩ := h
  exact ⟨time, htime, by omega⟩

theorem recordingTimes_append (id : EventId) (log log' : List CacheTouch) :
    recordingTimes id (log ++ log') = recordingTimes id log ++ recordingTimes id log' :=
  List.filterMap_append

theorem recordingTimes_touch_of_hit (h : Hits options m u.envelope.eventId u.now)
    (id : EventId) : recordingTimes id (u.touch options m) = [] := by
  rw [touch_of_hit h]
  rfl

/-- An event is recorded at the time of its own use. -/
theorem mem_recordingTimes_touch {time : Int} (h : time ∈ recordingTimes id (u.touch options m)) :
    id = u.envelope.eventId ∧ u.recorded.isSome = true ∧ time = u.now := by
  by_cases hhit : Hits options m u.envelope.eventId u.now
  · rw [recordingTimes_touch_of_hit hhit] at h
    exact absurd h List.not_mem_nil
  · rw [touch_of_miss hhit] at h
    cases hrec : u.recorded with
    | none =>
        rw [hrec] at h
        exact absurd h List.not_mem_nil
    | some ack =>
        rw [hrec] at h
        simp only [recordingTimes, List.filterMap_cons, List.filterMap_nil] at h
        split at h
        · exact absurd h List.not_mem_nil
        · rename_i hid
          split at hid
          · rename_i heq
            cases hid
            exact ⟨heq.symm, rfl, List.mem_singleton.mp h⟩
          · cases hid

/-- In its window an event is found. -/
theorem Window.hits (h : Window options m clock log) (le : clock ≤ now)
    (recorded : RecordedWithin options log id now)
    (others : othersSince id (touchedIds log) < options.capacity) : Hits options m id now := by
  have hretained := h.retained id (recorded.earlier le) others
  obtain ⟨entry, hentry⟩ :=
    Option.isSome_iff_exists.mp (OrderedMap.get?_isSome_iff.mpr hretained.1)
  obtain ⟨time, htime, hfresh⟩ := recorded
  have hlatest := h.latest id entry hentry time htime
  exact ⟨entry, hentry, by omega⟩

/-- Only in the time to live of its recording an event is found. -/
theorem Window.recorded (h : Window options m clock log) (hits : Hits options m id now) :
    RecordedWithin options log id now := by
  obtain ⟨entry, hentry, hfresh⟩ := hits
  obtain ⟨envelope, hmem, hid, -⟩ := h.sourced id entry hentry
  exact ⟨entry.timestamp, hid ▸ mem_recordingTimes hmem, hfresh⟩

theorem othersSince_le_touch (hne : u.envelope.eventId ≠ id) :
    othersSince id (touchedIds log) ≤ othersSince id (touchedIds (log ++ u.touch options m)) := by
  rw [touchedIds, touchedIds, List.map_append, IdempotencyUse.touch]
  split
  · exact othersSince_le_append hne _
  · split
    · exact othersSince_le_append hne _
    · simp

theorem Window.latest_use (h : Window options m clock log) (later : clock ≤ u.now)
    (legal : u.Legal options m) (id : EventId) (entry : IdempotencyEntry)
    (hentry : (u.apply options m).cache.get? id = some entry) :
    ∀ time ∈ recordingTimes id (log ++ u.touch options m), time ≤ entry.timestamp := by
  intro time htime
  rw [recordingTimes_append, List.mem_append] at htime
  by_cases hhit : Hits options m u.envelope.eventId u.now
  · rw [recordingTimes_touch_of_hit hhit] at htime
    cases hrec : u.recorded with
    | some ack => exact absurd hhit (legal (by simp [hrec]))
    | none =>
        simp only [IdempotencyUse.apply, hrec, get?_check_hit hhit] at hentry
        exact h.latest id entry hentry time (htime.resolve_right List.not_mem_nil)
  · have hmiss := check_of_miss u.envelope.payload hhit
    cases hrec : u.recorded with
    | none =>
        simp only [IdempotencyUse.apply, hrec, hmiss, OrderedMap.get?_delete] at hentry
        split at hentry
        · cases hentry
        · refine h.latest id entry hentry time (htime.resolve_right fun hnew => ?_)
          have hsome := (mem_recordingTimes_touch hnew).2.1
          rw [hrec] at hsome
          cases hsome
    | some ack =>
        simp only [IdempotencyUse.apply, hrec, hmiss, IdempotencyManager.recordAck,
          OrderedMap.get?_set] at hentry
        split at hentry
        · rw [Option.some.injEq] at hentry
          subst hentry
          rcases htime with hold | hnew
          · exact (h.past id time hold).trans later
          · exact (mem_recordingTimes_touch hnew).2.2.le
        · rename_i hne
          have hold := get?_evictOldest hentry
          rw [OrderedMap.get?_delete, if_neg hne] at hold
          refine h.latest id entry hold time (htime.resolve_right fun hnew => hne ?_)
          exact (mem_recordingTimes_touch hnew).1

theorem Window.retained_use (h : Window options m clock log) (later : clock ≤ u.now)
    (legal : u.Legal options m) (id : EventId)
    (within : RecordedWithin options (log ++ u.touch options m) id u.now)
    (others : othersSince id (touchedIds (log ++ u.touch options m)) < options.capacity) :
    Retained id (u.apply options m).cache.keys (touchedIds (log ++ u.touch options m)) := by
  by_cases hown : u.envelope.eventId = id
  · subst hown
    rw [touchedIds, List.map_append, ← touchedIds]
    by_cases hhit : Hits options m u.envelope.eventId u.now
    · cases hrec : u.recorded with
      | some ack => exact absurd hhit (legal (by simp [hrec]))
      | none =>
          rw [touch_of_hit hhit]
          simp only [IdempotencyUse.apply, hrec, keys_check_hit _ hhit]
          exact retained_self m.cache.keys_nodup.not_mem_erase _
    · cases hrec : u.recorded with
      | none =>
          -- The event is in its window, so the check cannot miss it.
          rw [touch_of_miss hhit, hrec, List.append_nil] at within others
          exact absurd (h.hits later within others) hhit
      | some ack =>
          have hnew : u.envelope.eventId ∉
              (evictOldest options (m.cache.delete u.envelope.eventId)).keys := by
            intro hmem
            have hdeleted := mem_keys_evictOldest hmem
            simp at hdeleted
          rw [touch_of_miss hhit, hrec]
          simp only [IdempotencyUse.apply, hrec, check_of_miss u.envelope.payload hhit,
            IdempotencyManager.recordAck, OrderedMap.keys_set_of_not_mem hnew]
          exact retained_self hnew _
  · obtain ⟨time, htime, hfresh⟩ := within
    rw [recordingTimes_append, List.mem_append] at htime
    have hold := htime.resolve_right fun hnew => hown (mem_recordingTimes_touch hnew).1.symm
    have hbefore : RecordedWithin options log id clock :=
      RecordedWithin.earlier ⟨time, hold, hfresh⟩ later
    have hretained := h.retained id hbefore (Nat.lt_of_le_of_lt (othersSince_le_touch hown) others)
    exact (Retained.use hretained hown legal).resolve_right (Nat.not_le.mpr others)

/-- Every legal use keeps the window. -/
theorem Window.use (h : Window options m clock log) (later : clock ≤ u.now)
    (legal : u.Legal options m) :
    Window options (u.apply options m) u.now (log ++ u.touch options m) where
  sourced := h.sourced.apply legal
  past := by
    intro id time htime
    rw [recordingTimes_append, List.mem_append] at htime
    rcases htime with hold | hnew
    · exact (h.past id time hold).trans later
    · exact (mem_recordingTimes_touch hnew).2.2.le
  latest := h.latest_use later legal
  retained := h.retained_use later legal

/-- A sweep drops nothing that is in the window. -/
theorem Window.prune (h : Window options m clock log) (later : clock ≤ now) :
    Window options (m.pruneExpired options now).1 now log := by
  obtain ⟨hentries, -⟩ := pruneExpired_entries options m now
  have hsubset : ∀ {id entry}, (m.pruneExpired options now).1.cache.get? id = some entry →
      m.cache.get? id = some entry := by
    intro id entry hentry
    rw [← OrderedMap.mem_entries_iff, hentries] at hentry
    exact OrderedMap.mem_entries_iff.mp ((List.dropWhile_sublist _).subset hentry)
  refine ⟨fun id entry hentry => h.sourced id entry (hsubset hentry),
    fun id time htime => (h.past id time htime).trans later,
    fun id entry hentry => h.latest id entry (hsubset hentry), fun id hwithin hothers => ?_⟩
  have hretained := h.retained id (hwithin.earlier later) hothers
  have hkeys : m.cache.keys = (m.cache.entries.takeWhile fun e =>
      decide (Expired options now e.2)).map Prod.fst ++
        (m.pruneExpired options now).1.cache.keys := by
    rw [OrderedMap.keys, OrderedMap.keys, hentries, ← List.map_append,
      List.takeWhile_append_dropWhile]
  rw [hkeys] at hretained
  refine hretained.suffix fun hdropped => ?_
  obtain ⟨⟨_, entry⟩, hmem, rfl⟩ := List.mem_map.mp hdropped
  obtain ⟨time, htime, hfresh⟩ := hwithin
  have hentry := OrderedMap.mem_entries_iff.mp ((List.takeWhile_sublist _).subset hmem)
  have hlatest := h.latest _ entry hentry time htime
  have hexpired : now - entry.timestamp > options.ttlMs := by
    simpa [Expired] using List.mem_takeWhile_imp hmem
  omega

end window

/-- The window, and the bound of the cache. -/
structure Windowing (options : IdempotencyOptions) (s : IdempotencyTrace) : Prop where
  window : Window options s.manager s.clock s.log
  absent : ∀ id ∈ s.missed, id ∉ s.manager.cache.keys
  size : s.manager.cache.size ≤ options.capacity
  named : "" ∉ s.manager.cache.keys

/-- What is recorded has a name, and was looked for last in vain. -/
def RecordsMissed (s : IdempotencyTrace) : IdempotencyOp → Prop
  | .recordAck envelope _ _ => envelope.eventId ≠ "" ∧ envelope.eventId ∈ s.missed
  | _ => True

instance (s : IdempotencyTrace) (op : IdempotencyOp) : Decidable (s.RecordsMissed op) :=
  match op with
  | .recordAck .. => inferInstanceAs (Decidable (_ ∧ _))
  | .check .. | .pruneExpired _ => isTrue trivial

namespace Windowing

open IdempotencyManager

variable {envelope ack : PulseEventEnvelope} {now : Int}

theorem initial (options : IdempotencyOptions) (clock : Int) :
    Windowing options (initial clock) where
  window :=
    { sourced := fun _ _ h => by cases h
      past := fun _ _ h => absurd h List.not_mem_nil
      latest := fun _ _ h => by cases h
      retained := fun id h => by
        obtain ⟨time, htime, -⟩ := h
        exact absurd htime List.not_mem_nil }
  absent := fun _ h => absurd h List.not_mem_nil
  size := Nat.zero_le _
  named := List.not_mem_nil

theorem check (h : Windowing options s) (later : s.clock ≤ now) :
    Windowing options (s.check options envelope now) := by
  let u : IdempotencyUse := { envelope, now, recorded := none }
  have hwindow := h.window.use (u := u) later (fun hsome => by cases hsome)
  by_cases hhit : Hits options s.manager envelope.eventId now
  · have hduplicate := (check_isDuplicate_iff envelope.payload).mpr hhit
    have hkeys := keys_check_hit envelope.payload hhit
    have hmem : envelope.eventId ∈ s.manager.cache.keys := by
      obtain ⟨entry, hentry, -⟩ := hhit
      exact OrderedMap.mem_keys_of_get? hentry
    have hsame : ∀ id, id ∈ (s.manager.check options envelope.eventId envelope.payload
        now).1.cache.keys ↔ id ∈ s.manager.cache.keys := by
      intro id
      rw [hkeys, List.mem_append, List.mem_singleton]
      by_cases hid : id = envelope.eventId
      · exact iff_of_true (Or.inr hid) (hid ▸ hmem)
      · rw [List.mem_erase_of_ne hid, or_iff_left hid]
    rw [IdempotencyUse.touch_of_hit hhit] at hwindow
    refine ⟨?_, ?_, ?_, ?_⟩
    · simp only [IdempotencyTrace.check, hduplicate, if_true]
      exact hwindow
    · intro id hid
      simp only [IdempotencyTrace.check, hduplicate, if_true, List.mem_filter] at hid
      exact fun hkey => h.absent id hid.1 ((hsame id).mp hkey)
    · refine Nat.le_trans (Nat.le_of_eq ?_) h.size
      show (s.manager.check options envelope.eventId envelope.payload now).1.cache.size = _
      rw [← OrderedMap.keys_length, hkeys, List.length_append, List.length_singleton,
        List.length_erase_add_one hmem, OrderedMap.keys_length]
    · exact fun hkey => h.named ((hsame "").mp hkey)
  · have hmiss : (s.manager.check options envelope.eventId envelope.payload
        now).2.isDuplicate = false :=
      Bool.eq_false_iff.mpr fun hduplicate => hhit ((check_isDuplicate_iff _).mp hduplicate)
    have hkeys := keys_check_miss envelope.payload hhit
    rw [IdempotencyUse.touch_of_miss hhit, List.append_nil] at hwindow
    refine ⟨?_, ?_, ?_, ?_⟩
    · simp only [IdempotencyTrace.check, hmiss]
      exact hwindow
    · intro id hid hkey
      have herased : id ∈ s.manager.cache.keys.erase envelope.eventId := hkeys ▸ hkey
      simp only [IdempotencyTrace.check, hmiss, Bool.false_eq_true, if_false] at hid
      rcases List.mem_cons.mp hid with rfl | hmissed
      · exact s.manager.cache.keys_nodup.not_mem_erase herased
      · exact h.absent id hmissed (List.mem_of_mem_erase herased)
    · refine Nat.le_trans ?_ h.size
      show (s.manager.check options envelope.eventId envelope.payload now).1.cache.size ≤ _
      rw [← OrderedMap.keys_length, hkeys, ← OrderedMap.keys_length]
      exact List.length_erase_le
    · intro hkey
      have herased : "" ∈ s.manager.cache.keys.erase envelope.eventId := hkeys ▸ hkey
      exact h.named (List.mem_of_mem_erase herased)

/-- Making room for a new entry keeps the bound, since the oldest entry has a name. -/
theorem size_recordAck (positive : 1 ≤ options.capacity) (h : Windowing options s)
    (ack : PulseEventEnvelope) (new : envelope.eventId ∉ s.manager.cache.keys) (now : Int) :
    (s.manager.recordAck options envelope.eventId ack envelope.payload now).cache.size ≤
      options.capacity := by
  have hnew : envelope.eventId ∉ (evictOldest options s.manager.cache).keys :=
    fun hmem => new (mem_keys_evictOldest hmem)
  rw [IdempotencyManager.recordAck, OrderedMap.size_set_of_not_mem hnew]
  by_cases hfull : s.manager.cache.size ≥ options.capacity
  · have hlength := OrderedMap.keys_length s.manager.cache
    cases hkeys : s.manager.cache.keys with
    | nil =>
        rw [hkeys, List.length_nil] at hlength
        omega
    | cons oldest rest =>
        have holdest : oldest ≠ "" := fun heq =>
          h.named (by rw [hkeys, heq]; exact List.mem_cons_self)
        have hmem : oldest ∈ s.manager.cache.keys := by
          rw [hkeys]
          exact List.mem_cons_self
        have hdeleted := OrderedMap.size_delete_of_mem hmem
        have hsize := h.size
        simp only [evictOldest, if_pos hfull, hkeys, List.head?_cons, if_neg holdest]
        omega
  · rw [evictOldest, if_neg hfull]
    omega

theorem recordAck (positive : 1 ≤ options.capacity) (h : Windowing options s)
    (later : s.clock ≤ now) (missed : s.RecordsMissed (.recordAck envelope ack now)) :
    Windowing options (s.recordAck options envelope ack now) := by
  obtain ⟨hname, hmissed⟩ := missed
  have hnew := h.absent _ hmissed
  have hmiss : ¬ Hits options s.manager envelope.eventId now := by
    rintro ⟨entry, hentry, -⟩
    exact hnew (OrderedMap.mem_keys_of_get? hentry)
  let u : IdempotencyUse := { envelope, now, recorded := some ack }
  have hwindow := h.window.use (u := u) later (fun _ => hmiss)
  have hsubset : ∀ id, id ∈ (s.manager.recordAck options envelope.eventId ack envelope.payload
      now).cache.keys → id = envelope.eventId ∨ id ∈ s.manager.cache.keys := by
    intro id hid
    rw [IdempotencyManager.recordAck, OrderedMap.mem_keys_set] at hid
    exact hid.imp_right mem_keys_evictOldest
  refine ⟨?_, ?_, h.size_recordAck positive ack hnew now, ?_⟩
  · have happly : u.apply options s.manager =
        s.manager.recordAck options envelope.eventId ack envelope.payload now := by
      simp only [u, IdempotencyUse.apply, check_of_miss envelope.payload hmiss,
        OrderedMap.delete_of_not_mem hnew]
    rw [happly, IdempotencyUse.touch_of_miss hmiss] at hwindow
    exact hwindow
  · intro id hid hkey
    obtain ⟨hold, hne⟩ := List.mem_filter.mp hid
    rcases hsubset id hkey with rfl | hbefore
    · exact of_decide_eq_true hne rfl
    · exact h.absent id hold hbefore
  · intro hkey
    rcases hsubset "" hkey with heq | hbefore
    · exact hname heq.symm
    · exact h.named hbefore

theorem prune (h : Windowing options s) (later : s.clock ≤ now) :
    Windowing options
      { s with manager := (s.manager.pruneExpired options now).1, clock := now } := by
  obtain ⟨hentries, -⟩ := pruneExpired_entries options s.manager now
  have hsublist : ((s.manager.pruneExpired options now).1.cache.keys).Sublist
      s.manager.cache.keys := by
    rw [OrderedMap.keys, hentries]
    exact (List.dropWhile_sublist _).map _
  refine ⟨h.window.prune later, fun id hid hkey => h.absent id hid (hsublist.subset hkey), ?_,
    fun hkey => h.named (hsublist.subset hkey)⟩
  refine Nat.le_trans ?_ h.size
  rw [← OrderedMap.keys_length, ← OrderedMap.keys_length]
  exact hsublist.length_le

theorem step (positive : 1 ≤ options.capacity) (h : Windowing options s)
    (hstep : s.step options op = some t) (missed : s.RecordsMissed op) :
    Windowing options t := by
  simp only [IdempotencyTrace.step, Option.ite_none_right_eq_some, Option.some.injEq] at hstep
  obtain ⟨hlater, rfl⟩ := hstep
  cases op with
  | check envelope now => exact h.check hlater
  | recordAck envelope ack now => exact h.recordAck positive hlater missed
  | pruneExpired now => exact h.prune hlater

end Windowing

/-- The cache stays within its capacity. It finds an event that was recorded within the time to
live, unless as many distinct other events as it holds were recorded or hit since it was used
last; and it finds no other event. -/
def Exact (options : IdempotencyOptions) (s : IdempotencyTrace) : Prop :=
  s.manager.cache.size ≤ options.capacity ∧ ∀ (envelope : PulseEventEnvelope) (now : Int),
    s.clock ≤ now →
      (RecordedWithin options s.log envelope.eventId now →
        othersSince envelope.eventId (touchedIds s.log) < options.capacity →
          (s.manager.check options envelope.eventId envelope.payload now).2.isDuplicate = true) ∧
      ((s.manager.check options envelope.eventId envelope.payload now).2.isDuplicate = true →
        RecordedWithin options s.log envelope.eventId now)

/-- Over whole traces: the cache finds precisely what is in its window. -/
theorem idempotency_window {options : IdempotencyOptions} (positive : 1 ≤ options.capacity)
    {clock : Int} {ops : List IdempotencyOp}
    (missed : EveryStep (step options) (fun s op _ => s.RecordsMissed op) (initial clock) ops) :
    Always (step options) (Exact options) (initial clock) ops := by
  have hwindowing : Always (step options) (Windowing options) (initial clock) ops :=
    always_of_everyStep (fun _ _ _ h hstep hmissed => h.step positive hstep hmissed)
      (Windowing.initial options clock) missed
  refine hwindowing.mono fun s hs => ⟨hs.size, fun envelope now hlater => ⟨?_, ?_⟩⟩
  · intro hrecorded hothers
    exact (IdempotencyManager.check_isDuplicate_iff _).mpr
      (hs.window.hits hlater hrecorded hothers)
  · intro hduplicate
    exact hs.window.recorded ((IdempotencyManager.check_isDuplicate_iff _).mp hduplicate)

/-- The oldest event is used again, and stands behind a younger one when it expires. -/
def usedAgainOps : List IdempotencyOp :=
  let event (id : EventId) : PulseEventEnvelope :=
    { eventId := id, type := .roomMessage, timestamp := .ofInt 0, senderId := "alice",
      payload := [] }
  [.check (event "e1") 0, .recordAck (event "e1") (event "ack") 0, .check (event "e2") 50000,
    .recordAck (event "e2") (event "ack") 50000, .check (event "e1") 55000]

theorem idempotency_window_used_again :
    Always (step { digest := id, capacity := 1 }) (Exact { digest := id, capacity := 1 })
      (initial 0) usedAgainOps :=
  idempotency_window (by decide) (by decide +kernel)

theorem prune_leaves_expired :
    ¬ ∀ (options : IdempotencyOptions) (clock : Int) (ops : List IdempotencyOp),
      EveryStep (step options) (fun s op _ => s.Sweeps options op) (initial clock) ops := by
  intro h
  have hrun : (run (step { digest := id }) (initial 0) usedAgainOps).any (fun s =>
      (s.step { digest := id } (.pruneExpired 61000)).any fun _ =>
        !decide (s.manager.ExpiredFirst { digest := id } 61000)) = true := by
    decide +kernel
  refine not_everyStep_of_run ?_ hrun (h _ 0 (usedAgainOps ++ [.pruneExpired 61000]))
  intro s _ hunordered hsweeps
  rw [Bool.not_eq_true', decide_eq_false_iff_not] at hunordered
  exact hunordered (sweeps_iff.mp hsweeps)

end IdempotencyTrace

end Pulse
