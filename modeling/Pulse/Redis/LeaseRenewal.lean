import Pulse.Redis.PresenceLeases
import Pulse.Transition.Run

/-!
# Lease renewal

A node renews the leases of all its connections in one pipeline. The pipeline is built
in a loop, and a user id that yields no key leaves the loop: nothing is sent then, and
the leases of all other connections run out too. A call which finds another one waiting
for its pipeline is skipped. The calls may come in any order with the executions of
their pipelines and with the commands of other nodes.
-/

namespace Pulse

open Collections Js Transition

structure FlushCall where
  active : List (UserId × ConnectionId)
  nowMs : ℚ
  /-- Whether the call came while an earlier one was waiting for its pipeline. -/
  overlaps : Bool

/-- A call which returned, with the store at that time. -/
structure Flushed where
  call : FlushCall
  /-- The instant at which Redis executed the pipeline, if there was one. -/
  now : ℚ
  store : PresenceStore
  renewedLeases : Nat

/-- A node whose calls of `flushLeaseRenewals` overlap, and the store it renews leases in. -/
structure Renewing where
  manager : PresenceManager
  store : PresenceStore := {}
  awaiting : List (FlushCall × PendingFlush) := []
  returned : List Flushed := []

inductive RenewalEvent
  | flushLeaseRenewals (active : List (UserId × ConnectionId)) (nowMs : ℚ)
  /-- Redis executes the pipeline that was sent first. -/
  | executed (now : ℚ)
  /-- Redis does not. -/
  | rejected
  /-- A command of another call, of this manager or of another. -/
  | op (op : PresenceOp)

namespace Renewing

def step (options : PresenceManagerOptions) (r : Renewing) : RenewalEvent → Option Renewing
  | .flushLeaseRenewals active nowMs =>
      let call : FlushCall := { active, nowMs, overlaps := r.awaiting ≠ [] }
      match r.manager.flushLeaseRenewals options active nowMs with
      | (manager, .returned renewedLeases) =>
          some { r with
            manager
            returned := r.returned ++ [{ call, now := nowMs, store := r.store, renewedLeases }] }
      | (manager, .awaits flush) =>
          some { r with manager, awaiting := r.awaiting ++ [(call, flush)] }
  | .executed now =>
      match r.awaiting with
      | [] => none
      | (call, flush) :: awaiting =>
          let (manager, renewedLeases) := r.manager.resumeFlush flush true
          let store := r.store.execRenewals options flush.expireAt flush.leases now
          some {
            manager, store, awaiting
            returned := r.returned ++ [{ call, now, store, renewedLeases }] }
  | .rejected =>
      match r.awaiting with
      | [] => none
      | (_, flush) :: awaiting =>
          some { r with manager := (r.manager.resumeFlush flush false).1, awaiting }
  | .op op => some { r with store := (r.store.step options op).1 }

end Renewing

/-- Every connection of a user with an id that is not blank has its lease renewed and the key of
its user extended, and the result counts these connections. -/
structure Flushed.Renews (options : PresenceManagerOptions) (instanceId : String) (f : Flushed) :
    Prop where
  lease : ∀ conn ∈ f.call.active, trim conn.1 ≠ "" →
    ∀ t < keyDeadline f.now options.keySafeguardTtlSec,
      (f.store.users (PRESENCE_USER_KEY_PREFIX ++ trim conn.1)).score? t
        (instanceId ++ ":" ++ conn.2) = some (f.call.nowMs + options.presenceTtlMs)
  key : ∀ conn ∈ f.call.active, trim conn.1 ≠ "" →
    (f.store.users (PRESENCE_USER_KEY_PREFIX ++ trim conn.1)).expireAt =
      some (keyDeadline f.now options.keySafeguardTtlSec)
  count : f.renewedLeases = f.call.active.countP fun conn => trim conn.1 ≠ ""

/-- The connections of a call can all be named by keys, and it is not skipped; or no user of a
connection can. -/
def FlushCall.Nameable (instanceId : String) (call : FlushCall) : Prop :=
  (∀ conn ∈ call.active, trim conn.1 = "") ∨
    call.overlaps = false ∧ instanceId ≠ "" ∧
      ∀ conn ∈ call.active, trim conn.1 ≠ "" ∧ conn.2 ≠ ""

namespace PresenceStore

variable {options : PresenceManagerOptions} {s : PresenceStore} {instanceId : String}
variable {active : List (UserId × ConnectionId)} {now : ℚ} {expireAt deadline : Score}

section pipeline

/-- The ZADDs of one pipeline have one score, so a later one undoes none before it. -/
theorem score?_addLeases_of_score? {key member : String} {leases : List (String × String)}
    (h : (s.users key).score? now member = some expireAt) :
    ((s.addLeases now expireAt leases).users key).score? now member = some expireAt := by
  induction leases generalizing s with
  | nil => exact h
  | cons lease leases ih =>
      apply ih
      by_cases hkey : key = lease.1
      · subst hkey
        rw [setUser_users_self, SortedSet.score?_zadd]
        split
        · rfl
        · exact h
      · rw [setUser_users_ne hkey]
        exact h

theorem score?_addLeases_of_mem {lease : String × String} {leases : List (String × String)}
    (h : lease ∈ leases) :
    ((s.addLeases now expireAt leases).users lease.1).score? now lease.2 = some expireAt := by
  induction leases generalizing s with
  | nil => cases h
  | cons first leases ih =>
      obtain rfl | hrest := List.mem_cons.mp h
      · have hwritten : ((s.setUser lease.1 ((s.users lease.1).zadd now lease.2 expireAt)).users
            lease.1).score? now lease.2 = some expireAt := by
          rw [setUser_users_self, SortedSet.score?_zadd, if_pos rfl]
        exact score?_addLeases_of_score? (s := s.setUser lease.1 _) hwritten
      · exact ih hrest

/-- The key of every lease is extended, after all its ZADDs. -/
theorem pipeline_users_of_mem {lease : String × String} {leases : List (String × String)}
    (h : lease ∈ leases) :
    ((s.addLeases now expireAt leases).expireKeys now deadline
      ((leases.map Prod.fst).foldl OrderedSet.insert ∅).toList).users lease.1 =
        ((s.addLeases now expireAt leases).users lease.1).expire now deadline := by
  have htouched : lease.1 ∈ (leases.map Prod.fst).foldl OrderedSet.insert ∅ :=
    OrderedSet.mem_foldl_insert.mpr (Or.inr (List.mem_map_of_mem h))
  rw [expireKeys_users (OrderedSet.nodup _), if_pos (OrderedSet.mem_def.mp htouched)]

theorem score?_pipeline_of_mem {lease : String × String} {leases : List (String × String)}
    {t : Score} (h : lease ∈ leases) (ht : t < deadline) :
    (((s.addLeases now expireAt leases).expireKeys now deadline
      ((leases.map Prod.fst).foldl OrderedSet.insert ∅).toList).users lease.1).score? t lease.2 =
        some expireAt := by
  rw [pipeline_users_of_mem h, SortedSet.score?_expire, if_pos ht, score?_addLeases_of_mem h]

theorem expireAt_pipeline_of_mem {lease : String × String} {leases : List (String × String)}
    (h : lease ∈ leases) :
    (((s.addLeases now expireAt leases).expireKeys now deadline
      ((leases.map Prod.fst).foldl OrderedSet.insert ∅).toList).users lease.1).expireAt =
        some deadline := by
  rw [pipeline_users_of_mem h, SortedSet.expire]
  split
  case isTrue hempty =>
    -- the key has the lease, so EXPIRE finds it
    have hread : ((s.addLeases now expireAt leases).users lease.1).score? now lease.2 =
        some expireAt := score?_addLeases_of_mem h
    rw [SortedSet.score?, OrderedMap.get?_of_size_eq_zero hempty] at hread
    cases hread
  case isFalse => rfl

end pipeline

section naming

variable {userId : UserId} {connectionId : ConnectionId}

theorem leaseKey_eq_ok_iff {key : String × String} :
    leaseKey instanceId userId connectionId = .ok key ↔
      trim userId ≠ "" ∧ instanceId ≠ "" ∧ connectionId ≠ "" ∧
        key = (PRESENCE_USER_KEY_PREFIX ++ trim userId, instanceId ++ ":" ++ connectionId) := by
  constructor
  · intro h
    have hkey := leaseKey_ok h
    refine ⟨?_, ?_, ?_, hkey⟩
    · intro hblank
      rw [leaseKey_of_blank hblank] at h
      cases h
    · intro hempty
      cases huser : getPresenceUserKey userId with
      | error message => simp [leaseKey, huser, bind, Except.bind] at h
      | ok userKey =>
          simp [leaseKey, huser, formatPresenceMember, hempty, bind, Except.bind] at h
    · intro hempty
      cases huser : getPresenceUserKey userId with
      | error message => simp [leaseKey, huser, bind, Except.bind] at h
      | ok userKey =>
          simp [leaseKey, huser, formatPresenceMember, hempty, bind, Except.bind] at h
  · rintro ⟨hblack, hinstance, hconn, rfl⟩
    rw [leaseKey, getPresenceUserKey, if_neg hblack, formatPresenceMember,
      if_neg (not_or.mpr ⟨hinstance, hconn⟩)]
    rfl

/-- The loop comes to its end when every entry has a key. -/
theorem exists_mapM_leaseKey_iff :
    (∃ leases, active.mapM (fun conn => leaseKey instanceId conn.1 conn.2) = .ok leases) ↔
      ∀ conn ∈ active, ∃ key, leaseKey instanceId conn.1 conn.2 = .ok key := by
  induction active with
  | nil => exact ⟨fun _ conn h => absurd h List.not_mem_nil, fun _ => ⟨[], rfl⟩⟩
  | cons conn active ih =>
      rw [List.forall_mem_cons, ← ih, List.mapM_cons]
      cases leaseKey instanceId conn.1 conn.2 with
      | error message => simp [bind, Except.bind]
      | ok key =>
          cases active.mapM fun conn => leaseKey instanceId conn.1 conn.2 with
          | error message => simp [bind, Except.bind]
          | ok keys => simp [bind, Except.bind, pure, Except.pure]

end naming

/-- The leases of a pipeline are those of its connections. -/
theorem mem_leases {leases : List (String × String)}
    (hleases : (active.mapM fun conn => leaseKey instanceId conn.1 conn.2) = .ok leases)
    {conn : UserId × ConnectionId} (hconn : conn ∈ active) :
    (PRESENCE_USER_KEY_PREFIX ++ trim conn.1, instanceId ++ ":" ++ conn.2) ∈ leases := by
  rw [mapM_leaseKey_ok hleases, List.map_map]
  exact List.mem_map_of_mem hconn

end PresenceStore

open PresenceStore

variable {options : PresenceManagerOptions} {instanceId : String} {f : Flushed}

namespace Flushed

/-- A call in which no user has a key: there is nothing to renew. -/
theorem renews_of_blank (h : ∀ conn ∈ f.call.active, trim conn.1 = "")
    (hcount : f.renewedLeases = 0) : f.Renews options instanceId := by
  constructor
  case lease => exact fun conn hconn hblack => absurd (h conn hconn) hblack
  case key => exact fun conn hconn hblack => absurd (h conn hconn) hblack
  case count =>
    rw [hcount]
    refine (List.countP_eq_zero.mpr fun conn hconn => ?_).symm
    simp [h conn hconn]

/-- A call that renewed nothing met its purpose only when no user has a key. -/
theorem renews_iff_of_zero (hcount : f.renewedLeases = 0) :
    f.Renews options instanceId ↔ ∀ conn ∈ f.call.active, trim conn.1 = "" := by
  refine ⟨fun renews conn hconn => ?_, fun h => renews_of_blank h hcount⟩
  have hzero := List.countP_eq_zero.mp (renews.count.symm.trans hcount) conn hconn
  simpa using hzero

/-- A call whose pipeline Redis executed. -/
theorem renews_of_executed {s : PresenceStore} {leases : List (String × String)}
    (hleases : (f.call.active.mapM fun conn => leaseKey instanceId conn.1 conn.2) = .ok leases)
    (hstore : f.store = s.execRenewals options (f.call.nowMs + options.presenceTtlMs) leases f.now)
    (hcount : f.renewedLeases = f.call.active.length)
    (named : ∀ conn ∈ f.call.active, trim conn.1 ≠ "") : f.Renews options instanceId := by
  constructor
  case lease =>
    intro conn hconn _ t ht
    rw [hstore]
    exact score?_pipeline_of_mem (mem_leases hleases hconn) ht
  case key =>
    intro conn hconn _
    rw [hstore]
    exact expireAt_pipeline_of_mem (mem_leases hleases hconn)
  case count =>
    rw [hcount]
    refine (List.countP_eq_length.mpr fun conn hconn => ?_).symm
    exact decide_eq_true (named conn hconn)

end Flushed

/-- A pipeline is built when and only when all connections have keys. -/
theorem mapM_leaseKey_isOk_iff {active : List (UserId × ConnectionId)} (hactive : active ≠ []) :
    (∃ leases, active.mapM (fun conn => leaseKey instanceId conn.1 conn.2) = .ok leases) ↔
      instanceId ≠ "" ∧ ∀ conn ∈ active, trim conn.1 ≠ "" ∧ conn.2 ≠ "" := by
  rw [exists_mapM_leaseKey_iff]
  constructor
  · intro hkeys
    have hnamed : ∀ conn ∈ active, trim conn.1 ≠ "" ∧ instanceId ≠ "" ∧ conn.2 ≠ "" := by
      intro conn hconn
      obtain ⟨key, hkey⟩ := hkeys conn hconn
      obtain ⟨hblack, hinstance, hid, -⟩ := leaseKey_eq_ok_iff.mp hkey
      exact ⟨hblack, hinstance, hid⟩
    obtain ⟨first, hfirst⟩ := List.exists_mem_of_ne_nil active hactive
    exact ⟨(hnamed first hfirst).2.1, fun conn hconn =>
      ⟨(hnamed conn hconn).1, (hnamed conn hconn).2.2⟩⟩
  · rintro ⟨hinstance, hids⟩ conn hconn
    exact ⟨_, leaseKey_eq_ok_iff.mpr ⟨(hids conn hconn).1, hinstance, (hids conn hconn).2, rfl⟩⟩

/-- A call that is not skipped, and is executed at once, is the step of the store. -/
theorem step_flushLeaseRenewals_of_idle {m : PresenceManager} (idle : m.isFlushing = false)
    (s : PresenceStore) (active : List (UserId × ConnectionId)) (now : ℚ) :
    (s.step options ⟨m.instanceId, now, .flushLeaseRenewals active⟩).1 =
      match (m.flushLeaseRenewals options active now).2 with
      | .returned _ => s
      | .awaits flush => s.execRenewals options flush.expireAt flush.leases now := by
  rw [PresenceManager.flushLeaseRenewals, idle]
  by_cases hactive : active = []
  · simp [PresenceStore.step, perform, renewLeases, hactive, Except.map]
  · cases hleases : active.mapM fun conn => leaseKey m.instanceId conn.1 conn.2 with
    | error message =>
        simp [PresenceStore.step, perform, renewLeases, hactive, hleases, bind, Except.bind,
          Except.map]
    | ok leases =>
        simp [PresenceStore.step, perform, renewLeases, hactive, hleases, bind, Except.bind, pure,
          Except.pure, Except.map]

/-- What a call waits for is the pipeline of its own connections. -/
structure FlushCall.Awaits (options : PresenceManagerOptions) (instanceId : String)
    (call : FlushCall) (flush : PendingFlush) : Prop where
  alone : call.overlaps = false
  nonempty : call.active ≠ []
  leases : (call.active.mapM fun conn => leaseKey instanceId conn.1 conn.2) = .ok flush.leases
  expireAt : flush.expireAt = call.nowMs + options.presenceTtlMs
  count : flush.activeConnections = call.active.length

namespace Renewing

variable {r t : Renewing}

/-- The flag is set while a call waits for its pipeline, and one at most does. -/
structure Exclusive (options : PresenceManagerOptions) (instanceId : String) (r : Renewing) :
    Prop where
  manager : r.manager = { instanceId, isFlushing := r.awaiting ≠ [] }
  single : r.awaiting.length ≤ 1
  awaiting : ∀ p ∈ r.awaiting, p.1.Awaits options instanceId p.2
  returned : ∀ f ∈ r.returned, f.Renews options instanceId ↔ f.call.Nameable instanceId

namespace Exclusive

theorem return_mem (h : Exclusive options instanceId r) {f g : Flushed}
    (hf : f.Renews options instanceId ↔ f.call.Nameable instanceId)
    (hg : g ∈ r.returned ++ [f]) : g.Renews options instanceId ↔ g.call.Nameable instanceId := by
  obtain hold | hnew := List.mem_append.mp hg
  · exact h.returned g hold
  · rw [List.mem_singleton.mp hnew]
    exact hf

theorem nil_of_cons {p : FlushCall × PendingFlush} {rest : List (FlushCall × PendingFlush)}
    (h : Exclusive options instanceId r) (hawaiting : r.awaiting = p :: rest) : rest = [] := by
  have hsingle := h.single
  rw [hawaiting, List.length_cons] at hsingle
  exact List.eq_nil_of_length_eq_zero (by omega)

theorem flush (h : Exclusive options instanceId r) {active : List (UserId × ConnectionId)}
    {nowMs : ℚ} (hstep : r.step options (.flushLeaseRenewals active nowMs) = some t) :
    Exclusive options instanceId t := by
  have hmanager := h.manager
  simp only [step, PresenceManager.flushLeaseRenewals, hmanager] at hstep
  by_cases hawaiting : r.awaiting = []
  · simp only [hawaiting, ne_eq, not_true_eq_false, decide_false, Bool.false_eq_true,
      if_false] at hstep
    by_cases hactive : active = []
    · rw [if_pos hactive] at hstep
      cases hstep
      refine ⟨rfl, Nat.zero_le _, fun p hp => absurd hp List.not_mem_nil, fun g hg =>
        h.return_mem ?_ hg⟩
      have hblank : ∀ conn ∈ active, trim conn.1 = "" := by simp [hactive]
      exact iff_of_true (Flushed.renews_of_blank hblank rfl) (.inl hblank)
    · rw [if_neg hactive] at hstep
      cases hleases : active.mapM fun conn => leaseKey instanceId conn.1 conn.2 with
      | error message =>
          rw [hleases] at hstep
          cases hstep
          refine ⟨rfl, Nat.zero_le _, fun p hp => absurd hp List.not_mem_nil, fun g hg =>
            h.return_mem ?_ hg⟩
          rw [Flushed.renews_iff_of_zero rfl, FlushCall.Nameable]
          refine ⟨.inl, fun hnameable => hnameable.elim id fun hnamed => ?_⟩
          obtain ⟨leases, hok⟩ := (mapM_leaseKey_isOk_iff hactive).mpr hnamed.2
          rw [hleases] at hok
          cases hok
      | ok leases =>
          rw [hleases] at hstep
          cases hstep
          refine ⟨rfl, Nat.le_refl 1, fun p hp => ?_, h.returned⟩
          cases List.mem_singleton.mp hp
          exact ⟨rfl, hactive, hleases, rfl, rfl⟩
  · -- the flag is set: the call is skipped, whatever its connections are
    simp only [ne_eq, hawaiting, not_false_eq_true, decide_true, if_true] at hstep
    cases hstep
    refine ⟨by simp [hawaiting], h.single, h.awaiting, fun g hg => h.return_mem ?_ hg⟩
    rw [Flushed.renews_iff_of_zero rfl, FlushCall.Nameable]
    exact ⟨.inl, fun hnameable => hnameable.elim id fun hnamed => by cases hnamed.1⟩

theorem executed (h : Exclusive options instanceId r) {now : ℚ}
    (hstep : r.step options (.executed now) = some t) : Exclusive options instanceId t := by
  rw [step] at hstep
  split at hstep
  · cases hstep
  · rename_i call flush rest hawaiting
    cases hstep
    have awaits := h.awaiting (call, flush) (by rw [hawaiting]; exact List.mem_cons_self)
    have hrest := h.nil_of_cons hawaiting
    refine ⟨?_, ?_, fun p hp => ?_, fun g hg => h.return_mem ?_ hg⟩
    · simp [h.manager, hrest]
    · rw [hrest]
      exact Nat.zero_le _
    · rw [hrest] at hp
      cases hp
    · have hnamed := (mapM_leaseKey_isOk_iff awaits.nonempty).mp ⟨_, awaits.leases⟩
      refine iff_of_true ?_ (.inr ⟨awaits.alone, hnamed⟩)
      refine Flushed.renews_of_executed awaits.leases (s := r.store) ?_ awaits.count
        fun conn hconn => (hnamed.2 conn hconn).1
      rw [awaits.expireAt]

theorem step {e : RenewalEvent} (h : Exclusive options instanceId r)
    (hstep : r.step options e = some t) : Exclusive options instanceId t := by
  cases e with
  | flushLeaseRenewals active nowMs => exact h.flush hstep
  | executed now => exact h.executed hstep
  | rejected =>
      rw [Renewing.step] at hstep
      split at hstep
      · cases hstep
      · rename_i call flush rest hawaiting
        cases hstep
        have hrest := h.nil_of_cons hawaiting
        subst hrest
        refine ⟨?_, Nat.zero_le _, fun p hp => absurd hp List.not_mem_nil, h.returned⟩
        simp [PresenceManager.resumeFlush, h.manager]
  | op op =>
      cases hstep
      exact ⟨h.manager, h.single, h.awaiting, h.returned⟩

end Exclusive

/-- In every run, a call which returned has renewed the leases of its connections when and only
when it did not overlap an earlier one and all of them can be named by keys, or no user of them
can. -/
theorem flush_renews_iff (options : PresenceManagerOptions) (instanceId : String)
    (es : List RenewalEvent) :
    Always (step options) (fun r => ∀ f ∈ r.returned,
      f.Renews options instanceId ↔ f.call.Nameable instanceId)
      { manager := { instanceId } } es := by
  have initial : Exclusive options instanceId { manager := { instanceId } } :=
    ⟨rfl, Nat.zero_le _, fun p hp => absurd hp List.not_mem_nil,
      fun f hf => absurd hf List.not_mem_nil⟩
  have preserved : ∀ r e t, Exclusive options instanceId r → step options r e = some t →
      Exclusive options instanceId t := fun _ _ _ h hstep => h.step hstep
  exact (always_of_invariant preserved initial es).mono fun r h => h.returned

/-- A user with a blank id takes the lease of another user with it. -/
theorem blank_user_stops_renewal :
    ∃ r, run (step {}) { manager := { instanceId := "node-a" } }
        [.flushLeaseRenewals [("alice", "c1"), (" ", "c2")] 0] = some r ∧
      r.store = {} ∧ ∃ f ∈ r.returned, f.renewedLeases = 0 ∧ ¬ f.Renews {} "node-a" := by
  have hkeys : ([("alice", "c1"), (" ", "c2")].mapM fun conn =>
      leaseKey "node-a" conn.1 conn.2) = .error "Invalid userId provided for presence key" := by
    decide +kernel
  have hflush : PresenceManager.flushLeaseRenewals {} { instanceId := "node-a" }
      [("alice", "c1"), (" ", "c2")] 0 = ({ instanceId := "node-a" }, .returned 0) := by
    rw [PresenceManager.flushLeaseRenewals, if_neg (by decide), if_neg (List.cons_ne_nil _ _)]
    simp only [hkeys]
  refine ⟨_, by rw [run_cons, step, hflush]; rfl, rfl, _, List.mem_singleton_self _, rfl, ?_⟩
  rw [Flushed.renews_iff_of_zero rfl]
  exact fun blank => absurd (blank ("alice", "c1") List.mem_cons_self) (by decide +kernel)

end Renewing

end Pulse
