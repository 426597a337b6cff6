import Pulse.Core.PresenceOrder
import Pulse.Core.PresenceUpdates
import Pulse.Redis.PresenceLeases

/-!
# Presence transitions

The calls which register and remove the connections of one user, made by the presence
managers of any number of nodes. A call is suspended twice: Redis runs its script, which
decides whether the user came online or went offline, and later counts the leases; only
when the count is back does the node stamp and publish the update. Between the script
and the stamp other calls run, so the stamps need not be in the order of the decisions.
The newest update is right as long as they are.
-/

namespace Pulse

open Collections Js Transition

/-- How far a call has come. -/
inductive CallStage
  | issued
  /-- The script has run; `transition` is its result. -/
  | executed (transition : Nat)
  /-- The leases have been counted. -/
  | counted (transition activeConnections : Nat)
  | settled
  deriving DecidableEq, Repr

/-- A call of `registerConnection` or `removeConnection`. -/
structure PresenceManagerCall where
  instanceId : String
  connectionId : ConnectionId
  /-- What the user is if the script reports a transition. -/
  status : PresenceStatus
  /-- The clock when the call was made. -/
  now : Int
  stage : CallStage := .issued

namespace PresenceManagerCall

/-- The script of a call. -/
def script (u : UserId) (c : PresenceManagerCall) : PresenceOp :=
  { instanceId := c.instanceId
    now := c.now
    call := match c.status with
      | .online => .registerConnection u c.connectionId
      | .offline => .removeConnection u c.connectionId }

/-- What follows the script. -/
def counting (u : UserId) (c : PresenceManagerCall) : PresenceOp :=
  { instanceId := c.instanceId, now := c.now, call := .getUserConnectionCount u }

end PresenceManagerCall

/-- The calls about one user and what they share. -/
structure PresenceCalls where
  store : PresenceStore := {}
  clock : Int := 0
  calls : List PresenceManagerCall := []
  /-- The calls whose scripts reported a transition, in the order in which Redis ran them. -/
  transitions : List Nat := []
  /-- The published updates, each with the call it stems from. -/
  published : List (Nat × PulseEventEnvelope) := []

inductive PresenceCallsEvent
  | wait (ms : Nat)
  | issue (status : PresenceStatus) (instanceId : String) (connectionId : ConnectionId)
  /-- Redis runs the script of the `i`-th call. -/
  | execute (i : Nat)
  | count (i : Nat)
  /-- The answer to the count reaches the node. -/
  | answer (i : Nat) (rooms : Option (List RoomId)) (eventId : EventId)

namespace PresenceCalls

def setStage (s : PresenceCalls) (i : Nat) (c : PresenceManagerCall) (stage : CallStage) :
    PresenceCalls :=
  { s with calls := s.calls.set i { c with stage } }

/-- The script answers; a call which fails is over. -/
def executed (s : PresenceCalls) (i : Nat) (c : PresenceManagerCall) :
    PresenceStore × PresenceReply → PresenceCalls
  | (store, .transition result) =>
      { s.setStage i c (.executed result) with
        store
        transitions := if result = 1 then s.transitions ++ [i] else s.transitions }
  | (store, _) => { s.setStage i c .settled with store }

def counted (s : PresenceCalls) (i : Nat) (c : PresenceManagerCall) (transition : Nat) :
    PresenceStore × PresenceReply → PresenceCalls
  | (store, .count connections) => { s.setStage i c (.counted transition connections) with store }
  | (store, _) => { s.setStage i c .settled with store }

/-- The update of a call that reports a transition. -/
def update (u : UserId) (s : PresenceCalls) (c : PresenceManagerCall) (activeConnections : Nat)
    (rooms : Option (List RoomId)) (eventId : EventId) : PulseEventEnvelope :=
  presenceUpdate c.instanceId u c.status activeConnections rooms ⟨s.clock, eventId⟩

def step (options : PresenceManagerOptions) (u : UserId) (s : PresenceCalls) :
    PresenceCallsEvent → Option PresenceCalls
  | .wait ms => some { s with clock := s.clock + ms }
  | .issue status instanceId connectionId =>
      some { s with calls := s.calls ++ [{ instanceId, connectionId, status, now := s.clock }] }
  | .execute i =>
      match s.calls[i]? with
      | some c =>
          if c.stage = .issued then some (s.executed i c (s.store.step options (c.script u)))
          else none
      | none => none
  | .count i =>
      match s.calls[i]? with
      | some c =>
          match c.stage with
          | .executed transition =>
              some (s.counted i c transition (s.store.step options (c.counting u)))
          | _ => none
      | none => none
  | .answer i rooms eventId =>
      match s.calls[i]? with
      | some c =>
          match c.stage with
          | .counted transition activeConnections =>
              some { s.setStage i c .settled with
                published :=
                  if transition = 1 then
                    s.published ++ [(i, s.update u c activeConnections rooms eventId)]
                  else s.published }
          | _ => none
      | none => none

/-- Every call has settled. -/
def Settled (s : PresenceCalls) : Prop := ∀ c ∈ s.calls, c.stage = .settled

/-- The leases of the user. -/
def leases (u : UserId) (s : PresenceCalls) : SortedSet String Score :=
  s.store.users (PRESENCE_USER_KEY_PREFIX ++ trim u)

def HasLease (u : UserId) (s : PresenceCalls) : Prop := (s.leases u).scores.size ≠ 0

/-- Of the published updates, each with the greatest timestamp says whether the user has a
lease. -/
def NewestTellsTruth (u : UserId) (s : PresenceCalls) : Prop :=
  ∀ newest ∈ s.published,
    (∀ other ∈ s.published, other.2.timestamp.rank ≤ newest.2.timestamp.rank) →
    (EventValidator.stringOf (newest.2.payload.get? "status") = some "ONLINE" ↔ s.HasLease u)

/-- What a call reads from Redis is not past its time. -/
def NothingExpires (u : UserId) (s : PresenceCalls) : PresenceCallsEvent → Prop
  | .execute i | .count i =>
      ∀ c, s.calls[i]? = some c → (s.leases u).Unexpired ((c.now : ℚ) : Score)
  | _ => True

instance (u : UserId) (s : PresenceCalls) : ∀ e, Decidable (s.NothingExpires u e)
  | .execute i | .count i => inferInstanceAs (Decidable (∀ c ∈ s.calls[i]?, _))
  | .wait _ | .issue .. | .answer .. => isTrue trivial

/-- The status of the user behind the `i`-th transition. -/
def statusOf (s : PresenceCalls) (i : Nat) : Option PresenceStatus :=
  (s.calls[i]?).map (·.status)

/-- The transition of the call `i` was decided before that of `j`. -/
def Before (s : PresenceCalls) (i j : Nat) : Prop :=
  s.transitions.idxOf i < s.transitions.idxOf j

/-- The opposite updates published so far stem from earlier decisions, and bear smaller
timestamps. -/
def StampsInOrder (s : PresenceCalls) : PresenceCallsEvent → Prop
  | .answer i _ _ => i ∈ s.transitions →
      ∀ p ∈ s.published, s.statusOf p.1 ≠ s.statusOf i →
        s.Before p.1 i ∧ p.2.timestamp.rank < (Number.ofInt s.clock).rank
  | _ => True

instance (s : PresenceCalls) (i j : Nat) : Decidable (s.Before i j) :=
  inferInstanceAs (Decidable (_ < _))

instance (s : PresenceCalls) : ∀ e, Decidable (s.StampsInOrder e)
  | .answer .. => inferInstanceAs (Decidable (_ ∈ _ → ∀ p ∈ s.published, _ → _ ∧ _))
  | .wait _ | .issue .. | .execute _ | .count _ => isTrue trivial

section scripts

variable {leases : SortedSet String Score} {now : ℚ}

open SortedSet

theorem zcard_prune_of_unexpired (h : leases.Unexpired (now : Score)) :
    (leases.zremrangebyscore now now).zcard now = 0 ↔ leases.scores.size = 0 := by
  have hreads : leases.Reads (now : Score) leases.scores.get? :=
    fun m => by rw [score?_of_not_gone h.1]
  rw [hreads.zcard_prune_eq_zero]
  constructor
  · intro hnone
    rw [← OrderedMap.keys_length, List.length_eq_zero_iff, List.eq_nil_iff_forall_not_mem]
    intro m hm
    obtain ⟨score, hscore⟩ := Option.isSome_iff_exists.mp (OrderedMap.get?_isSome_iff.mpr hm)
    exact hnone ⟨m, score, hscore, h.2 m score hscore⟩
  · rintro hsize ⟨m, score, hscore, -⟩
    rw [OrderedMap.get?_of_size_eq_zero hsize] at hscore
    cases hscore

/-- Behind the registration the user has a lease; it came online if it had none before. -/
theorem registerPresence_transition (h : leases.Unexpired (now : Score)) (member : String)
    (expireAt : Score) (keyTtl : Int) :
    (registerPresence leases member expireAt now keyTtl).1.scores.size ≠ 0 ∧
      ((registerPresence leases member expireAt now keyTtl).2 = 1 ↔ leases.scores.size = 0) := by
  simp only [registerPresence, zcard_prune_of_unexpired h]
  constructor
  · rw [scores_expire]
    have hadded : ((leases.zremrangebyscore now now).zadd now member expireAt).score? now member =
        some expireAt := by
      rw [score?_zadd, if_pos rfl]
    intro hsize
    rw [score?, OrderedMap.get?_of_size_eq_zero hsize] at hadded
    cases hadded
  · by_cases hsize : leases.scores.size = 0 <;> simp [hsize]

/-- The user went offline if it has no lease behind the removal. -/
theorem removePresence_transition (leases : SortedSet String Score) (member : String) (now : ℚ)
    (keyTtl : Int) :
    ((removePresence leases member now keyTtl).2 = 1 ↔
        (removePresence leases member now keyTtl).1.scores.size = 0) ∧
      ((removePresence leases member now keyTtl).1.scores.size ≠ 0 → leases.scores.size ≠ 0) := by
  simp only [removePresence]
  split
  · rename_i hpos
    have hsize : (((leases.zrem now member).zremrangebyscore now now).live now).scores.size ≠ 0 :=
      Nat.pos_iff_ne_zero.mp hpos
    simp only [scores_expire]
    refine ⟨iff_of_false (by decide) hsize, fun _ hnone => ?_⟩
    refine hsize ((zcard_eq_zero_iff _ _).mpr fun m => ?_)
    rw [score?_zremrangebyscore le_rfl, score?_zrem le_rfl, score?_eq,
      OrderedMap.get?_of_size_eq_zero hnone, ite_self, ite_self]
    rfl
  · exact ⟨iff_of_true rfl rfl, fun h => absurd rfl h⟩

end scripts

variable {options : PresenceManagerOptions} {u : UserId} {s s' : PresenceCalls}

/-- What a script does: a call which fails does nothing; a transition tells whether the user
has a lease behind it, and otherwise that has not changed. -/
theorem script_cases (options : PresenceManagerOptions) {c : PresenceManagerCall}
    (unexpired : (s.leases u).Unexpired ((c.now : ℚ) : Score)) :
    (∃ message, s.store.step options (c.script u) = (s.store, .failed message)) ∨
      trim u ≠ "" ∧
      ∃ store result, s.store.step options (c.script u) = (store, .transition result) ∧
        (result = 1 → (c.status = .online ↔
          (store.users (PRESENCE_USER_KEY_PREFIX ++ trim u)).scores.size ≠ 0)) ∧
        (result ≠ 1 → ((store.users (PRESENCE_USER_KEY_PREFIX ++ trim u)).scores.size ≠ 0 ↔
          s.HasLease u)) := by
  cases hstatus : c.status with
  | online =>
      rw [PresenceManagerCall.script, hstatus]
      refine (PresenceStore.step_registerConnection options s.store c.instanceId c.now u
        c.connectionId).imp id fun hstep => ⟨hstep.1, _, _, hstep.2, ?_⟩
      obtain ⟨hlease, hresult⟩ := registerPresence_transition unexpired
        (c.instanceId ++ ":" ++ c.connectionId) (((c.now : ℚ) : Score) + options.presenceTtlMs)
        options.keySafeguardTtlSec
      rw [PresenceStore.setUser_users_self]
      refine ⟨fun _ => iff_of_true rfl hlease, fun hnone => iff_of_true hlease ?_⟩
      exact fun hsize => hnone (hresult.mpr hsize)
  | offline =>
      rw [PresenceManagerCall.script, hstatus]
      refine (PresenceStore.step_removeConnection options s.store c.instanceId c.now u
        c.connectionId).imp id fun hstep => ⟨hstep.1, _, _, hstep.2, ?_⟩
      obtain ⟨hresult, hless⟩ := removePresence_transition
        (s.store.users (PRESENCE_USER_KEY_PREFIX ++ trim u))
        (c.instanceId ++ ":" ++ c.connectionId) c.now options.keySafeguardTtlSec
      rw [PresenceStore.setUser_users_self]
      refine ⟨fun hone => iff_of_false PresenceStatus.noConfusion ?_, fun hsome => ?_⟩
      · exact fun hlease => hlease (hresult.mp hone)
      · have hlease := fun hsize => hsome (hresult.mpr hsize)
        exact iff_of_true hlease (hless hlease)

/-- Counting changes nothing if nothing is expired. -/
theorem counting_spec (options : PresenceManagerOptions) {c : PresenceManagerCall}
    (named : trim u ≠ "")
    (unexpired : (s.leases u).Unexpired ((c.now : ℚ) : Score)) :
    ∃ store connections, s.store.step options (c.counting u) = (store, .count connections) ∧
      ((store.users (PRESENCE_USER_KEY_PREFIX ++ trim u)).scores.size ≠ 0 ↔ s.HasLease u) := by
  refine ⟨_, _, PresenceStore.step_getUserConnectionCount named options s.store c.instanceId
    c.now, ?_⟩
  have hscores := SortedSet.scores_prune unexpired
  rw [leases] at hscores
  rw [PresenceStore.pruneKey, PresenceStore.setUser_users_self, hscores]
  rfl

theorem counting_of_blank {c : PresenceManagerCall} (h : trim u = "") :
    s.store.step options (c.counting u) =
      (s.store, .failed "Invalid userId provided for presence key") := by
  simp only [PresenceManagerCall.counting, PresenceStore.step, PresenceStore.perform,
    PresenceStore.getUserConnectionCount, getPresenceUserKey, if_pos h, bind, Except.bind,
    Except.map]

/-- The transition is decided, and the update not yet published. -/
def CallStage.Decided : CallStage → Prop
  | .executed transition | .counted transition _ => transition = 1
  | _ => False

/-- The calls against the decisions and the updates. -/
structure Consistent (u : UserId) (s : PresenceCalls) : Prop where
  nodup : s.transitions.Nodup
  named : s.transitions ≠ [] → trim u ≠ ""
  leased : ∀ i, s.transitions.getLast? = some i →
    (s.statusOf i = some .online ↔ s.HasLease u)
  decided : ∀ i c, s.calls[i]? = some c → CallStage.Decided c.stage → i ∈ s.transitions
  transition : ∀ i ∈ s.transitions, ∃ c, s.calls[i]? = some c ∧
    (CallStage.Decided c.stage ∨ c.stage = .settled ∧ ∃ p ∈ s.published, p.1 = i)
  published : ∀ p ∈ s.published, p.1 ∈ s.transitions ∧ ∃ c, s.calls[p.1]? = some c ∧
    EventValidator.stringOf (p.2.payload.get? "status") = some c.status.text
  stamps : ∀ p ∈ s.published, ∀ q ∈ s.published, s.statusOf p.1 ≠ s.statusOf q.1 →
    s.Before p.1 q.1 → p.2.timestamp.rank < q.2.timestamp.rank

theorem consistent_initial : Consistent u {} where
  nodup := List.nodup_nil
  named := fun h => absurd rfl h
  leased := by
    intro i h
    cases h
  decided := by
    intro i c h
    simp at h
  transition := fun _ h => absurd h List.not_mem_nil
  published := fun _ h => absurd h List.not_mem_nil
  stamps := fun _ h => absurd h List.not_mem_nil

theorem setStage_calls {i j : Nat} {c : PresenceManagerCall} (h : s.calls[i]? = some c)
    (stage : CallStage) :
    (s.setStage i c stage).calls[j]? = if i = j then some { c with stage } else s.calls[j]? := by
  obtain ⟨hlt, -⟩ := List.getElem?_eq_some_iff.mp h
  rw [setStage, List.getElem?_set, if_pos hlt]

/-- Going on with a call changes nothing of what it is. -/
theorem setStage_statusOf {i : Nat} {c : PresenceManagerCall} (h : s.calls[i]? = some c)
    (stage : CallStage) (j : Nat) : (s.setStage i c stage).statusOf j = s.statusOf j := by
  rw [statusOf, statusOf, setStage_calls h]
  split
  · rename_i heq
    rw [← heq, h]
    rfl
  · rfl

theorem Consistent.issue (h : Consistent u s) (call : PresenceManagerCall)
    (issued : call.stage = .issued) :
    Consistent u { s with calls := s.calls ++ [call] } := by
  have hcall : ∀ {i : Nat} {c}, s.calls[i]? = some c → (s.calls ++ [call])[i]? = some c := by
    intro i c hc
    rw [List.getElem?_append_left (List.getElem?_eq_some_iff.mp hc).1]
    exact hc
  have hstatus : ∀ i ∈ s.transitions,
      statusOf { s with calls := s.calls ++ [call] } i = s.statusOf i := by
    intro i hi
    obtain ⟨c, hc, -⟩ := h.transition i hi
    rw [statusOf, statusOf, hc, hcall hc]
  refine ⟨h.nodup, h.named, ?_, ?_, ?_, ?_, ?_⟩
  · intro i hi
    rw [hstatus i (List.mem_of_getLast? hi)]
    exact h.leased i hi
  · intro i c hc hdecided
    by_cases hlt : i < s.calls.length
    · refine h.decided i c ?_ hdecided
      rwa [List.getElem?_append_left hlt] at hc
    · rw [List.getElem?_append_right (Nat.le_of_not_lt hlt)] at hc
      rw [List.mem_singleton.mp (List.mem_of_getElem? hc), issued] at hdecided
      exact hdecided.elim
  · intro i hi
    obtain ⟨c, hc, hstage⟩ := h.transition i hi
    exact ⟨c, hcall hc, hstage⟩
  · intro p hp
    obtain ⟨hmem, c, hc, htext⟩ := h.published p hp
    exact ⟨hmem, c, hcall hc, htext⟩
  · intro p hp q hq hne hbefore
    rw [hstatus _ (h.published p hp).1, hstatus _ (h.published q hq).1] at hne
    exact h.stamps p hp q hq hne hbefore

/-- A call that is issued, or settled without a decision, has no transition. -/
theorem Consistent.not_mem_transitions (h : Consistent u s) {i : Nat} {c : PresenceManagerCall}
    (hc : s.calls[i]? = some c) (undecided : ¬ CallStage.Decided c.stage)
    (pending : c.stage ≠ .settled) : i ∉ s.transitions := by
  intro hi
  obtain ⟨c', hc', hdecided | ⟨hsettled, -⟩⟩ := h.transition i hi
  · exact undecided (Option.some.inj (hc.symm.trans hc') ▸ hdecided)
  · exact pending (Option.some.inj (hc.symm.trans hc') ▸ hsettled)

/-- A call without a decision may go on to any stage that decides nothing. -/
theorem Consistent.proceed (h : Consistent u s) {i : Nat} {c : PresenceManagerCall}
    (hc : s.calls[i]? = some c) {stage : CallStage} {store : PresenceStore}
    (lease : HasLease u { s with store } ↔ s.HasLease u)
    (decided : CallStage.Decided stage → i ∈ s.transitions)
    (kept : i ∈ s.transitions → CallStage.Decided stage) :
    Consistent u { s.setStage i c stage with store } := by
  have hstatus : ∀ j, statusOf { s.setStage i c stage with store } j = s.statusOf j :=
    fun j => setStage_statusOf hc stage j
  have hcalls : ∀ j, (s.setStage i c stage).calls[j]? =
      if i = j then some { c with stage } else s.calls[j]? := fun j => setStage_calls hc stage
  refine ⟨h.nodup, h.named, ?_, ?_, ?_, ?_, ?_⟩
  · intro j hj
    rw [hstatus]
    exact (h.leased j hj).trans lease.symm
  · intro j c' hc' hdecided
    rw [hcalls] at hc'
    split at hc'
    · rename_i heq
      cases hc'
      exact heq ▸ decided hdecided
    · exact h.decided j c' hc' hdecided
  · intro j hj
    show ∃ c', (s.setStage i c stage).calls[j]? = some c' ∧ _
    rw [hcalls]
    split
    · rename_i heq
      exact ⟨_, rfl, Or.inl (kept (heq ▸ hj))⟩
    · exact h.transition j hj
  · intro p hp
    obtain ⟨hmem, c', hc', htext⟩ := h.published p hp
    refine ⟨hmem, ?_⟩
    show ∃ c', (s.setStage i c stage).calls[p.1]? = some c' ∧ _
    rw [hcalls]
    split
    · rename_i heq
      subst heq
      rw [hc, Option.some.injEq] at hc'
      exact ⟨_, rfl, hc' ▸ htext⟩
    · exact ⟨c', hc', htext⟩
  · intro p hp q hq hne hbefore
    rw [hstatus, hstatus] at hne
    exact h.stamps p hp q hq hne hbefore

/-- A script decides a transition. -/
theorem Consistent.decides (h : Consistent u s) {i : Nat} {c : PresenceManagerCall}
    (hc : s.calls[i]? = some c) (new : i ∉ s.transitions) (named : trim u ≠ "")
    {store : PresenceStore} (lease : c.status = .online ↔ HasLease u { s with store }) :
    Consistent u { s.setStage i c (.executed 1) with
      store, transitions := s.transitions ++ [i] } := by
  have hstatus : ∀ j, statusOf { s.setStage i c (.executed 1) with
      store, transitions := s.transitions ++ [i] } j = s.statusOf j :=
    fun j => setStage_statusOf hc _ j
  have hcalls : ∀ j, (s.setStage i c (.executed 1)).calls[j]? =
      if i = j then some { c with stage := .executed 1 } else s.calls[j]? :=
    fun j => setStage_calls hc _
  refine ⟨?_, fun _ => named, ?_, ?_, ?_, ?_, ?_⟩
  · exact h.nodup.append (List.nodup_singleton i)
      (List.disjoint_singleton.mpr new)
  · intro j hj
    rw [List.getLast?_concat, Option.some.injEq] at hj
    subst hj
    rw [hstatus, statusOf, hc, Option.map_some, Option.some.injEq]
    exact lease
  · intro j c' hc' hdecided
    rw [hcalls] at hc'
    split at hc'
    · rename_i heq
      exact heq ▸ List.mem_append_right _ (List.mem_singleton_self i)
    · exact List.mem_append_left _ (h.decided j c' hc' hdecided)
  · intro j hj
    show ∃ c', (s.setStage i c (.executed 1)).calls[j]? = some c' ∧ _
    rw [hcalls]
    split
    · exact ⟨_, rfl, Or.inl rfl⟩
    · rename_i hne
      rcases List.mem_append.mp hj with hj | hj
      · exact h.transition j hj
      · exact absurd (List.mem_singleton.mp hj).symm hne
  · intro p hp
    obtain ⟨hmem, c', hc', htext⟩ := h.published p hp
    have hne : i ≠ p.1 := fun heq => new (heq ▸ hmem)
    refine ⟨List.mem_append_left _ hmem, c', ?_, htext⟩
    show (s.setStage i c (.executed 1)).calls[p.1]? = some c'
    rw [hcalls, if_neg hne]
    exact hc'
  · intro p hp q hq hne hbefore
    rw [hstatus, hstatus] at hne
    refine h.stamps p hp q hq hne ?_
    rw [Before, List.idxOf_append_of_mem (h.published p hp).1,
      List.idxOf_append_of_mem (h.published q hq).1] at hbefore
    exact hbefore

/-- The update of a decision is published, in the order of the decisions. -/
theorem Consistent.publish (h : Consistent u s) {i activeConnections : Nat}
    {c : PresenceManagerCall} (hc : s.calls[i]? = some c)
    (counted : c.stage = .counted 1 activeConnections) (rooms : Option (List RoomId))
    (eventId : EventId) (order : s.StampsInOrder (.answer i rooms eventId)) :
    Consistent u { s.setStage i c .settled with
      published := s.published ++ [(i, s.update u c activeConnections rooms eventId)] } := by
  have hstatus : ∀ j, statusOf { s.setStage i c .settled with
      published := s.published ++ [(i, s.update u c activeConnections rooms eventId)] } j =
        s.statusOf j :=
    fun j => setStage_statusOf hc _ j
  have hcalls : ∀ j, (s.setStage i c .settled).calls[j]? =
      if i = j then some { c with stage := .settled } else s.calls[j]? :=
    fun j => setStage_calls hc _
  have hmem : i ∈ s.transitions := h.decided i c hc (by rw [counted]; rfl)
  have horder := order hmem
  refine ⟨h.nodup, h.named, ?_, ?_, ?_, ?_, ?_⟩
  · intro j hj
    rw [hstatus]
    exact h.leased j hj
  · intro j c' hc' hdecided
    rw [hcalls] at hc'
    split at hc'
    · cases hc'
      exact hdecided.elim
    · exact h.decided j c' hc' hdecided
  · intro j hj
    show ∃ c', (s.setStage i c .settled).calls[j]? = some c' ∧ _
    rw [hcalls]
    split
    · rename_i heq
      exact ⟨_, rfl, Or.inr ⟨rfl, _, List.mem_append_right _ (List.mem_singleton_self _), heq⟩⟩
    · obtain ⟨c', hc', hstage⟩ := h.transition j hj
      refine ⟨c', hc', hstage.imp id fun ⟨hsettled, p, hp, heq⟩ => ?_⟩
      exact ⟨hsettled, p, List.mem_append_left _ hp, heq⟩
  · intro p hp
    show p.1 ∈ s.transitions ∧ ∃ c', (s.setStage i c .settled).calls[p.1]? = some c' ∧ _
    rw [hcalls]
    rcases List.mem_append.mp hp with hp | hp
    · obtain ⟨hmem, c', hc', htext⟩ := h.published p hp
      refine ⟨hmem, ?_⟩
      split
      · rename_i heq
        subst heq
        rw [hc, Option.some.injEq] at hc'
        exact ⟨_, rfl, hc' ▸ htext⟩
      · exact ⟨c', hc', htext⟩
    · rw [List.mem_singleton.mp hp, if_pos rfl]
      exact ⟨hmem, _, rfl, rfl⟩
  · intro p hp q hq hne hbefore
    rw [hstatus, hstatus] at hne
    rcases List.mem_append.mp hp with hp | hp
    · rcases List.mem_append.mp hq with hq | hq
      · exact h.stamps p hp q hq hne hbefore
      · rw [List.mem_singleton.mp hq] at hne ⊢
        exact (horder p hp hne).2
    · rw [List.mem_singleton.mp hp] at hne hbefore ⊢
      rcases List.mem_append.mp hq with hq | hq
      · -- An opposite update that is out already was not decided later.
        exact absurd hbefore (Nat.lt_asymm (horder q hq (Ne.symm hne)).1)
      · rw [List.mem_singleton.mp hq] at hne
        exact absurd rfl hne

theorem Consistent.step {e : PresenceCallsEvent} (h : Consistent u s)
    (hstep : s.step options u e = some s') (unexpired : s.NothingExpires u e)
    (order : s.StampsInOrder e) : Consistent u s' := by
  cases e with
  | wait ms =>
      cases hstep
      exact ⟨h.nodup, h.named, h.leased, h.decided, h.transition, h.published, h.stamps⟩
  | issue status instanceId connectionId =>
      cases hstep
      exact h.issue _ rfl
  | execute i =>
      simp only [PresenceCalls.step] at hstep
      split at hstep
      · rename_i c hc
        split at hstep
        · rename_i hissued
          have hnew :=
            h.not_mem_transitions hc (by rw [hissued]; exact id) (by rw [hissued]; decide)
          rcases script_cases options (unexpired c hc) with ⟨message, hfailed⟩ |
            ⟨hnamed, store, result, hresult, hlease, hsame⟩
          · rw [hfailed] at hstep
            cases hstep
            exact h.proceed hc Iff.rfl (fun hdecided => hdecided.elim) fun hmem => absurd hmem hnew
          · rw [hresult] at hstep
            cases hstep
            by_cases hone : result = 1
            · subst hone
              exact h.decides hc hnew hnamed (hlease rfl)
            · simp only [executed, if_neg hone]
              exact h.proceed hc (hsame hone) (fun hdecided => absurd hdecided hone)
                fun hmem => absurd hmem hnew
        · cases hstep
      · cases hstep
  | count i =>
      simp only [PresenceCalls.step] at hstep
      split at hstep
      · rename_i c hc
        split at hstep
        · rename_i transition hstage
          have hpending := h.not_mem_transitions hc
          rw [hstage] at hpending
          by_cases hblank : trim u = ""
          · rw [counting_of_blank hblank] at hstep
            cases hstep
            refine h.proceed hc Iff.rfl (fun hdecided => hdecided.elim) fun hmem => ?_
            exact absurd hblank (h.named (List.ne_nil_of_mem hmem))
          · obtain ⟨store, connections, hcounted, hsame⟩ := counting_spec options hblank
              (unexpired c hc)
            rw [hcounted] at hstep
            cases hstep
            refine h.proceed hc hsame (fun hdecided => ?_) fun hmem => ?_
            · exact h.decided i c hc (by rw [hstage]; exact hdecided)
            · by_contra hundecided
              exact hpending hundecided CallStage.noConfusion hmem
        · cases hstep
      · cases hstep
  | answer i rooms eventId =>
      simp only [PresenceCalls.step] at hstep
      split at hstep
      · rename_i c hc
        split at hstep
        · rename_i transition activeConnections hstage
          cases hstep
          by_cases hone : transition = 1
          · subst hone
            exact h.publish hc hstage rooms eventId order
          · simp only [if_neg hone]
            refine h.proceed hc Iff.rfl (fun hdecided => hdecided.elim) fun hmem => ?_
            exact absurd hmem (h.not_mem_transitions hc (by rw [hstage]; exact hone)
              (by rw [hstage]; exact CallStage.noConfusion))
        · cases hstep
      · cases hstep

/-- The last decision is settled after all others. -/
theorem idxOf_lt_last {l : List Nat} (nodup : l.Nodup) {a b : Nat} (last : l.getLast? = some a)
    (mem : b ∈ l) (ne : b ≠ a) : l.idxOf b < l.idxOf a := by
  obtain ⟨l', rfl⟩ := List.getLast?_eq_some_iff.mp last
  have hfirst : b ∈ l' := (List.mem_append.mp mem).resolve_right fun h =>
    ne (List.mem_singleton.mp h)
  have hnew : a ∉ l' := fun h =>
    (List.nodup_append.mp nodup).2.2 a h a (List.mem_singleton_self a) rfl
  rw [List.idxOf_append_of_mem hfirst, List.idxOf_append_of_notMem hnew]
  exact Nat.lt_of_lt_of_le (List.idxOf_lt_length_of_mem hfirst) (Nat.le_add_right _ _)

/-- When all calls have settled, the update of the last decision is the newest. -/
theorem Consistent.newestTellsTruth (h : Consistent u s) (settled : s.Settled) :
    s.NewestTellsTruth u := by
  intro newest hnewest greatest
  obtain ⟨hmem, c, hc, htext⟩ := h.published newest hnewest
  obtain ⟨last, hlast⟩ : ∃ last, s.transitions.getLast? = some last :=
    Option.isSome_iff_exists.mp (List.getLast?_isSome.mpr (List.ne_nil_of_mem hmem))
  obtain ⟨c', hc', hstage⟩ := h.transition last (List.mem_of_getLast? hlast)
  have hsettled := settled c' (List.mem_of_getElem? hc')
  rw [hsettled] at hstage
  obtain ⟨-, p, hp, hcall⟩ := hstage.resolve_left id
  have hsame : s.statusOf newest.1 = s.statusOf last := by
    by_contra hne
    have hbefore : s.Before newest.1 p.1 := by
      rw [Before, hcall]
      exact idxOf_lt_last h.nodup hlast hmem fun heq => hne (heq ▸ rfl)
    have hlater := h.stamps newest hnewest p hp (hcall ▸ hne) hbefore
    exact absurd (greatest p hp) (not_le.mpr hlater)
  have hstatus : s.statusOf last = some c.status := by
    rw [← hsame, statusOf, hc, Option.map_some]
  rw [← h.leased last hlast, hstatus, htext]
  cases c.status <;> decide

/-- In every run in which each update is stamped in the order of the decisions of the scripts,
the newest update is right whenever all calls have settled. -/
theorem newest_update_tells_truth (options : PresenceManagerOptions) (u : UserId)
    (es : List PresenceCallsEvent)
    (unexpired : EveryStep (step options u) (fun s e _ => s.NothingExpires u e) {} es)
    (order : EveryStep (step options u) (fun s e _ => s.StampsInOrder e) {} es) :
    Always (step options u) (fun s => s.Settled → s.NewestTellsTruth u) {} es := by
  have halways := always_of_everyStep
    (R := fun s e _ => s.NothingExpires u e ∧ s.StampsInOrder e)
    (fun s e t h hstep hr => h.step hstep hr.1 hr.2) consistent_initial (unexpired.and order)
  exact halways.mono fun s h => h.newestTellsTruth

/-- Alice connects to one node and, a moment later, is gone from it. -/
def briefVisit : List PresenceCallsEvent :=
  [.issue .online "node-a" "c1", .execute 0, .count 0, .answer 0 none "e1", .wait 5,
    .issue .offline "node-a" "c1", .execute 1, .count 1, .answer 1 none "e2"]

theorem newest_update_tells_truth_visit :
    Always (step {} "alice") (fun s => s.Settled → s.NewestTellsTruth "alice") {} briefVisit :=
  newest_update_tells_truth {} "alice" briefVisit (by decide +kernel) (by decide +kernel)

/-- Alice leaves one node and comes back on another. The scripts run in this order, but the
leases of the first call are counted only after the second update is out. -/
def overtakenRun : List PresenceCallsEvent :=
  [.issue .online "node-a" "c1", .execute 0, .count 0, .answer 0 none "e1", .wait 5,
    .issue .offline "node-a" "c1", .execute 1,
    .issue .online "node-b" "c2", .execute 2, .count 2, .answer 2 none "e2", .wait 1,
    .count 1, .answer 1 none "e3"]

instance (s : PresenceCalls) : Decidable s.Settled :=
  inferInstanceAs (Decidable (∀ c ∈ s.calls, _))

instance (u : UserId) (s : PresenceCalls) : Decidable (s.NewestTellsTruth u) :=
  inferInstanceAs (Decidable (∀ newest ∈ s.published, _ → (_ ↔ _ ≠ _)))

theorem newest_update_overtaken :
    EveryStep (step {} "alice") (fun s e _ => s.NothingExpires "alice" e) {} overtakenRun ∧
      ¬ Always (step {} "alice") (fun s => s.Settled → s.NewestTellsTruth "alice") {}
        overtakenRun := by
  refine ⟨by decide +kernel, ?_⟩
  refine not_always_of_run
    (q := fun s => decide (s.Settled ∧ ¬ s.NewestTellsTruth "alice")) ?_ (by decide +kernel)
  intro t ht htruth
  obtain ⟨hsettled, hfalse⟩ := of_decide_eq_true ht
  exact hfalse (htruth hsettled)

end PresenceCalls

end Pulse
