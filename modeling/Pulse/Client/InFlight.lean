import Pulse.Client.Numbering
import Pulse.Client.Settlement
import Pulse.Transition.Run

/-!
# Requests in flight

Every request in flight has one armed timer, and no other timer is armed. What
became of a request is kept in a log beside the session: its admission, each
retransmission by its timer, and each call that settles its promise, with the event
which made the call. A promise ignores all calls but the first, the log does not. With
each retransmission the frame of the request is added to the socket which is open.
-/

namespace Pulse

open Collections Transition

inductive InFlightAction
  | admitted (entry : Nat)
  /-- By its timer. -/
  | retransmitted (entry : Nat)
  | settled (entry : Nat) (cause : SessionEvent) (settlement : Settlement)

namespace InFlightAction

def retransmits (i : Nat) : InFlightAction → Bool
  | .retransmitted j => j = i
  | _ => false

def settles (i : Nat) : InFlightAction → Option (SessionEvent × Settlement)
  | .settled j cause settlement => if j = i then some (cause, settlement) else none
  | _ => none

/-- The number of times the timer of an entry transmitted it again. -/
def retransmissions (log : List InFlightAction) (i : Nat) : Nat := log.countP (·.retransmits i)

/-- The calls which settled the promise of an entry. -/
def settlements (log : List InFlightAction) (i : Nat) : List (SessionEvent × Settlement) :=
  log.filterMap (·.settles i)

variable (log items : List InFlightAction) (i j : Nat)

@[simp] theorem retransmissions_append :
    retransmissions (log ++ items) i = retransmissions log i + retransmissions items i :=
  List.countP_append

@[simp] theorem settlements_append :
    settlements (log ++ items) i = settlements log i ++ settlements items i :=
  List.filterMap_append

@[simp] theorem retransmissions_nil : retransmissions [] i = 0 := rfl
@[simp] theorem settlements_nil : settlements [] i = [] := rfl
@[simp] theorem retransmissions_admitted : retransmissions [.admitted j] i = 0 := rfl
@[simp] theorem settlements_admitted : settlements [.admitted j] i = [] := rfl
@[simp] theorem settlements_retransmitted : settlements [.retransmitted j] i = [] := rfl

@[simp] theorem retransmissions_retransmitted :
    retransmissions [.retransmitted j] i = if j = i then 1 else 0 := by
  rw [retransmissions, List.countP_singleton, retransmits]
  simp only [decide_eq_true_eq]

@[simp] theorem retransmissions_settled (cause : SessionEvent) (settlement : Settlement) :
    retransmissions [.settled j cause settlement] i = 0 := rfl

theorem settlements_settled (cause : SessionEvent) (settlement : Settlement) :
    settlements [.settled j cause settlement] i = if j = i then [(cause, settlement)] else [] := by
  by_cases h : j = i <;> simp [settlements, settles, h]

end InFlightAction

namespace PulseClientSession

open InFlightAction

def deliveryTimeout (o : SessionOptions) : Settlement :=
  .rejected ("DELIVERY_TIMEOUT: Acknowledgement not received after " ++ toString o.maxRetries ++
    " retries")

def sessionClosed : Settlement :=
  .rejected "SESSION_CLOSED: Client session was disconnected"

/-- A request with acknowledgement for which there is room in the table. -/
def admits (o : SessionOptions) (s : PulseClientSession) (r : PulseEventEnvelope) : Bool :=
  s.inFlightQueue.size < o.queueCapacity && r.ackRequired = some true

def sendActions (o : SessionOptions) (s : PulseClientSession) (e : SessionEvent) :
    List InFlightAction :=
  (s.submission o e).elim [] fun r => if s.admits o r then [.admitted s.entries.length] else []

def ackTimeoutActions (o : SessionOptions) (s : PulseClientSession) (e : SessionEvent)
    (timer : AckTimer) : List InFlightAction :=
  (s.entries[timer.entry]?).elim [] fun entry =>
    if entry.retries < o.maxRetries then [.retransmitted timer.entry]
    else [.settled timer.entry e (deliveryTimeout o)]

def handleAckActions (s : PulseClientSession) (e : SessionEvent) (envelope : PulseEventEnvelope) :
    List InFlightAction :=
  (envelope.correlationId).elim [] fun correlationId =>
    if correlationId = "" then []
    else (s.inFlightQueue.get? correlationId).elim [] fun i => [.settled i e (.resolved envelope)]

/-- What an event does with the requests in flight. -/
def actions (o : SessionOptions) (s : PulseClientSession) (e : SessionEvent) :
    List InFlightAction :=
  match e with
  | .ackTimeout timer =>
      (s.ackTimers.find? fun t => t.id = timer).elim [] (s.ackTimeoutActions o e)
  | .disconnect => s.inFlightQueue.values.map fun i => .settled i e sessionClosed
  | .message _ envelope _ =>
      if envelope.type = .sysConnectAck then s.sendActions o e
      else if envelope.type.isAck then s.handleAckActions e envelope
      else []
  | _ => s.sendActions o e

/-- From `s` to `t` an entry is transmitted again: its frame is added to the socket which is
open, if one is, and nothing to the others. -/
def Retransmits (s t : PulseClientSession) (i : Nat) : Prop :=
  ∃ entry, s.entries[i]? = some entry ∧ ∀ w, t.sentOn w =
    s.sentOn w ++ if s.openSocket = some w then [entry.envelope] else []

/-- A request which is admitted has a correlation id of its own among those in flight. -/
def Distinct (o : SessionOptions) (s : PulseClientSession) (e : SessionEvent) : Prop :=
  ∀ r ∈ s.submission o e, s.admits o r = true →
    ∀ correlationId ∈ r.correlationId, s.inFlightQueue.get? correlationId = none

instance (o : SessionOptions) (s : PulseClientSession) (e : SessionEvent) :
    Decidable (s.Distinct o e) :=
  inferInstanceAs (Decidable (∀ r ∈ s.submission o e, s.admits o r = true →
    ∀ correlationId ∈ r.correlationId, s.inFlightQueue.get? correlationId = none))

/-- What may settle a promise: an acknowledgement with its correlation id, its timer after so
many retransmissions, or the end of the session. -/
def Justifies (o : SessionOptions) (correlationId : Option String) (retransmissions : Nat) :
    SessionEvent → Settlement → Prop
  | .message _ ack _, settlement =>
      ack.type.isAck = true ∧ ack.correlationId = correlationId ∧ settlement = .resolved ack
  | .ackTimeout _, settlement =>
      retransmissions = o.maxRetries ∧ settlement = deliveryTimeout o
  | .disconnect, settlement => settlement = sessionClosed
  | _, _ => False

def InTable (s : PulseClientSession) (i : Nat) : Prop := ∃ c, s.inFlightQueue.get? c = some i

/-- Each request in flight has one armed timer, no other timer is armed, and an admitted
request is in the table or was settled once, for a reason. -/
structure InFlightExact (o : SessionOptions) (s : PulseClientSession × List InFlightAction) :
    Prop where
  capacity : s.1.inFlightQueue.size ≤ o.queueCapacity
  timer : ∀ correlationId i, s.1.inFlightQueue.get? correlationId = some i →
    ∃ timer, s.1.ackTimers.filter (fun t => t.entry = i) = [timer] ∧
      timer.correlationId = correlationId
  noOther : ∀ timer ∈ s.1.ackTimers,
    s.1.inFlightQueue.get? timer.correlationId = some timer.entry
  settled : ∀ i, .admitted i ∈ s.2 → ∃ entry, s.1.entries[i]? = some entry ∧
    (s.1.InTable i ∧ settlements s.2 i = [] ∧ entry.settlement = none ∨
      ¬s.1.InTable i ∧ ∃ cause settlement, settlements s.2 i = [(cause, settlement)] ∧
        entry.settlement = some settlement ∧
        Justifies o entry.envelope.correlationId (retransmissions s.2 i) cause settlement)

/-- The timers are those of the requests in flight. -/
structure Timed (s : PulseClientSession) : Prop where
  queued : ∀ c i, s.inFlightQueue.get? c = some i → ∃ entry timer, s.entries[i]? = some entry ∧
    entry.envelope.correlationId = some c ∧ entry.timer = some timer ∧
    ({ id := timer, correlationId := c, entry := i } : AckTimer) ∈ s.ackTimers
  armed : ∀ timer ∈ s.ackTimers, s.inFlightQueue.get? timer.correlationId = some timer.entry ∧
    ∃ entry, s.entries[timer.entry]? = some entry ∧ entry.timer = some timer.id
  distinct : (s.ackTimers.map AckTimer.id).Nodup
  fresh : ∀ timer ∈ s.ackTimers, timer.id < s.nextTimer

variable {o : SessionOptions} {s t : PulseClientSession} {log items : List InFlightAction}
  {c : String} {i : Nat} {entry : InFlightEntry}

namespace Timed

theorem eq_of_id (h : s.Timed) {a b : AckTimer} (ha : a ∈ s.ackTimers) (hb : b ∈ s.ackTimers)
    (same : a.id = b.id) : a = b :=
  List.inj_on_of_nodup_map h.distinct ha hb same

theorem key_unique (h : s.Timed) {c' : String} (hc : s.inFlightQueue.get? c = some i)
    (hc' : s.inFlightQueue.get? c' = some i) : c = c' := by
  obtain ⟨entry, -, hentry, hcorrelation, -⟩ := h.queued c i hc
  obtain ⟨entry', -, hentry', hcorrelation', -⟩ := h.queued c' i hc'
  cases hentry.symm.trans hentry'
  exact Option.some.inj (hcorrelation.symm.trans hcorrelation')

/-- The armed timer of an entry in the table is the one which it names. -/
theorem mem_of_entry (h : s.Timed) (hc : s.inFlightQueue.get? c = some i)
    (hentry : s.entries[i]? = some entry) : ∃ timer, entry.timer = some timer ∧
      ({ id := timer, correlationId := c, entry := i } : AckTimer) ∈ s.ackTimers := by
  obtain ⟨entry', timer, hentry', -, htimer, hmem⟩ := h.queued c i hc
  cases hentry.symm.trans hentry'
  exact ⟨timer, htimer, hmem⟩

/-- To clear the timer of an entry leaves the timers of the others. -/
theorem mem_clearTimeout (h : s.Timed) (hc : s.inFlightQueue.get? c = some i)
    (hentry : s.entries[i]? = some entry) (timer : AckTimer) :
    timer ∈ (s.clearTimeout entry.timer).ackTimers ↔ timer ∈ s.ackTimers ∧ timer.entry ≠ i := by
  obtain ⟨id, htimer, hmem⟩ := h.mem_of_entry hc hentry
  simp only [clearTimeout, List.mem_filter, decide_eq_true_eq, htimer, ne_eq, Option.some.injEq]
  refine and_congr_right fun hin => not_congr ?_
  constructor
  · intro same
    rw [h.eq_of_id hin hmem same]
  · intro same
    obtain ⟨-, entry', hentry', htimer'⟩ := h.armed timer hin
    rw [same] at hentry'
    cases hentry.symm.trans hentry'
    exact Option.some.inj (htimer'.symm.trans htimer)

theorem exactly_one (h : s.Timed) (hc : s.inFlightQueue.get? c = some i) :
    ∃ timer, s.ackTimers.filter (fun t => t.entry = i) = [timer] ∧ timer.correlationId = c := by
  obtain ⟨entry, id, hentry, -, htimer, hmem⟩ := h.queued c i hc
  refine ⟨{ id, correlationId := c, entry := i }, ?_, rfl⟩
  have hnodup : (s.ackTimers.filter fun t => t.entry = i).Nodup :=
    (List.Nodup.of_map _ h.distinct).filter _
  refine List.perm_singleton.mp ((List.perm_ext_iff_of_nodup hnodup (List.nodup_singleton _)).mpr
    fun timer => ?_)
  rw [List.mem_filter, List.mem_singleton, decide_eq_true_eq]
  constructor
  · rintro ⟨hin, same⟩
    obtain ⟨-, entry', hentry', htimer'⟩ := h.armed timer hin
    rw [same] at hentry'
    cases hentry.symm.trans hentry'
    exact h.eq_of_id hin hmem (Option.some.inj (htimer'.symm.trans htimer))
  · rintro rfl
    exact ⟨hmem, rfl⟩

/-- An entry in the table may get a new timer. -/
theorem rearm (h : s.Timed) (hc : s.inFlightQueue.get? c = some i)
    (hentry : s.entries[i]? = some entry) {f : InFlightEntry → InFlightEntry}
    (timer : (f entry).timer = some s.nextTimer)
    (correlationId : (f entry).envelope.correlationId = entry.envelope.correlationId)
    (entries : t.entries = s.entries.modify i f) (queue : t.inFlightQueue = s.inFlightQueue)
    (timers : t.ackTimers = (s.clearTimeout entry.timer).ackTimers ++
      [{ id := s.nextTimer, correlationId := c, entry := i }])
    (next : t.nextTimer = s.nextTimer + 1) : t.Timed where
  queued := by
    intro c' j hc'
    rw [queue] at hc'
    obtain ⟨entry', id, hentry', hcorrelation, htimer, hmem⟩ := h.queued c' j hc'
    rw [entries, timers, List.getElem?_modify, hentry']
    by_cases hij : i = j
    · subst hij
      cases hentry.symm.trans hentry'
      cases h.key_unique hc hc'
      refine ⟨f entry, s.nextTimer, by simp, correlationId.trans hcorrelation, timer, ?_⟩
      exact List.mem_append_right _ (List.mem_singleton.mpr rfl)
    · refine ⟨entry', id, by simp [hij], hcorrelation, htimer, List.mem_append_left _ ?_⟩
      exact (h.mem_clearTimeout hc hentry _).mpr ⟨hmem, Ne.symm hij⟩
  armed := by
    intro timer' hmem
    rw [timers] at hmem
    rw [queue, entries]
    obtain hold | hnew := List.mem_append.mp hmem
    · obtain ⟨hin, hother⟩ := (h.mem_clearTimeout hc hentry timer').mp hold
      rw [List.getElem?_modify_ne f _ (Ne.symm hother)]
      exact h.armed timer' hin
    · cases List.mem_singleton.mp hnew
      exact ⟨hc, f entry, by simp [hentry], timer⟩
  distinct := by
    rw [timers, List.map_append]
    refine (h.distinct.sublist (List.filter_sublist.map _)).append (List.nodup_singleton _) ?_
    intro id hid hnew
    obtain ⟨timer', hmem, rfl⟩ := List.mem_map.mp hid
    have hlt := h.fresh timer' (List.mem_filter.mp hmem).1
    exact absurd (List.mem_singleton.mp hnew) (Nat.ne_of_lt hlt)
  fresh := by
    intro timer' hmem
    rw [timers] at hmem
    rw [next]
    obtain hold | hnew := List.mem_append.mp hmem
    · have hlt := h.fresh timer' (List.mem_filter.mp hold).1
      omega
    · cases List.mem_singleton.mp hnew
      exact Nat.lt_succ_self _

/-- An entry may leave the table with its timer. -/
theorem drop (h : s.Timed) (hc : s.inFlightQueue.get? c = some i)
    (hentry : s.entries[i]? = some entry) {f : InFlightEntry → InFlightEntry}
    (entries : t.entries = s.entries.modify i f)
    (queue : t.inFlightQueue = s.inFlightQueue.delete c)
    (timers : t.ackTimers = (s.clearTimeout entry.timer).ackTimers)
    (next : t.nextTimer = s.nextTimer) : t.Timed where
  queued := by
    intro c' j hc'
    rw [queue, OrderedMap.get?_delete] at hc'
    split_ifs at hc' with hother
    obtain ⟨entry', id, hentry', hcorrelation, htimer, hmem⟩ := h.queued c' j hc'
    have hij : i ≠ j := by
      rintro rfl
      exact hother (h.key_unique hc' hc)
    rw [entries, timers, List.getElem?_modify_ne f _ hij]
    exact ⟨entry', id, hentry', hcorrelation, htimer,
      (h.mem_clearTimeout hc hentry _).mpr ⟨hmem, Ne.symm hij⟩⟩
  armed := by
    intro timer hmem
    rw [timers] at hmem
    obtain ⟨hin, hother⟩ := (h.mem_clearTimeout hc hentry timer).mp hmem
    have hkey : timer.correlationId ≠ c := by
      intro same
      have htimer := (h.armed timer hin).1
      rw [same] at htimer
      exact hother (Option.some.inj (htimer.symm.trans hc))
    rw [queue, entries, OrderedMap.get?_delete_ne hkey,
      List.getElem?_modify_ne f _ (Ne.symm hother)]
    exact h.armed timer hin
  distinct := by
    rw [timers]
    exact h.distinct.sublist (List.filter_sublist.map _)
  fresh := by
    intro timer hmem
    rw [timers] at hmem
    rw [next]
    exact h.fresh timer (List.mem_filter.mp hmem).1

/-- A new entry with its timer. -/
theorem enter (h : s.Timed) (hfree : s.inFlightQueue.get? c = none)
    (timer : entry.timer = some s.nextTimer)
    (correlationId : entry.envelope.correlationId = some c)
    (entries : t.entries = s.entries ++ [entry])
    (queue : t.inFlightQueue = s.inFlightQueue.set c s.entries.length)
    (timers : t.ackTimers = s.ackTimers ++
      [{ id := s.nextTimer, correlationId := c, entry := s.entries.length }])
    (next : t.nextTimer = s.nextTimer + 1) : t.Timed where
  queued := by
    intro c' j hc'
    rw [queue, OrderedMap.get?_set] at hc'
    rw [entries, timers]
    split_ifs at hc' with hnew
    · cases hc'
      subst hnew
      exact ⟨entry, s.nextTimer, by simp, correlationId, timer,
        List.mem_append_right _ (List.mem_singleton.mpr rfl)⟩
    · obtain ⟨entry', id, hentry', hcorrelation, htimer, hmem⟩ := h.queued c' j hc'
      have hlt : j < s.entries.length := (List.getElem?_eq_some_iff.mp hentry').1
      exact ⟨entry', id, by rw [List.getElem?_append_left hlt, hentry'], hcorrelation, htimer,
        List.mem_append_left _ hmem⟩
  armed := by
    intro timer' hmem
    rw [timers] at hmem
    rw [queue, entries]
    obtain hold | hnew := List.mem_append.mp hmem
    · obtain ⟨hget, entry', hentry', htimer⟩ := h.armed timer' hold
      have hne : timer'.correlationId ≠ c := by
        intro same
        rw [same, hfree] at hget
        cases hget
      have hlt : timer'.entry < s.entries.length := (List.getElem?_eq_some_iff.mp hentry').1
      rw [OrderedMap.get?_set_ne hne, List.getElem?_append_left hlt]
      exact ⟨hget, entry', hentry', htimer⟩
    · cases List.mem_singleton.mp hnew
      exact ⟨OrderedMap.get?_set_self .., entry, by simp, timer⟩
  distinct := by
    rw [timers, List.map_append]
    refine h.distinct.append (List.nodup_singleton _) ?_
    intro id hid hnew
    obtain ⟨timer', hmem, rfl⟩ := List.mem_map.mp hid
    exact absurd (List.mem_singleton.mp hnew) (Nat.ne_of_lt (h.fresh timer' hmem))
  fresh := by
    intro timer' hmem
    rw [timers] at hmem
    rw [next]
    obtain hold | hnew := List.mem_append.mp hmem
    · have hlt := h.fresh timer' hold
      omega
    · cases List.mem_singleton.mp hnew
      exact Nat.lt_succ_self _

end Timed

/-- What the log says of an entry is what became of it. -/
structure Accounted (o : SessionOptions) (s : PulseClientSession) (log : List InFlightAction)
    (i : Nat) (entry : InFlightEntry) : Prop where
  retries : retransmissions log i = entry.retries
  bound : entry.retries ≤ o.maxRetries
  waiting : s.InTable i → settlements log i = [] ∧ entry.settlement = none
  settled : ¬s.InTable i → ∃ cause settlement, settlements log i = [(cause, settlement)] ∧
    entry.settlement = some settlement ∧
    Justifies o entry.envelope.correlationId entry.retries cause settlement

structure Ledger (o : SessionOptions) (s : PulseClientSession) (log : List InFlightAction) :
    Prop where
  capacity : s.inFlightQueue.size ≤ o.queueCapacity
  entries : ∀ (i : Nat) entry, s.entries[i]? = some entry → Accounted o s log i entry
  admitted : ∀ i, .admitted i ∈ log → i < s.entries.length
  unknown : ∀ i, s.entries.length ≤ i → retransmissions log i = 0 ∧ settlements log i = []

/-- An action about other entries changes nothing. -/
theorem Accounted.other (h : Accounted o s log i entry) (table : t.InTable i ↔ s.InTable i)
    (noRetransmission : retransmissions items i = 0) (noSettlement : settlements items i = []) :
    Accounted o t (log ++ items) i entry where
  retries := by
    rw [retransmissions_append, noRetransmission]
    exact h.retries
  bound := h.bound
  waiting := by
    rw [table, settlements_append, noSettlement, List.append_nil]
    exact h.waiting
  settled := by
    rw [table, settlements_append, noSettlement, List.append_nil]
    exact h.settled

/-- One entry changes, and the log has what happened to it. -/
theorem Ledger.modify (h : Ledger o s log) (hentry : s.entries[i]? = some entry)
    {f : InFlightEntry → InFlightEntry} (entries : t.entries = s.entries.modify i f)
    (size : t.inFlightQueue.size ≤ s.inFlightQueue.size)
    (own : Accounted o t (log ++ items) i (f entry))
    (others : ∀ j, j ≠ i → (t.InTable j ↔ s.InTable j) ∧ retransmissions items j = 0 ∧
      settlements items j = [])
    (none : ∀ j, .admitted j ∉ items) : Ledger o t (log ++ items) where
  capacity := Nat.le_trans size h.capacity
  entries := by
    intro j entry' hentry'
    rw [entries] at hentry'
    by_cases hij : i = j
    · subst hij
      rw [List.getElem?_modify_eq, hentry] at hentry'
      cases hentry'
      exact own
    · rw [List.getElem?_modify_ne f _ hij] at hentry'
      obtain ⟨table, noRetransmission, noSettlement⟩ := others j (Ne.symm hij)
      exact (h.entries j entry' hentry').other table noRetransmission noSettlement
  admitted := by
    intro j hj
    rw [entries, List.length_modify]
    obtain hold | hnew := List.mem_append.mp hj
    · exact h.admitted j hold
    · exact absurd hnew (none j)
  unknown := by
    intro j hj
    rw [entries, List.length_modify] at hj
    have hij : j ≠ i := by
      rintro rfl
      exact absurd (List.getElem?_eq_some_iff.mp hentry).1 (Nat.not_lt.mpr hj)
    obtain ⟨-, noRetransmission, noSettlement⟩ := others j hij
    rw [retransmissions_append, settlements_append, noRetransmission, noSettlement]
    exact ⟨(h.unknown j hj).1, by rw [(h.unknown j hj).2]; rfl⟩

/-- The books of a session with their log. -/
structure InFlight (o : SessionOptions) (s : PulseClientSession) (log : List InFlightAction) :
    Prop where
  timed : s.Timed
  ledger : Ledger o s log

/-- The table, its entries and the timers of two states are the same. -/
structure SameTable (s t : PulseClientSession) : Prop where
  entries : t.entries = s.entries
  queue : t.inFlightQueue = s.inFlightQueue
  timers : t.ackTimers = s.ackTimers
  next : t.nextTimer = s.nextTimer

namespace SameTable

theorem refl (s : PulseClientSession) : SameTable s s := ⟨rfl, rfl, rfl, rfl⟩

theorem trans {u : PulseClientSession} (h : SameTable s t) (h' : SameTable t u) : SameTable s u :=
  ⟨h'.entries.trans h.entries, h'.queue.trans h.queue, h'.timers.trans h.timers,
    h'.next.trans h.next⟩

theorem transmitFrame (s : PulseClientSession) (envelope : PulseEventEnvelope) :
    SameTable s (s.transmitFrame envelope) := by
  rw [PulseClientSession.transmitFrame]
  split
  · exact refl s
  · split
    · exact ⟨rfl, rfl, rfl, rfl⟩
    · exact refl s

theorem handleDisconnectOrError (s : PulseClientSession) (random : ℚ) :
    SameTable s (s.handleDisconnectOrError o random) := by
  rw [PulseClientSession.handleDisconnectOrError]
  split
  · exact refl s
  · exact ⟨rfl, rfl, rfl, rfl⟩

theorem closeSocket (s : PulseClientSession) : SameTable s s.closeSocket := by
  rw [PulseClientSession.closeSocket]
  split
  · exact refl s
  · split
    · exact refl s
    · exact ⟨rfl, rfl, rfl, rfl⟩

theorem connect (s : PulseClientSession) (constructed : Bool) (random : ℚ) :
    SameTable s (s.connect o constructed random) := by
  simp only [PulseClientSession.connect]
  split
  · exact ⟨rfl, rfl, rfl, rfl⟩
  · refine trans ?_ (handleDisconnectOrError _ random)
    exact ⟨rfl, rfl, rfl, rfl⟩

end SameTable

namespace InFlight

theorem congr (h : InFlight o s log) (same : SameTable s t) : InFlight o t log where
  timed := by
    constructor
    · rw [same.queue, same.entries, same.timers]
      exact h.timed.queued
    · rw [same.queue, same.entries, same.timers]
      exact h.timed.armed
    · rw [same.timers]
      exact h.timed.distinct
    · rw [same.timers, same.next]
      exact h.timed.fresh
  ledger := by
    have table : ∀ i, t.InTable i ↔ s.InTable i := fun i => by rw [InTable, InTable, same.queue]
    constructor
    · rw [same.queue]
      exact h.ledger.capacity
    · intro i entry hentry
      rw [same.entries] at hentry
      have accounted : Accounted o t (log ++ []) i entry :=
        (h.ledger.entries i entry hentry).other (table i) rfl rfl
      rwa [List.append_nil] at accounted
    · rw [same.entries]
      exact h.ledger.admitted
    · rw [same.entries]
      exact h.ledger.unknown

/-- The timer of an entry in the table is replaced, and counted when it expired. -/
theorem rearm (h : InFlight o s log) (hc : s.inFlightQueue.get? c = some i)
    (hentry : s.entries[i]? = some entry) {f : InFlightEntry → InFlightEntry}
    (timer : (f entry).timer = some s.nextTimer)
    (correlationId : (f entry).envelope.correlationId = entry.envelope.correlationId)
    (settlement : (f entry).settlement = entry.settlement)
    (retries : (f entry).retries = entry.retries + retransmissions items i)
    (bound : (f entry).retries ≤ o.maxRetries)
    (quiet : (∀ j, settlements items j = []) ∧ (∀ j, .admitted j ∉ items) ∧
      ∀ j, j ≠ i → retransmissions items j = 0)
    (entries : t.entries = s.entries.modify i f) (queue : t.inFlightQueue = s.inFlightQueue)
    (timers : t.ackTimers = (s.clearTimeout entry.timer).ackTimers ++
      [{ id := s.nextTimer, correlationId := c, entry := i }])
    (next : t.nextTimer = s.nextTimer + 1) : InFlight o t (log ++ items) where
  timed := h.timed.rearm hc hentry timer correlationId entries queue timers next
  ledger := by
    have table : ∀ j, t.InTable j ↔ s.InTable j := fun j => by rw [InTable, InTable, queue]
    have accounted := h.ledger.entries i entry hentry
    have inTable : s.InTable i := ⟨c, hc⟩
    refine h.ledger.modify hentry entries (Nat.le_of_eq (by rw [queue])) ⟨?_, bound, ?_, ?_⟩
      (fun j hj => ⟨table j, quiet.2.2 j hj, quiet.1 j⟩) quiet.2.1
    · rw [retransmissions_append, accounted.retries, retries]
    · intro _
      rw [settlements_append, quiet.1 i, List.append_nil, settlement]
      exact accounted.waiting inTable
    · exact fun hnot => absurd ((table i).mpr inTable) hnot

/-- An entry leaves the table with its promise settled. -/
theorem drop (h : InFlight o s log) (hc : s.inFlightQueue.get? c = some i)
    (hentry : s.entries[i]? = some entry) {cause : SessionEvent} {settlement : Settlement}
    (justified : Justifies o entry.envelope.correlationId entry.retries cause settlement)
    (entries : t.entries = s.entries.modify i fun e => e.settle settlement)
    (queue : t.inFlightQueue = s.inFlightQueue.delete c)
    (timers : t.ackTimers = (s.clearTimeout entry.timer).ackTimers)
    (next : t.nextTimer = s.nextTimer) :
    InFlight o t (log ++ [.settled i cause settlement]) where
  timed := h.timed.drop hc hentry entries queue timers next
  ledger := by
    have accounted := h.ledger.entries i entry hentry
    obtain ⟨unsettled, hnone⟩ := accounted.waiting ⟨c, hc⟩
    have gone : ¬t.InTable i := by
      rintro ⟨c', hc'⟩
      rw [queue, OrderedMap.get?_delete] at hc'
      split_ifs at hc' with hother
      exact hother (h.timed.key_unique hc' hc)
    have table : ∀ j, j ≠ i → (t.InTable j ↔ s.InTable j) := by
      refine fun j hj => exists_congr fun c' => ?_
      rw [queue, OrderedMap.get?_delete]
      split_ifs with hsame
      · subst hsame
        rw [hc]
        exact iff_of_false id fun heq => hj (Option.some.inj heq).symm
      · rfl
    refine h.ledger.modify hentry entries ?_ ⟨?_, accounted.bound, fun hin => absurd hin gone, ?_⟩
      (fun j hj => ⟨table j hj, rfl, ?_⟩) (by simp)
    · have hsize := OrderedMap.size_delete_of_mem (OrderedMap.mem_keys_of_get? hc)
      rw [queue]
      omega
    · rw [retransmissions_append, accounted.retries]
      rfl
    · intro _
      refine ⟨cause, settlement, ?_, ?_, justified⟩
      · rw [settlements_append, unsettled, settlements_settled, if_pos rfl]
        rfl
      · simp only [InFlightEntry.settle, hnone]
    · rw [settlements_settled, if_neg (Ne.symm hj)]

/-- A request enters the table. -/
theorem enter (h : InFlight o s log) (entry : InFlightEntry)
    (hfree : s.inFlightQueue.get? c = none) (room : s.inFlightQueue.size < o.queueCapacity)
    (timer : entry.timer = some s.nextTimer)
    (correlationId : entry.envelope.correlationId = some c) (unsettled : entry.settlement = none)
    (untried : entry.retries = 0) (entries : t.entries = s.entries ++ [entry])
    (queue : t.inFlightQueue = s.inFlightQueue.set c s.entries.length)
    (timers : t.ackTimers = s.ackTimers ++
      [{ id := s.nextTimer, correlationId := c, entry := s.entries.length }])
    (next : t.nextTimer = s.nextTimer + 1) :
    InFlight o t (log ++ [.admitted s.entries.length]) where
  timed := h.timed.enter hfree timer correlationId entries queue timers next
  ledger := by
    have new : t.InTable s.entries.length := ⟨c, by rw [queue, OrderedMap.get?_set_self]⟩
    have table : ∀ j, j ≠ s.entries.length → (t.InTable j ↔ s.InTable j) := by
      refine fun j hj => exists_congr fun c' => ?_
      rw [queue, OrderedMap.get?_set]
      split_ifs with hsame
      · subst hsame
        rw [hfree]
        exact iff_of_false (fun heq => hj (Option.some.inj heq).symm) (Option.some_ne_none j).symm
      · rfl
    constructor
    · have hnew := OrderedMap.get?_eq_none_iff.mp hfree
      rw [queue, OrderedMap.size_set_of_not_mem hnew]
      exact room
    · intro j entry' hentry'
      rw [entries, List.getElem?_append] at hentry'
      split_ifs at hentry' with hold
      · exact (h.ledger.entries j entry' hentry').other (table j (Nat.ne_of_lt hold)) rfl rfl
      · have hj : j = s.entries.length := by
          have hlt := (List.getElem?_eq_some_iff.mp hentry').1
          rw [List.length_singleton] at hlt
          omega
        subst hj
        rw [Nat.sub_self] at hentry'
        cases hentry'
        obtain ⟨noRetransmission, noSettlement⟩ := h.ledger.unknown _ (Nat.le_refl _)
        refine ⟨?_, ?_, fun _ => ⟨?_, unsettled⟩, fun hnot => absurd new hnot⟩
        · rw [retransmissions_append, noRetransmission, untried]
          rfl
        · rw [untried]
          exact Nat.zero_le _
        · rw [settlements_append, noSettlement]
          rfl
    · intro j hj
      rw [entries, List.length_append, List.length_singleton]
      obtain hold | hnew := List.mem_append.mp hj
      · have hlt := h.ledger.admitted j hold
        omega
      · cases List.mem_singleton.mp hnew
        exact Nat.lt_succ_self _
    · intro j hj
      rw [entries, List.length_append, List.length_singleton] at hj
      obtain ⟨noRetransmission, noSettlement⟩ := h.ledger.unknown j (by omega)
      rw [retransmissions_append, settlements_append, noRetransmission, noSettlement]
      exact ⟨rfl, rfl⟩

/-- A frame is transmitted again, and its timer is armed anew. -/
theorem transmitted (h : InFlight o s log) (items : List InFlightAction)
    (hc : s.inFlightQueue.get? c = some i) (hentry : s.entries[i]? = some entry)
    {f : InFlightEntry → InFlightEntry}
    (correlationId : (f entry).envelope.correlationId = entry.envelope.correlationId)
    (settlement : (f entry).settlement = entry.settlement)
    (retries : (f entry).retries = entry.retries + retransmissions items i)
    (bound : (f entry).retries ≤ o.maxRetries)
    (quiet : (∀ j, settlements items j = []) ∧ (∀ j, .admitted j ∉ items) ∧
      ∀ j, j ≠ i → retransmissions items j = 0)
    (entries : t.entries = s.entries.modify i f) (queue : t.inFlightQueue = s.inFlightQueue)
    (timers : t.ackTimers = (s.clearTimeout entry.timer).ackTimers)
    (next : t.nextTimer = s.nextTimer) (envelope : PulseEventEnvelope) :
    InFlight o ((t.transmitFrame envelope).armAckTimeout c i) (log ++ items) := by
  have same := SameTable.transmitFrame t envelope
  refine h.rearm hc hentry (f := fun e => { f e with timer := some s.nextTimer }) rfl
    correlationId settlement retries bound quiet ?_ ?_ ?_ ?_
  · simp only [armAckTimeout, modifyEntry, same.entries, same.next, entries, next]
    exact List.modify_modify_eq ..
  · exact same.queue.trans queue
  · simp only [armAckTimeout, modifyEntry, same.timers, same.next, timers, next]
  · simp only [armAckTimeout, modifyEntry, same.next, next]

theorem flushEntry (h : InFlight o s log) (hc : s.inFlightQueue.get? c = some i) :
    InFlight o (s.flushEntry c i) log ∧ (s.flushEntry c i).inFlightQueue = s.inFlightQueue := by
  obtain ⟨entry, -, hentry, -⟩ := h.timed.queued c i hc
  have accounted := h.ledger.entries i entry hentry
  simp only [PulseClientSession.flushEntry, hentry]
  constructor
  · have later := h.transmitted [] hc hentry (f := fun e => { e with
        envelope := { entry.envelope with seq := some (s.currentSeq + 1) } })
      (t := { s.clearTimeout entry.timer with
        currentSeq := s.currentSeq + 1
        entries := s.entries.modify i fun e => { e with
          envelope := { entry.envelope with seq := some (s.currentSeq + 1) } } })
      rfl rfl rfl accounted.bound ⟨fun _ => rfl, by simp, fun _ _ => rfl⟩ rfl rfl rfl rfl
    rw [List.append_nil] at later
    exact later _
  · exact (SameTable.transmitFrame _ _).queue

theorem flushRetryQueue (h : InFlight o s log) : InFlight o s.flushRetryQueue log := by
  have hfold : ∀ (queue : List (String × Nat)) (s : PulseClientSession),
      (∀ p ∈ queue, s.inFlightQueue.get? p.1 = some p.2) → InFlight o s log →
      InFlight o (queue.foldl (fun s p => s.flushEntry p.1 p.2) s) log := by
    intro queue
    induction queue with
    | nil => exact fun _ _ h => h
    | cons p rest ih =>
        intro s listed h
        obtain ⟨flushed, hqueue⟩ := h.flushEntry (listed p (List.mem_cons_self ..))
        refine ih _ (fun q hq => ?_) flushed
        rw [hqueue]
        exact listed q (List.mem_cons_of_mem _ hq)
  refine hfold s.inFlightQueue.entries (s.setState .flushRetryQueue) (fun p hp => ?_)
    (h.congr ⟨rfl, rfl, rfl, rfl⟩)
  exact OrderedMap.mem_entries_iff.mp hp

theorem ackTimeout (h : InFlight o s log) {timer : AckTimer} (hmem : timer ∈ s.ackTimers)
    (id : Nat) : InFlight o ((s.clearTimeout (some timer.id)).ackTimeout o timer)
      (log ++ s.ackTimeoutActions o (.ackTimeout id) timer) := by
  obtain ⟨hc, entry, hentry, htimer⟩ := h.timed.armed timer hmem
  have accounted := h.ledger.entries timer.entry entry hentry
  have hcleared : (s.clearTimeout (some timer.id)).entries[timer.entry]? = some entry := hentry
  simp only [PulseClientSession.ackTimeout, ackTimeoutActions, hcleared, hentry, Option.elim_some]
  split_ifs with hretry
  · refine h.transmitted [.retransmitted timer.entry] hc hentry
      (f := fun e => { e with retries := e.retries + 1 })
      (t := { s.clearTimeout (some timer.id) with
        entries := s.entries.modify timer.entry fun e => { e with retries := e.retries + 1 } })
      rfl rfl ?_ hretry ⟨fun _ => rfl, by simp, fun j hj => ?_⟩ rfl rfl (by rw [htimer]) rfl _
    · rw [retransmissions_retransmitted, if_pos rfl]
    · rw [retransmissions_retransmitted, if_neg (Ne.symm hj)]
  · have exhausted : entry.retries = o.maxRetries :=
      Nat.le_antisymm accounted.bound (Nat.not_lt.mp hretry)
    refine h.drop hc hentry ⟨exhausted, rfl⟩ rfl rfl ?_ rfl
    simp only [clearTimeout, modifyEntry, htimer, List.filter_filter, Bool.and_self]

theorem handleAck (h : InFlight o s log) {ack : PulseEventEnvelope} (isAck : ack.type.isAck = true)
    (w : Nat) (stamp : Stamp) :
    InFlight o (s.handleAck ack) (log ++ s.handleAckActions (.message w ack stamp) ack) := by
  rw [PulseClientSession.handleAck, handleAckActions]
  cases hcorrelation : ack.correlationId with
  | none => simpa using h
  | some c =>
      simp only [Option.elim_some]
      split_ifs with hempty
      · simpa using h
      · cases hc : s.inFlightQueue.get? c with
        | none => simpa using h
        | some i =>
            obtain ⟨entry, -, hentry, hown, -⟩ := h.timed.queued c i hc
            simp only [hentry, Option.bind_some, Option.elim_some]
            refine h.drop hc hentry ⟨isAck, ?_, rfl⟩ rfl rfl rfl rfl
            rw [hcorrelation, hown]

/-- The loop of `disconnect` does not look at the table. -/
theorem foldl_rejectEntry_queue (l : List (String × Nat)) (s : PulseClientSession)
    (queue : OrderedMap String Nat) :
    l.foldl (fun s p => s.rejectEntry p.2) { s with inFlightQueue := queue } =
      { l.foldl (fun s p => s.rejectEntry p.2) s with inFlightQueue := queue } := by
  induction l generalizing s with
  | nil => rfl
  | cons p rest ih => exact ih (s.rejectEntry p.2)

/-- All entries leave the table, one after the other. -/
theorem rejectAll (h : InFlight o s log) {l : List (String × Nat)}
    (entries : s.inFlightQueue.entries = l) :
    InFlight o { l.foldl (fun s p => s.rejectEntry p.2) s with inFlightQueue := ∅ }
      (log ++ l.map fun p => .settled p.2 .disconnect sessionClosed) := by
  induction l generalizing s log with
  | nil =>
      have hempty : s.inFlightQueue = ∅ :=
        OrderedMap.eq_empty_of_size (by rw [OrderedMap.size, entries]; rfl)
      rw [List.map_nil, List.append_nil]
      exact h.congr ⟨rfl, hempty.symm, rfl, rfl⟩
  | cons p rest ih =>
      obtain ⟨c, i⟩ := p
      have hc : s.inFlightQueue.get? c = some i := by
        refine OrderedMap.mem_entries_iff.mp ?_
        rw [entries]
        exact List.mem_cons_self ..
      obtain ⟨entry, -, hentry, -⟩ := h.timed.queued c i hc
      have dropped : InFlight o { s.rejectEntry i with
          inFlightQueue := s.inFlightQueue.delete c }
          (log ++ [.settled i .disconnect sessionClosed]) := by
        refine h.drop hc hentry rfl rfl rfl ?_ rfl
        simp only [rejectEntry, hentry, Option.bind_some, modifyEntry]
      have hrest : (s.inFlightQueue.delete c).entries = rest := by
        have hnodup := s.inFlightQueue.nodup
        rw [entries, List.map_cons, List.nodup_cons] at hnodup
        have hdelete : (s.inFlightQueue.delete c).entries =
            s.inFlightQueue.entries.filter fun q => decide (q.1 ≠ c) := rfl
        rw [hdelete, entries, List.filter_cons_of_neg (by simp)]
        refine List.filter_eq_self.mpr fun q hq => decide_eq_true fun same => hnodup.1 ?_
        exact List.mem_map.mpr ⟨q, hq, same⟩
      have later := ih dropped hrest
      rw [foldl_rejectEntry_queue, List.append_assoc] at later
      exact later

theorem disconnect (h : InFlight o s log) :
    InFlight o s.disconnect
      (log ++ s.inFlightQueue.values.map fun i => .settled i .disconnect sessionClosed) := by
  have start : InFlight o { s with
      isExplicitlyClosed := true, reconnectTimer := false, connectionTimeoutTimer := false } log :=
    h.congr ⟨rfl, rfl, rfl, rfl⟩
  have rejected := start.rejectAll rfl
  rw [OrderedMap.values, List.map_map]
  simp only [PulseClientSession.disconnect]
  split
  · refine (rejected.congr (SameTable.closeSocket _)).congr ?_
    exact ⟨rfl, rfl, rfl, rfl⟩
  · exact rejected.congr ⟨rfl, rfl, rfl, rfl⟩

/-- A request is admitted, if there is room for it. -/
theorem sendEnvelope (h : InFlight o s log) {options : PulseEventEnvelope} {generated : String}
    (distinct : s.admits o (complete options generated) = true →
      s.inFlightQueue.get? (options.correlationId.getD generated) = none) :
    InFlight o (s.sendEnvelope o options generated).1
      (log ++ if s.admits o (complete options generated) then [.admitted s.entries.length]
        else []) := by
  simp only [PulseClientSession.sendEnvelope]
  by_cases full : s.inFlightQueue.size ≥ o.queueCapacity
  · have refused : s.admits o (complete options generated) = false := by
      simp [admits, Nat.not_lt.mpr full]
    rw [if_pos full, refused]
    simpa using h
  · rw [if_neg full]
    have hack : (s.numbered options generated).ackRequired = options.ackRequired := rfl
    by_cases ackRequired : options.ackRequired = some true
    · have admitted : s.admits o (complete options generated) = true := by
        simp [admits, complete, ackRequired, Nat.not_le.mp full]
      rw [hack, if_neg (not_not.mpr ackRequired), if_pos admitted]
      refine InFlight.congr ?_ (SameTable.transmitFrame _ _)
      refine h.enter
        { envelope := s.numbered options generated, timer := some s.nextTimer }
        (distinct admitted) (Nat.not_le.mp full) rfl rfl rfl rfl ?_ rfl rfl rfl
      simp [armAckTimeout, modifyEntry, List.modify_eq_take_cons_drop]
    · have unacknowledged : s.admits o (complete options generated) = false := by
        simp [admits, complete, ackRequired]
      rw [hack, if_pos ackRequired, unacknowledged]
      have sent : InFlight o { s with
          currentSeq := (s.numbered options generated).seq.getD 0 } log :=
        h.congr ⟨rfl, rfl, rfl, rfl⟩
      simpa using sent.congr (SameTable.transmitFrame _ _)

theorem resubscribeRooms (h : InFlight o s log) {stamp : Stamp}
    (distinct : s.admits o (complete (batchJoinRequest o s.desiredRooms.toList stamp)
      stamp.correlationId) = true → s.inFlightQueue.get? stamp.correlationId = none) :
    InFlight o (s.resubscribeRooms o stamp)
      (log ++ if s.admits o (complete (batchJoinRequest o s.desiredRooms.toList stamp)
        stamp.correlationId) then [.admitted s.entries.length] else []) := by
  have start : InFlight o (s.setState .resubscribingRooms) log := h.congr ⟨rfl, rfl, rfl, rfl⟩
  exact (start.sendEnvelope distinct).congr ⟨rfl, rfl, rfl, rfl⟩

theorem resubscribed (h : InFlight o s log) : InFlight o s.resubscribed log :=
  h.flushRetryQueue.congr ⟨rfl, rfl, rfl, rfl⟩

theorem handleConnectAck (h : InFlight o s log) {w : Nat} {envelope : PulseEventEnvelope}
    {stamp : Stamp} (type : envelope.type = .sysConnectAck)
    (distinct : s.Distinct o (.message w envelope stamp)) :
    InFlight o (s.handleConnectAck o stamp)
      (log ++ s.sendActions o (.message w envelope stamp)) := by
  have start : InFlight o { s with
      connectionTimeoutTimer := false, reconnectAttempt := 0, lastBackoffDelay := 0 } log :=
    h.congr ⟨rfl, rfl, rfl, rfl⟩
  simp only [Distinct, submission, type, true_and] at distinct
  simp only [PulseClientSession.handleConnectAck, sendActions, submission, type, true_and]
  split_ifs with hrooms
  · rw [if_pos hrooms] at distinct
    exact start.resubscribeRooms fun admitted => distinct _ rfl admitted _ rfl
  · rw [Option.elim_none, List.append_nil]
    exact start.flushRetryQueue.congr ⟨rfl, rfl, rfl, rfl⟩

/-- The inversion lemma of the session, for the requests in flight. -/
theorem step {e : SessionEvent} (h : InFlight o s log) (distinct : s.Distinct o e)
    (hstep : s.step o e = some t) : InFlight o t (log ++ s.actions o e) := by
  have quiet : ∀ {u : PulseClientSession}, SameTable s u → InFlight o u (log ++ []) := by
    intro u same
    rw [List.append_nil]
    exact h.congr same
  cases e with
  | connect constructed random =>
      cases hstep
      exact quiet (.connect s constructed random)
  | sendEnvelope options generated =>
      cases hstep
      exact h.sendEnvelope fun admitted => distinct _ rfl admitted _ rfl
  | joinRoom roomId stamp =>
      cases hstep
      refine (h.congr (t := { s with desiredRooms := s.desiredRooms.insert roomId })
        ⟨rfl, rfl, rfl, rfl⟩).sendEnvelope fun admitted => ?_
      exact distinct _ rfl admitted _ rfl
  | joinRooms rooms stamp =>
      cases hstep
      refine (h.congr (t := { s with
        desiredRooms := rooms.foldl OrderedSet.insert s.desiredRooms })
        ⟨rfl, rfl, rfl, rfl⟩).sendEnvelope fun admitted => ?_
      exact distinct _ rfl admitted _ rfl
  | leaveRoom roomId stamp =>
      cases hstep
      refine (h.congr (t := { s with desiredRooms := s.desiredRooms.erase roomId })
        ⟨rfl, rfl, rfl, rfl⟩).sendEnvelope fun admitted => ?_
      exact distinct _ rfl admitted _ rfl
  | sendRoomMessage roomId payload ackRequired stamp =>
      cases hstep
      exact h.sendEnvelope fun admitted => distinct _ rfl admitted _ rfl
  | sendDirectMessage recipientId payload ackRequired stamp =>
      cases hstep
      exact h.sendEnvelope fun admitted => distinct _ rfl admitted _ rfl
  | disconnect =>
      cases hstep
      exact h.disconnect
  | disconnected =>
      obtain ⟨-, hend⟩ := Option.ite_none_left_eq_some.mp hstep
      cases hend
      exact quiet ⟨rfl, rfl, rfl, rfl⟩
  | resubscribed i =>
      rw [PulseClientSession.step, Option.bind_eq_some_iff] at hstep
      obtain ⟨awaited, -, hstep⟩ := hstep
      obtain ⟨-, hrest⟩ := Option.ite_none_right_eq_some.mp hstep
      cases hrest
      refine resubscribed ?_
      exact quiet ⟨rfl, rfl, rfl, rfl⟩
  | ackTimeout id =>
      rw [PulseClientSession.step, Option.map_eq_some_iff] at hstep
      obtain ⟨timer, hfind, rfl⟩ := hstep
      have hid : timer.id = id := of_decide_eq_true (List.find?_some hfind :)
      rw [actions, hfind, ← hid]
      exact h.ackTimeout (List.mem_of_find?_eq_some hfind) _
  | reconnectTimeout constructed random =>
      obtain ⟨-, hfires⟩ := Option.ite_none_right_eq_some.mp hstep
      cases hfires
      split
      · exact quiet ⟨rfl, rfl, rfl, rfl⟩
      · refine quiet (SameTable.trans ?_ (.connect _ constructed random))
        exact ⟨rfl, rfl, rfl, rfl⟩
  | connectionTimeout random =>
      obtain ⟨-, hfires⟩ := Option.ite_none_right_eq_some.mp hstep
      cases hfires
      simp only [connectionTimeout]
      split
      · have closes := SameTable.closeSocket { s with connectionTimeoutTimer := false }
        have closed : SameTable s
            ({ s with connectionTimeoutTimer := false }.closeSocket.setState .disconnected) :=
          ⟨closes.entries, closes.queue, closes.timers, closes.next⟩
        exact quiet (closed.trans (.handleDisconnectOrError _ random))
      · exact quiet ⟨rfl, rfl, rfl, rfl⟩
  | opened w =>
      obtain ⟨-, hopens⟩ := Option.ite_none_right_eq_some.mp hstep
      cases hopens
      exact quiet ⟨rfl, rfl, rfl, rfl⟩
  | message w envelope stamp =>
      obtain ⟨-, harrives⟩ := Option.ite_none_right_eq_some.mp hstep
      cases harrives
      rw [handleIncomingEnvelope, actions]
      split_ifs with type isAck
      · exact h.handleConnectAck type distinct
      · exact h.handleAck isAck w stamp
      · exact quiet (.refl s)
  | closing w =>
      obtain ⟨-, hcloses⟩ := Option.ite_none_right_eq_some.mp hstep
      cases hcloses
      exact quiet ⟨rfl, rfl, rfl, rfl⟩
  | closed w random =>
      obtain ⟨-, hcloses⟩ := Option.ite_none_right_eq_some.mp hstep
      cases hcloses
      simp only [handleClose]
      split
      · refine quiet (SameTable.trans ?_ (.handleDisconnectOrError _ random))
        exact ⟨rfl, rfl, rfl, rfl⟩
      · exact quiet ⟨rfl, rfl, rfl, rfl⟩
  | error w random =>
      obtain ⟨-, hfails⟩ := Option.ite_none_right_eq_some.mp hstep
      cases hfails
      simp only [handleError]
      split
      · refine quiet (SameTable.trans ?_ (.handleDisconnectOrError _ random))
        exact ⟨rfl, rfl, rfl, rfl⟩
      · exact quiet ⟨rfl, rfl, rfl, rfl⟩

theorem initial (o : SessionOptions) : InFlight o {} [] where
  timed := by
    refine ⟨?_, nofun, List.nodup_nil, nofun⟩
    intro c i hc
    cases hc
  ledger := by
    refine ⟨Nat.zero_le _, ?_, nofun, fun _ _ => ⟨rfl, rfl⟩⟩
    intro i entry hentry
    cases hentry

theorem inFlightExact (h : InFlight o s log) : InFlightExact o (s, log) where
  capacity := h.ledger.capacity
  timer := fun _ _ hc => h.timed.exactly_one hc
  noOther := fun timer hmem => (h.timed.armed timer hmem).1
  settled := by
    intro i hadmitted
    have hlt := h.ledger.admitted i hadmitted
    have hentry : s.entries[i]? = some s.entries[i] := List.getElem?_eq_getElem hlt
    have accounted := h.ledger.entries i _ hentry
    refine ⟨s.entries[i], hentry, ?_⟩
    by_cases inTable : s.InTable i
    · exact .inl ⟨inTable, accounted.waiting inTable⟩
    · obtain ⟨cause, settlement, hlog, hsettled, justified⟩ := accounted.settled inTable
      rw [← accounted.retries] at justified
      exact .inr ⟨inTable, cause, settlement, hlog, hsettled, justified⟩

end InFlight

theorem retransmitted_not_mem_sendActions (o : SessionOptions) (s : PulseClientSession)
    (e : SessionEvent) (i : Nat) : .retransmitted i ∉ s.sendActions o e := by
  rw [sendActions]
  cases s.submission o e with
  | none => exact List.not_mem_nil
  | some r =>
      rw [Option.elim_some]
      split <;> simp

theorem retransmitted_not_mem_handleAckActions (s : PulseClientSession) (e : SessionEvent)
    (envelope : PulseEventEnvelope) (i : Nat) :
    .retransmitted i ∉ s.handleAckActions e envelope := by
  rw [handleAckActions]
  cases envelope.correlationId with
  | none => exact List.not_mem_nil
  | some c =>
      rw [Option.elim_some]
      split
      · exact List.not_mem_nil
      · cases s.inFlightQueue.get? c <;> simp

theorem ackTimeout_retransmits {timer : AckTimer} {e : SessionEvent}
    (logged : .retransmitted i ∈ s.ackTimeoutActions o e timer) :
    s.Retransmits ((s.clearTimeout (some timer.id)).ackTimeout o timer) i := by
  rw [ackTimeoutActions] at logged
  cases hentry : s.entries[timer.entry]? with
  | none => simp [hentry] at logged
  | some entry =>
      rw [hentry, Option.elim_some] at logged
      split_ifs at logged with retry
      · cases List.mem_singleton.mp logged
        refine ⟨entry, hentry, fun w => ?_⟩
        have hcleared : (s.clearTimeout (some timer.id)).entries[timer.entry]? = some entry :=
          hentry
        simp only [PulseClientSession.ackTimeout, hcleared, if_pos retry]
        exact sentOn_transmitFrame ((s.clearTimeout (some timer.id)).modifyEntry timer.entry _)
          entry.envelope w
      · cases List.mem_singleton.mp logged

/-- What the log calls a retransmission is one. -/
theorem step_retransmits {e : SessionEvent} (hstep : s.step o e = some t)
    (logged : .retransmitted i ∈ s.actions o e) : s.Retransmits t i := by
  cases e with
  | ackTimeout id =>
      rw [step, Option.map_eq_some_iff] at hstep
      obtain ⟨timer, hfind, rfl⟩ := hstep
      rw [actions, hfind, Option.elim_some] at logged
      have hid : timer.id = id := of_decide_eq_true (List.find?_some hfind :)
      rw [← hid]
      exact ackTimeout_retransmits logged
  | disconnect =>
      obtain ⟨j, -, hsettled⟩ := List.mem_map.mp logged
      cases hsettled
  | message w envelope stamp =>
      rw [actions] at logged
      split_ifs at logged
      · exact absurd logged (retransmitted_not_mem_sendActions o s _ i)
      · exact absurd logged (retransmitted_not_mem_handleAckActions s _ _ i)
      · exact absurd logged List.not_mem_nil
  | _ => exact absurd logged (retransmitted_not_mem_sendActions o s _ i)

/-- In every run in which the requests in flight have different correlation ids, each state
keeps its accounts of them, and each retransmission adds the frame to the socket which is
open. -/
theorem in_flight_accounted (o : SessionOptions) (es : List SessionEvent)
    (distinct : EveryStep (logging (step o) (actions o)) (fun s e _ => s.1.Distinct o e)
      ({}, []) es) :
    Always (logging (step o) (actions o)) (InFlightExact o) ({}, []) es ∧
      EveryStep (logging (step o) (actions o)) (fun s e t => ∀ i,
        .retransmitted i ∈ s.1.actions o e → s.1.Retransmits t.1 i) ({}, []) es := by
  have preserved : ∀ (s : PulseClientSession × List InFlightAction) (e : SessionEvent)
      (t : PulseClientSession × List InFlightAction), InFlight o s.1 s.2 →
      logging (step o) (actions o) s e = some t → s.1.Distinct o e → InFlight o t.1 t.2 := by
    intro s e t h hstep hdistinct
    rw [logging, Option.map_eq_some_iff] at hstep
    obtain ⟨u, hu, rfl⟩ := hstep
    exact h.step hdistinct hu
  have always := always_of_everyStep (I := fun s => InFlight o s.1 s.2) preserved
    (InFlight.initial o) distinct
  refine ⟨always.mono fun s h => h.inFlightExact, ?_⟩
  refine everyStep_of_invariant (I := fun _ => True) (fun _ _ _ _ _ => trivial) ?_ trivial es
  intro s e t _ hstep i logged
  rw [logging, Option.map_eq_some_iff] at hstep
  obtain ⟨u, hu, rfl⟩ := hstep
  exact step_retransmits hu logged

def accountedOptions : SessionOptions := { userId := "alice", maxRetries := 1, queueCapacity := 2 }

def accountedStamp (correlationId : String) : Stamp := { eventId := "e", correlationId, now := 0 }

def accountedAck (correlationId : String) : PulseEventEnvelope :=
  { eventId := "a", type := .deliveryAck, timestamp := .ofInt 0, senderId := "server"
    payload := [], correlationId := some correlationId }

/-- One request is given up, one is acknowledged, and one is in flight when the session ends;
a fourth finds no room, and the first acknowledgement comes too late. -/
def accountedRun : List SessionEvent :=
  let stamp := accountedStamp
  [.connect true 0, .opened 0,
    .message 0 { accountedAck "k" with type := .sysConnectAck } (stamp "k"),
    .sendDirectMessage "bob" [] true (stamp "k1"), .ackTimeout 0,
    .sendDirectMessage "bob" [] true (stamp "k2"), .sendDirectMessage "bob" [] true (stamp "k3"),
    .ackTimeout 1, .message 0 (accountedAck "k1") (stamp "k"),
    .message 0 (accountedAck "k2") (stamp "k"), .sendDirectMessage "bob" [] true (stamp "k4"),
    .disconnect]

theorem in_flight_accounted_run :
    ∃ s, run (logging (step accountedOptions) (actions accountedOptions)) ({}, [])
        accountedRun = some s ∧ InFlightExact accountedOptions s ∧ s.1.entries.length = 3 ∧
      s.2.length = 7 ∧ (s.1.sentOn 0).map (·.correlationId) =
        [some "k1", some "k1", some "k2", some "k4"] := by
  have hrun : (run (logging (step accountedOptions) (actions accountedOptions)) ({}, [])
      accountedRun).any (fun s => decide (s.1.entries.length = 3 ∧ s.2.length = 7 ∧
        (s.1.sentOn 0).map (·.correlationId) =
          [some "k1", some "k1", some "k2", some "k4"])) = true := by
    decide +kernel
  obtain ⟨s, hs, hend⟩ := (Option.any_eq_true _ _).mp hrun
  rw [decide_eq_true_eq] at hend
  have accounts := (in_flight_accounted accountedOptions accountedRun (by decide +kernel)).1
  exact ⟨s, hs, accounts.final hs, hend⟩

end PulseClientSession

end Pulse
