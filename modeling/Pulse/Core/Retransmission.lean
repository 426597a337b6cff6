import Pulse.Core.Acknowledgements
import Pulse.Core.IdempotencyTrace
import Pulse.Core.Rejection

/-!
# Retransmissions

Once a node has accepted a message, its entry stays in the cache while the event keeps
within its window, whatever else the node does, and from whatever state it started.
Every frame that repeats the event is then answered from the entry, and has no other
effect.
-/

namespace Pulse

open Collections Js MessageDispatcher Transition

/-- The event, recorded at `time`, is in its window. -/
def WithinWindow (options : IdempotencyOptions) (id : EventId) (time now : Int)
    (log : List CacheTouch) : Prop :=
  othersSince id (touchedIds log) < options.capacity ∧ now - time ≤ options.ttlMs

instance (options : IdempotencyOptions) (id : EventId) (time now : Int) (log : List CacheTouch) :
    Decidable (WithinWindow options id time now log) :=
  inferInstanceAs (Decidable (_ ∧ _))

/-- The entry is in the cache, in the order of last use, unless the event has left its window by
the number of others used since. -/
def Held (options : IdempotencyOptions) (id : EventId) (entry : IdempotencyEntry)
    (m : IdempotencyManager) (log : List CacheTouch) : Prop :=
  m.cache.get? id = some entry ∧ Retained id m.cache.keys (touchedIds log) ∨
    options.capacity ≤ othersSince id (touchedIds log)

section held

open IdempotencyManager IdempotencyUse

variable {options : IdempotencyOptions} {m : IdempotencyManager} {log : List CacheTouch}
variable {u : IdempotencyUse} {id : EventId} {entry : IdempotencyEntry}

/-- A use of another event brings in no entry. -/
theorem get?_of_use (hne : u.envelope.eventId ≠ id) (legal : u.Legal options m)
    (h : (u.apply options m).cache.get? id = some entry) : m.cache.get? id = some entry := by
  by_cases hhit : Hits options m u.envelope.eventId u.now
  · cases hrec : u.recorded with
    | some ack => exact absurd hhit (legal (by simp [hrec]))
    | none =>
        simp only [IdempotencyUse.apply, hrec, get?_check_hit hhit] at h
        exact h
  · have hmiss := check_of_miss u.envelope.payload hhit
    cases hrec : u.recorded with
    | none =>
        simp only [IdempotencyUse.apply, hrec, hmiss] at h
        rwa [OrderedMap.get?_delete_ne hne.symm] at h
    | some ack =>
        simp only [IdempotencyUse.apply, hrec, hmiss, recordAck] at h
        rw [OrderedMap.get?_set_ne hne.symm] at h
        have hold := get?_evictOldest h
        rwa [OrderedMap.get?_delete_ne hne.symm] at hold

/-- A use keeps the entry, if one of its own event comes within the window. -/
theorem Held.apply (h : Held options id entry m log) (legal : u.Legal options m)
    (window : u.envelope.eventId = id → WithinWindow options id entry.timestamp u.now log) :
    Held options id entry (u.apply options m) (log ++ u.touch options m) := by
  by_cases hown : u.envelope.eventId = id
  · obtain ⟨hothers, hfresh⟩ := window hown
    obtain ⟨hentry, -⟩ := h.resolve_right (Nat.not_le.mpr hothers)
    subst hown
    have hhit : Hits options m u.envelope.eventId u.now := ⟨entry, hentry, hfresh⟩
    cases hrec : u.recorded with
    | some ack => exact absurd hhit (legal (by simp [hrec]))
    | none =>
        refine Or.inl ⟨?_, ?_⟩
        · simp only [IdempotencyUse.apply, hrec, get?_check_hit hhit]
          exact hentry
        · rw [touchedIds, List.map_append, ← touchedIds, touch_of_hit hhit]
          simp only [IdempotencyUse.apply, hrec, keys_check_hit _ hhit]
          exact retained_self m.cache.keys_nodup.not_mem_erase _
  · rcases h with ⟨hentry, hretained⟩ | hleft
    · refine (Retained.use hretained hown legal).imp_left fun hretained' => ⟨?_, hretained'⟩
      obtain ⟨entry', hentry'⟩ :=
        Option.isSome_iff_exists.mp (OrderedMap.get?_isSome_iff.mpr hretained'.1)
      have hold := get?_of_use hown legal hentry'
      rw [hentry, Option.some.injEq] at hold
      rw [hentry', hold]
    · exact Or.inr (Nat.le_trans hleft (IdempotencyTrace.othersSince_le_touch hown))

/-- A recording is held. -/
theorem held_of_recorded {ack : PulseEventEnvelope} (recorded : u.recorded = some ack)
    (legal : u.Legal options m) :
    Held options u.envelope.eventId
      { eventId := u.envelope.eventId, payloadHash := hashPayload options u.envelope.payload,
        ackEnvelope := ack, timestamp := u.now }
      (u.apply options m) [.recorded u.envelope ack u.now] := by
  have hmiss := check_of_miss u.envelope.payload (legal (by rw [recorded]; rfl))
  have hnew : u.envelope.eventId ∉
      (evictOldest options (m.cache.delete u.envelope.eventId)).keys := by
    intro hmem
    have hdeleted := mem_keys_evictOldest hmem
    simp at hdeleted
  simp only [IdempotencyUse.apply, recorded, hmiss, recordAck]
  refine Or.inl ⟨OrderedMap.get?_set_self _ _ _, ?_⟩
  rw [OrderedMap.keys_set_of_not_mem hnew]
  exact retained_self hnew []

end held

namespace MessageDispatcher

variable {cfg : ServerConfig} {n : Node} {sender : Connection} {raw : Option Json} {tick : Tick}
variable {envelope : PulseEventEnvelope}

theorem checkMessage_of_hit {entry : IdempotencyEntry} {now : Int}
    (message : envelope.type.isMessage = true)
    (hentry : n.idempotencyManager.cache.get? envelope.eventId = some entry)
    (fresh : now - entry.timestamp ≤ cfg.idempotency.ttlMs)
    (same : entry.payloadHash = IdempotencyManager.hashPayload cfg.idempotency envelope.payload) :
    (checkMessage cfg n sender envelope now).2 = .replayed envelope entry.ackEnvelope := by
  have hcheck := IdempotencyManager.check_of_hit envelope.payload hentry fresh
  simp only [checkMessage, message, if_true, hcheck, same, ne_eq, not_true_eq_false, if_false,
    Bool.and_false, Bool.false_eq_true]

/-- A message whose entry is found, with the same payload digest, is answered from it. -/
theorem dispatchRawMessage_of_hit {entry : IdempotencyEntry}
    (received : receivedMessage n sender raw tick = some envelope)
    (hentry : n.idempotencyManager.cache.get? envelope.eventId = some entry)
    (fresh : tick.now - entry.timestamp ≤ cfg.idempotency.ttlMs)
    (same : entry.payloadHash = IdempotencyManager.hashPayload cfg.idempotency envelope.payload) :
    Node.Unaffected cfg sender tick.now n (dispatchRawMessage cfg n sender raw tick) ∧
      frameHandover cfg n sender raw tick = [(sender, replayAck envelope entry.ackEnvelope)] := by
  have hverdict : (judge cfg n sender raw tick).2 = .replayed envelope entry.ackEnvelope := by
    rw [← receive_idempotencyManager n sender raw tick] at hentry
    rw [judge_of_message received]
    exact checkMessage_of_hit (receivedMessage_eq_some.mp received).2 hentry fresh same
  have hadmitted : judge cfg n sender raw tick =
      ((judge cfg n sender raw tick).1, .replayed envelope entry.ackEnvelope) :=
    Prod.ext rfl hverdict
  have hjudge := judge_unaffected cfg n sender raw tick
  refine ⟨hjudge.trans ?_, ?_⟩
  · rw [dispatchRawMessage, hadmitted, answer]
    exact .sendReply ..
  · rw [frameHandover_eq, hadmitted]
    rfl

end MessageDispatcher

namespace Node

variable {cfg : ServerConfig}

/-- The uses of the event come within its window, which starts at `time`. -/
def KeepsWindow (cfg : ServerConfig) (id : EventId) (time : Int) (s : Node × List CacheTouch)
    (e : NodeEvent) : Prop :=
  ∀ u ∈ s.1.cacheUse cfg e, u.envelope.eventId = id →
    WithinWindow cfg.idempotency id time u.now s.2

instance (cfg : ServerConfig) (id : EventId) (time : Int) (s : Node × List CacheTouch)
    (e : NodeEvent) : Decidable (KeepsWindow cfg id time s e) :=
  inferInstanceAs (Decidable (∀ u ∈ s.1.cacheUse cfg e, _ → _))

theorem held_step {id : EventId} {entry : IdempotencyEntry} {s t : Node × List CacheTouch}
    {e : NodeEvent} (h : Held cfg.idempotency id entry s.1.idempotencyManager s.2)
    (hstep : logging (step cfg) (touches cfg) s e = some t)
    (window : KeepsWindow cfg id entry.timestamp s e) :
    Held cfg.idempotency id entry t.1.idempotencyManager t.2 := by
  rw [logging, Option.map_eq_some_iff] at hstep
  obtain ⟨n, hn, rfl⟩ := hstep
  simp only [step_idempotencyManager hn, touches]
  cases huse : s.1.cacheUse cfg e with
  | none =>
      simp only [Option.elim_none, List.append_nil]
      exact h
  | some u => exact h.apply (cacheUse_legal huse) (window u huse)

/-- The entry of an accepted message is held. -/
theorem held_of_accepted {n : Node} {sender : Connection} {raw : Option Json} {tick : Tick}
    {envelope : PulseEventEnvelope}
    (accepted : acceptedMessage cfg n sender raw tick = some envelope) :
    let ack := messageAck (judge cfg n sender raw tick).1 sender envelope tick
    Held cfg.idempotency envelope.eventId
      { eventId := envelope.eventId
        payloadHash := IdempotencyManager.hashPayload cfg.idempotency envelope.payload
        ackEnvelope := ack, timestamp := tick.now }
      (dispatchRawMessage cfg n sender raw tick).idempotencyManager
      [.recorded envelope ack tick.now] := by
  intro ack
  have huse : frameUse cfg n sender raw tick =
      some { envelope, now := tick.now, recorded := some ack } := by
    rw [frameUse, (acceptedMessage_received accepted).1, accepted]
    rfl
  rw [dispatchRawMessage_idempotencyManager, huse, Option.elim_some]
  exact held_of_recorded (u := { envelope, now := tick.now, recorded := some ack }) rfl
    (frameUse_legal huse)

/-- From any state: after a message was accepted, and whatever the node did since, a frame that
repeats it within its window is answered with the recorded acknowledgement, addressed to the
request at hand: a socket that takes frames gains it. Nothing else is handed over, and nothing
changes. -/
theorem retransmission_no_op {n m : Node} {sender : Connection} {raw : Option Json}
    {tick : Tick} {envelope : PulseEventEnvelope}
    (accepted : acceptedMessage cfg n sender raw tick = some envelope)
    {es : List NodeEvent} {log : List CacheTouch}
    (hrun : run (logging (step cfg) (touches cfg)) (dispatchRawMessage cfg n sender raw tick,
      [.recorded envelope (messageAck (judge cfg n sender raw tick).1 sender envelope tick)
        tick.now]) es = some (m, log))
    (window : EveryStep (logging (step cfg) (touches cfg))
      (fun s e _ => KeepsWindow cfg envelope.eventId tick.now s e)
      (dispatchRawMessage cfg n sender raw tick,
        [.recorded envelope (messageAck (judge cfg n sender raw tick).1 sender envelope tick)
          tick.now]) es)
    {sender' : Connection} {raw' : Option Json} {tick' : Tick} {envelope' : PulseEventEnvelope}
    (received : receivedMessage m sender' raw' tick' = some envelope')
    (same : envelope'.eventId = envelope.eventId ∧ envelope'.payload = envelope.payload)
    (within : WithinWindow cfg.idempotency envelope.eventId tick.now tick'.now log) :
    let ack := replayAck envelope'
      (messageAck (judge cfg n sender raw tick).1 sender envelope tick)
    let m' := dispatchRawMessage cfg m sender' raw' tick'
    ((m.sockets sender'.connectionId).Writable sender'.maxBufferedAmountBytes →
        (m'.sockets sender'.connectionId).sent =
          (m.sockets sender'.connectionId).sent ++ [ack]) ∧
      frameHandover cfg m sender' raw' tick' = [(sender', ack)] ∧ Answers ack envelope' ∧
      Unaffected cfg sender' tick'.now m m' ∧ m'.published = m.published := by
  have hheld := (always_of_everyStep (I := fun s : Node × List CacheTouch =>
    Held cfg.idempotency envelope.eventId _ s.1.idempotencyManager s.2)
    (fun _ _ _ h hstep hwindow => held_step h hstep hwindow) (held_of_accepted accepted)
    window).final hrun
  obtain ⟨hentry, -⟩ := hheld.resolve_right (Nat.not_le.mpr within.1)
  obtain ⟨hid, hpayload⟩ := same
  rw [← hid] at hentry
  obtain ⟨hunaffected, hhandover⟩ := dispatchRawMessage_of_hit received hentry
    (show tick'.now - _ ≤ cfg.idempotency.ttlMs from within.2) (by rw [hpayload])
  refine ⟨fun writable => ?_, hhandover, answers_of_replay envelope' _, hunaffected,
    hunaffected.published⟩
  have hreaches := dispatchRawMessage_reaches cfg m sender' raw' tick' sender'.connectionId
  rw [← frameHandover, hhandover] at hreaches
  refine (hreaches ?_).trans ?_
  · intro f hf _
    rw [List.mem_singleton.mp hf]
    exact writable
  · simp [framesFor]

/-- Two frames of one text are the same event with the same payload. -/
theorem receivedMessage_same {n m : Node} {sender sender' : Connection} {obj : Fields}
    {tick tick' : Tick} {envelope envelope' : PulseEventEnvelope} {id : EventId}
    (named : EventValidator.stringOf (obj.get? "eventId") = some id) (hne : id ≠ "")
    (h : receivedMessage n sender (some (.obj obj)) tick = some envelope)
    (h' : receivedMessage m sender' (some (.obj obj)) tick' = some envelope') :
    envelope'.eventId = envelope.eventId ∧ envelope'.payload = envelope.payload := by
  obtain ⟨_, hraw, -, -, hid, hpayload, -⟩ :=
    EventValidator.validateIncoming_ok (receive_ok (receivedMessage_eq_some.mp h).1)
  obtain ⟨_, hraw', -, -, hid', hpayload', -⟩ :=
    EventValidator.validateIncoming_ok (receive_ok (receivedMessage_eq_some.mp h').1)
  cases hraw
  cases hraw'
  exact ⟨(hid' id named hne).trans (hid id named hne).symm, hpayload'.trans hpayload.symm⟩

/-- Alice sends a message to her room, Bob joins it and sends the same frame again: his socket
gains the acknowledgement. -/
theorem retransmission_no_op_other_connection :
    ∃ n m envelope ack,
      acceptedMessage replayConfig n (connectionOf "alice")
        (some (roomFrame .roomMessage "r" none)) (replayTick "r4") = some envelope ∧
      ((dispatchRawMessage replayConfig m (connectionOf "bob")
        (some (roomFrame .roomMessage "r" none)) (replayTick "r6")).sockets "bob").sent =
          (m.sockets "bob").sent ++ [ack] := by
  let raw := roomFrame .roomMessage "r" none
  let es : List NodeEvent := [.frame "bob" (some (roomFrame .roomJoin "r" none)) (replayTick "r5")]
  have hruns : (run (step replayConfig) (initial none false) (roomMessageRun.take 3)).any
      (fun n => (acceptedMessage replayConfig n (connectionOf "alice") (some raw)
        (replayTick "r4")).any fun envelope =>
          let start := (dispatchRawMessage replayConfig n (connectionOf "alice") (some raw)
            (replayTick "r4"), [.recorded envelope (messageAck (judge replayConfig n
              (connectionOf "alice") (some raw) (replayTick "r4")).1 (connectionOf "alice")
              envelope (replayTick "r4")) 0])
          decide (EveryStep (logging (step replayConfig) (touches replayConfig))
            (fun s e _ => KeepsWindow replayConfig envelope.eventId 0 s e) start es) &&
          (run (logging (step replayConfig) (touches replayConfig)) start es).any fun s =>
            (receivedMessage s.1 (connectionOf "bob") (some raw) (replayTick "r6")).isSome &&
              (decide (WithinWindow replayConfig.idempotency envelope.eventId 0 0 s.2) &&
                decide ((s.1.sockets "bob").Writable
                  (connectionOf "bob").maxBufferedAmountBytes))) = true := by
    decide +kernel
  obtain ⟨n, -, hn⟩ := (Option.any_eq_true _ _).mp hruns
  obtain ⟨envelope, haccepted, henvelope⟩ := (Option.any_eq_true _ _).mp hn
  rw [Bool.and_eq_true] at henvelope
  obtain ⟨hwindow, hrest⟩ := henvelope
  obtain ⟨⟨m, log⟩, hrun, hm⟩ := (Option.any_eq_true _ _).mp hrest
  rw [Bool.and_eq_true, Bool.and_eq_true] at hm
  obtain ⟨hreceives, hwithin, hwritable⟩ := hm
  obtain ⟨envelope', hreceived⟩ := Option.isSome_iff_exists.mp hreceives
  have hsame := receivedMessage_same (show _ = some "0197-frame" from rfl) (by decide)
    (acceptedMessage_received haccepted).1 hreceived
  obtain ⟨hgains, -⟩ := retransmission_no_op haccepted hrun (of_decide_eq_true hwindow)
    hreceived hsame (of_decide_eq_true hwithin)
  exact ⟨n, m, envelope, _, haccepted, hgains (of_decide_eq_true hwritable)⟩

end Node

end Pulse
