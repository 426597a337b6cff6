import Pulse.Client.Session

/-!
# Requests of a session

Whatever a session transmits is one of its requests, up to the sequence number, and
a promise is resolved by an acknowledgement with the correlation id of its request
only. `Holds` states both for arbitrary properties of requests, and is kept by every
event.
-/

namespace Pulse

open Collections Js

namespace PulseClientSession

/-- The request which a call of `sendEnvelope` makes, but for its sequence number. -/
def complete (options : PulseEventEnvelope) (generated : String) : PulseEventEnvelope :=
  { options with correlationId := some (options.correlationId.getD generated) }

/-- The request which an event makes. -/
def submission (o : SessionOptions) (s : PulseClientSession) :
    SessionEvent → Option PulseEventEnvelope
  | .sendEnvelope options generated => some (complete options generated)
  | .joinRoom roomId stamp =>
      some (complete (request o .roomJoin (some { roomId := some roomId }) [] true stamp)
        stamp.correlationId)
  | .joinRooms rooms stamp => some (complete (batchJoinRequest o rooms stamp) stamp.correlationId)
  | .leaveRoom roomId stamp =>
      some (complete (request o .roomLeave (some { roomId := some roomId }) [] true stamp)
        stamp.correlationId)
  | .sendRoomMessage roomId payload ackRequired stamp =>
      some (complete (request o .roomMessage (some { roomId := some roomId }) payload ackRequired
        stamp) stamp.correlationId)
  | .sendDirectMessage recipientId payload ackRequired stamp =>
      some (complete (request o .directMessage (some { recipientId := some recipientId }) payload
        ackRequired stamp) stamp.correlationId)
  | .message _ envelope stamp =>
      if envelope.type = .sysConnectAck ∧ s.desiredRooms.size > 0 then
        some (complete (batchJoinRequest o s.desiredRooms.toList stamp) stamp.correlationId)
      else none
  | _ => none

/-- A property which does not depend on the sequence number. -/
def SeqFree (P : PulseEventEnvelope → Prop) : Prop := ∀ e seq, P e → P { e with seq }

/-- A property which a request keeps when the session numbers it anew. -/
def Renumbered (P : PulseEventEnvelope → Prop) : Prop :=
  ∀ e seq, 0 < seq → P e → P { e with seq := some seq }

theorem SeqFree.renumbered {P : PulseEventEnvelope → Prop} (h : SeqFree P) : Renumbered P :=
  fun e _ _ he => h e _ he

theorem Renumbered.numbered {P : PulseEventEnvelope → Prop} (h : Renumbered P)
    {options : PulseEventEnvelope} {generated : String} (s : PulseClientSession)
    (hrequest : P (complete options generated)) : P (s.numbered options generated) := by
  cases hseq : options.seq with
  | none =>
      rw [PulseClientSession.numbered, hseq]
      exact h _ (s.currentSeq + 1) (Nat.succ_pos _) hrequest
  | some seq =>
      rw [PulseClientSession.numbered, hseq]
      rw [complete] at hrequest
      rwa [Option.getD_some, ← hseq]

/-- `P` holds of whatever is or will be transmitted, `Q` of the requests whose promises are
resolved, and the table finds its entries by their correlation ids. -/
structure Holds (P Q : PulseEventEnvelope → Prop) (s : PulseClientSession) : Prop where
  entries : ∀ (i : Nat) entry, s.entries[i]? = some entry → P entry.envelope
  sent : ∀ (w : Nat) socket, s.sockets[w]? = some socket → ∀ f ∈ socket.sent, P f
  resolved : ∀ (i : Nat) entry ack, s.entries[i]? = some entry →
    entry.settlement = some (.resolved ack) → Q entry.envelope
  queued : ∀ c i, s.inFlightQueue.get? c = some i → ∃ entry, s.entries[i]? = some entry ∧
    entry.envelope.correlationId = some c

/-- The acknowledgement of a message event is for requests with `Q` only. -/
def AcksOnly (Q : PulseEventEnvelope → Prop) (s : PulseClientSession) : SessionEvent → Prop
  | .message _ ack _ => ack.type.isAck = true → ack.correlationId ≠ some "" →
      ∀ (i : Nat) entry, s.entries[i]? = some entry →
        entry.envelope.correlationId = ack.correlationId → Q entry.envelope
  | _ => True

variable {P Q : PulseEventEnvelope → Prop} {o : SessionOptions} {s s' : PulseClientSession}

namespace Holds

theorem congr (h : Holds P Q s) (entries : s'.entries = s.entries)
    (sockets : s'.sockets = s.sockets)
    (queue : s'.inFlightQueue = s.inFlightQueue) : Holds P Q s' where
  entries := by
    rw [entries]
    exact h.entries
  sent := by
    rw [sockets]
    exact h.sent
  resolved := by
    rw [entries]
    exact h.resolved
  queued := by
    rw [entries, queue]
    exact h.queued

theorem mono {P' Q' : PulseEventEnvelope → Prop} (h : Holds P Q s) (hP : ∀ e, P e → P' e)
    (hQ : ∀ e, Q e → Q' e) : Holds P' Q' s where
  entries := fun i entry hentry => hP _ (h.entries i entry hentry)
  sent := fun w socket hsocket f hf => hP f (h.sent w socket hsocket f hf)
  resolved := fun i entry ack hentry hack => hQ _ (h.resolved i entry ack hentry hack)
  queued := h.queued

theorem modifyEntry_getElem? {i j : Nat} {f : InFlightEntry → InFlightEntry}
    {entry : InFlightEntry} (h : (s.modifyEntry i f).entries[j]? = some entry) :
    ∃ old, s.entries[j]? = some old ∧ entry = if i = j then f old else old := by
  rw [PulseClientSession.modifyEntry, List.getElem?_modify, Option.map_eq_map,
    Option.map_eq_some_iff] at h
  obtain ⟨old, hold, heq⟩ := h
  exact ⟨old, hold, heq.symm⟩

/-- An entry may change in ways that keep its correlation id. -/
theorem modifyEntry (h : Holds P Q s) (i : Nat) {f : InFlightEntry → InFlightEntry}
    (change : ∀ entry, s.entries[i]? = some entry → P (f entry).envelope ∧
      (f entry).envelope.correlationId = entry.envelope.correlationId ∧
      ∀ ack, (f entry).settlement = some (.resolved ack) → Q (f entry).envelope) :
    Holds P Q (s.modifyEntry i f) where
  entries := by
    intro j entry hentry
    obtain ⟨old, hold, rfl⟩ := modifyEntry_getElem? hentry
    split
    · rename_i hij
      exact (change old (hij ▸ hold)).1
    · exact h.entries j old hold
  sent := h.sent
  resolved := by
    intro j entry ack hentry hack
    obtain ⟨old, hold, rfl⟩ := modifyEntry_getElem? hentry
    split at hack
    · rename_i hij
      rw [if_pos hij]
      exact (change old (hij ▸ hold)).2.2 ack hack
    · rename_i hij
      rw [if_neg hij]
      exact h.resolved j old ack hold hack
  queued := by
    intro c j hc
    obtain ⟨old, hold, hcorrelation⟩ := h.queued c j hc
    refine ⟨if i = j then f old else old, ?_, ?_⟩
    · rw [PulseClientSession.modifyEntry, List.getElem?_modify, hold]
      rfl
    · split
      · rename_i hij
        rw [(change old (hij ▸ hold)).2.1]
        exact hcorrelation
      · exact hcorrelation

/-- Timers and retries may change at will. -/
theorem modifyEntry_same (h : Holds P Q s) (i : Nat) {f : InFlightEntry → InFlightEntry}
    (envelope : ∀ e, (f e).envelope = e.envelope)
    (settlement : ∀ e, (f e).settlement = e.settlement) : Holds P Q (s.modifyEntry i f) := by
  refine h.modifyEntry i fun entry hentry => ?_
  rw [envelope, settlement]
  exact ⟨h.entries i entry hentry, rfl, fun ack hack => h.resolved i entry ack hentry hack⟩

/-- A promise may be rejected, or resolved if `Q` holds of its request. -/
theorem settle (h : Holds P Q s) (i : Nat) {settlement : Settlement}
    (sound : ∀ ack, settlement = .resolved ack → ∀ entry, s.entries[i]? = some entry →
      Q entry.envelope) : Holds P Q (s.modifyEntry i fun e => e.settle settlement) := by
  refine h.modifyEntry i fun entry hentry => ⟨h.entries i entry hentry, rfl, ?_⟩
  intro ack hack
  simp only [InFlightEntry.settle] at hack ⊢
  cases hfirst : entry.settlement with
  | some first =>
      rw [hfirst] at hack
      exact h.resolved i entry ack hentry (hfirst.trans hack)
  | none =>
      rw [hfirst, Option.some.injEq] at hack
      exact sound ack hack entry hentry

theorem modifySocket (h : Holds P Q s) (w : Nat) {f : ClientSocket → ClientSocket}
    (sent : ∀ socket, (∀ e ∈ socket.sent, P e) → ∀ e ∈ (f socket).sent, P e) :
    Holds P Q { s with sockets := s.sockets.modify w f } where
  entries := h.entries
  sent := by
    intro v socket hsocket
    rw [List.getElem?_modify, Option.map_eq_map, Option.map_eq_some_iff] at hsocket
    obtain ⟨old, hold, rfl⟩ := hsocket
    split
    · exact sent old (h.sent v old hold)
    · exact h.sent v old hold
  resolved := h.resolved
  queued := h.queued

theorem setReadyState (h : Holds P Q s) (w : Nat) (readyState : ReadyState) :
    Holds P Q (s.setReadyState w readyState) :=
  h.modifySocket w fun _ hsent => hsent

theorem closeSocket (h : Holds P Q s) : Holds P Q s.closeSocket := by
  rw [PulseClientSession.closeSocket]
  split
  · exact h
  · split
    · exact h
    · exact h.setReadyState _ _

theorem transmitFrame (h : Holds P Q s) {envelope : PulseEventEnvelope} (he : P envelope) :
    Holds P Q (s.transmitFrame envelope) := by
  rw [PulseClientSession.transmitFrame]
  split
  · exact h
  · split
    · refine h.modifySocket _ fun socket hsent e hmem => ?_
      rcases List.mem_append.mp hmem with hmem | hmem
      · exact hsent e hmem
      · rw [List.mem_singleton.mp hmem]
        exact he
    · exact h

theorem armAckTimeout (h : Holds P Q s) (c : String) (i : Nat) :
    Holds P Q (s.armAckTimeout c i) := by
  have hmodified := h.modifyEntry_same i (f := fun e => { e with timer := some s.nextTimer })
    (fun _ => rfl) fun _ => rfl
  exact hmodified.congr rfl rfl rfl

theorem deleteQueued (h : Holds P Q s) (c : String) :
    Holds P Q { s with inFlightQueue := s.inFlightQueue.delete c } where
  entries := h.entries
  sent := h.sent
  resolved := h.resolved
  queued := by
    intro c' i hc'
    rw [OrderedMap.get?_delete] at hc'
    split at hc'
    · cases hc'
    · exact h.queued c' i hc'

theorem handleDisconnectOrError (h : Holds P Q s) (random : ℚ) :
    Holds P Q (s.handleDisconnectOrError o random) := by
  rw [PulseClientSession.handleDisconnectOrError]
  split
  · exact h
  · exact h.congr rfl rfl rfl

theorem ackTimeout (h : Holds P Q s) (timer : AckTimer) : Holds P Q (s.ackTimeout o timer) := by
  rw [PulseClientSession.ackTimeout]
  split
  · exact h
  · rename_i entry hentry
    split
    · have hretried := h.modifyEntry_same timer.entry
        (f := fun e => { e with retries := e.retries + 1 }) (fun _ => rfl) fun _ => rfl
      exact (hretried.transmitFrame (h.entries _ entry hentry)).armAckTimeout _ _
    · have hcleared : Holds P Q (s.clearTimeout entry.timer) := h.congr rfl rfl rfl
      refine (hcleared.deleteQueued timer.correlationId).settle timer.entry ?_
      intro ack hack
      cases hack

theorem setSeq (h : Holds P Q s) (seq : Nat) : Holds P Q { s with currentSeq := seq } :=
  h.congr rfl rfl rfl

theorem appendEntry (h : Holds P Q s) {envelope : PulseEventEnvelope} (he : P envelope) :
    Holds P Q { s with entries := s.entries ++ [({ envelope } : InFlightEntry)] } := by
  have hcases : ∀ {i : Nat} {entry : InFlightEntry},
      (s.entries ++ [({ envelope } : InFlightEntry)])[i]? = some entry →
      s.entries[i]? = some entry ∨ entry = { envelope } := by
    intro i entry hentry
    rw [List.getElem?_append] at hentry
    split at hentry
    · exact Or.inl hentry
    · rw [List.getElem?_singleton] at hentry
      split at hentry
      · cases hentry
        exact Or.inr rfl
      · cases hentry
  refine ⟨?_, h.sent, ?_, ?_⟩
  · intro i entry hentry
    rcases hcases hentry with hold | rfl
    · exact h.entries i entry hold
    · exact he
  · intro i entry ack hentry hack
    rcases hcases hentry with hold | rfl
    · exact h.resolved i entry ack hold hack
    · cases hack
  · intro c i hc
    obtain ⟨entry, hentry, hcorrelation⟩ := h.queued c i hc
    have hlt : i < s.entries.length := (List.getElem?_eq_some_iff.mp hentry).1
    exact ⟨entry, by rw [List.getElem?_append_left hlt, hentry], hcorrelation⟩

theorem setQueued (h : Holds P Q s) {c : String} {i : Nat} (entry : InFlightEntry)
    (hentry : s.entries[i]? = some entry) (hc : entry.envelope.correlationId = some c) :
    Holds P Q { s with inFlightQueue := s.inFlightQueue.set c i } where
  entries := h.entries
  sent := h.sent
  resolved := h.resolved
  queued := by
    intro c' j hj
    rw [OrderedMap.get?_set] at hj
    split at hj
    · rename_i heq
      cases hj
      exact ⟨entry, hentry, heq ▸ hc⟩
    · exact h.queued c' j hj

/-- A request which is admitted is as good as the rest. -/
theorem sendEnvelope (h : Holds P Q s) (hP : Renumbered P) {options : PulseEventEnvelope}
    {generated : String} (hrequest : P (complete options generated)) :
    Holds P Q (s.sendEnvelope o options generated).1 := by
  have henvelope : P (s.numbered options generated) := hP.numbered s hrequest
  simp only [PulseClientSession.sendEnvelope]
  split
  · exact h
  · have hnumbered := h.setSeq ((s.numbered options generated).seq.getD 0)
    split
    · exact hnumbered.transmitFrame henvelope
    · have harmed := (hnumbered.appendEntry henvelope).armAckTimeout
        ((s.numbered options generated).correlationId.getD "") s.entries.length
      refine Holds.transmitFrame (harmed.setQueued (c :=
        (s.numbered options generated).correlationId.getD "") (i := s.entries.length)
        { envelope := s.numbered options generated, timer := some s.nextTimer } ?_ rfl)
        henvelope
      simp [PulseClientSession.armAckTimeout, PulseClientSession.modifyEntry]

theorem flushEntry (h : Holds P Q s) (hP : Renumbered P) (hQ : Renumbered Q) (c : String)
    (i : Nat) :
    Holds P Q (s.flushEntry c i) := by
  rw [PulseClientSession.flushEntry]
  split
  · exact h
  · rename_i entry hentry
    have hcleared : Holds P Q (s.clearTimeout entry.timer) := h.congr rfl rfl rfl
    have hnumbered := hcleared.setSeq (s.currentSeq + 1)
    have hmodified := hnumbered.modifyEntry i
      (f := fun e => { e with envelope := { entry.envelope with seq := some (s.currentSeq + 1) } })
      fun found hfound => by
        have hsame : found = entry := Option.some.inj (hfound.symm.trans hentry)
        subst hsame
        exact ⟨hP _ _ (Nat.succ_pos _) (h.entries i found hentry), rfl,
          fun ack hack => hQ _ _ (Nat.succ_pos _) (h.resolved i found ack hentry hack)⟩
    have henvelope := hP _ _ (Nat.succ_pos s.currentSeq) (h.entries i entry hentry)
    exact (hmodified.transmitFrame henvelope).armAckTimeout c i

theorem flushRetryQueue (h : Holds P Q s) (hP : Renumbered P) (hQ : Renumbered Q) :
    Holds P Q s.flushRetryQueue := by
  have hfold : ∀ (queue : List (String × Nat)) (s : PulseClientSession), Holds P Q s →
      Holds P Q (queue.foldl (fun s entry => s.flushEntry entry.1 entry.2) s) := by
    intro queue
    induction queue with
    | nil => exact fun _ h => h
    | cons entry rest ih => exact fun s h => ih _ (h.flushEntry hP hQ entry.1 entry.2)
  exact hfold _ _ (h.congr rfl rfl rfl)

theorem setState (h : Holds P Q s) (state : ClientSessionState) : Holds P Q (s.setState state) :=
  h.congr rfl rfl rfl

theorem resubscribed (h : Holds P Q s) (hP : Renumbered P) (hQ : Renumbered Q) :
    Holds P Q s.resubscribed :=
  (h.flushRetryQueue hP hQ).setState .connected

theorem resubscribeRooms (h : Holds P Q s) (hP : Renumbered P) (stamp : Stamp)
    (hrequest : P (complete (batchJoinRequest o s.desiredRooms.toList stamp)
      stamp.correlationId)) : Holds P Q (s.resubscribeRooms o stamp) := by
  have hsent := (h.setState .resubscribingRooms).sendEnvelope (o := o) hP hrequest
  exact hsent.congr rfl rfl rfl

theorem handleAck (h : Holds P Q s) {ack : PulseEventEnvelope}
    (sound : ack.correlationId ≠ some "" → ∀ (i : Nat) entry, s.entries[i]? = some entry →
      entry.envelope.correlationId = ack.correlationId → Q entry.envelope) :
    Holds P Q (s.handleAck ack) := by
  rw [PulseClientSession.handleAck]
  split
  · exact h
  · rename_i c hc
    split
    · exact h
    · rename_i hne
      split
      · exact h
      · rename_i i hi
        have hcleared : Holds P Q (s.clearTimeout ((s.entries[i]?).bind (·.timer))) :=
          h.congr rfl rfl rfl
        refine (hcleared.deleteQueued c).settle i fun ack' _ entry hentry => ?_
        obtain ⟨found, hfound, hcorrelation⟩ := h.queued c i hi
        have hsame : found = entry := Option.some.inj (hfound.symm.trans hentry)
        refine sound ?_ i entry hentry ?_
        · rw [hc, ne_eq, Option.some.injEq]
          exact hne
        · rw [← hsame, hcorrelation, hc]

theorem connect (h : Holds P Q s) (constructed : Bool) (random : ℚ) :
    Holds P Q (s.connect o constructed random) := by
  simp only [PulseClientSession.connect]
  split
  · refine ⟨h.entries, ?_, h.resolved, h.queued⟩
    intro w socket hsocket
    simp only [List.getElem?_append] at hsocket
    split at hsocket
    · exact h.sent w socket hsocket
    · rw [List.getElem?_singleton] at hsocket
      split at hsocket
      · cases hsocket
        exact fun _ hf => absurd hf List.not_mem_nil
      · cases hsocket
  · refine Holds.handleDisconnectOrError ?_ random
    exact h.congr rfl rfl rfl

theorem disconnect (h : Holds P Q s) : Holds P Q s.disconnect := by
  have hfold : ∀ (queue : List (String × Nat)) (s : PulseClientSession), Holds P Q s →
      Holds P Q (queue.foldl (fun s entry => s.rejectEntry entry.2) s) := by
    intro queue
    induction queue with
    | nil => exact fun _ h => h
    | cons entry rest ih =>
        intro s h
        have hcleared : Holds P Q (s.clearTimeout ((s.entries[entry.2]?).bind (·.timer))) :=
          h.congr rfl rfl rfl
        refine ih _ (hcleared.settle entry.2 ?_)
        intro ack hack
        cases hack
  have hrejected := hfold s.inFlightQueue.entries { s with
    isExplicitlyClosed := true, reconnectTimer := false, connectionTimeoutTimer := false }
    (h.congr rfl rfl rfl)
  have hempty : ∀ {s : PulseClientSession}, Holds P Q s →
      Holds P Q { s with inFlightQueue := ∅ } := by
    intro s h
    refine ⟨h.entries, h.sent, h.resolved, fun c i hc => ?_⟩
    rw [OrderedMap.get?_empty] at hc
    cases hc
  simp only [PulseClientSession.disconnect]
  split
  · exact Holds.congr (hempty hrejected).closeSocket rfl rfl rfl
  · exact Holds.congr (hempty hrejected) rfl rfl rfl

end Holds

/-- Every event keeps it: a new request has `P`, and an acknowledgement is for requests
with `Q`. -/
theorem holds_step (hP : Renumbered P) (hQ : Renumbered Q) {e : SessionEvent} (h : Holds P Q s)
    (request : ∀ r ∈ s.submission o e, P r) (acks : AcksOnly Q s e)
    (hstep : s.step o e = some s') : Holds P Q s' := by
  cases e with
  | connect constructed random =>
      cases hstep
      exact h.connect constructed random
  | sendEnvelope options generated =>
      cases hstep
      exact h.sendEnvelope hP (request _ rfl)
  | joinRoom roomId stamp =>
      cases hstep
      refine Holds.sendEnvelope ?_ hP (request _ rfl)
      exact h.congr rfl rfl rfl
  | joinRooms rooms stamp =>
      cases hstep
      refine Holds.sendEnvelope ?_ hP (request _ rfl)
      exact h.congr rfl rfl rfl
  | leaveRoom roomId stamp =>
      cases hstep
      refine Holds.sendEnvelope ?_ hP (request _ rfl)
      exact h.congr rfl rfl rfl
  | sendRoomMessage roomId payload ackRequired stamp =>
      cases hstep
      exact h.sendEnvelope hP (request _ rfl)
  | sendDirectMessage recipientId payload ackRequired stamp =>
      cases hstep
      exact h.sendEnvelope hP (request _ rfl)
  | disconnect =>
      cases hstep
      exact h.disconnect
  | disconnected =>
      simp only [step] at hstep
      split at hstep
      · cases hstep
      · cases hstep
        exact h.congr rfl rfl rfl
  | resubscribed i =>
      rw [step, Option.bind_eq_some_iff] at hstep
      obtain ⟨awaited, -, hstep⟩ := hstep
      split at hstep
      · cases hstep
        refine Holds.resubscribed ?_ hP hQ
        exact h.congr rfl rfl rfl
      · cases hstep
  | ackTimeout timer =>
      rw [step, Option.map_eq_some_iff] at hstep
      obtain ⟨t, -, rfl⟩ := hstep
      refine Holds.ackTimeout ?_ t
      exact h.congr rfl rfl rfl
  | reconnectTimeout constructed random =>
      simp only [step] at hstep
      split at hstep
      · cases hstep
        split
        · exact h.congr rfl rfl rfl
        · refine Holds.connect ?_ constructed random
          exact h.congr rfl rfl rfl
      · cases hstep
  | connectionTimeout random =>
      simp only [step] at hstep
      split at hstep
      · cases hstep
        simp only [connectionTimeout]
        split
        · have hcleared : Holds P Q { s with connectionTimeoutTimer := false } :=
            h.congr rfl rfl rfl
          exact (hcleared.closeSocket.setState .disconnected).handleDisconnectOrError random
        · exact h.congr rfl rfl rfl
      · cases hstep
  | opened w =>
      simp only [step] at hstep
      split at hstep
      · cases hstep
        exact (h.setReadyState w .open).setState _
      · cases hstep
  | message w envelope stamp =>
      simp only [step] at hstep
      split at hstep
      · cases hstep
        rw [handleIncomingEnvelope]
        split
        · rename_i htype
          simp only [handleConnectAck]
          split
          · rename_i hrooms
            refine Holds.resubscribeRooms ?_ hP stamp (request _ ?_)
            · exact h.congr rfl rfl rfl
            · simp only [submission, htype, true_and]
              exact if_pos hrooms
          · refine Holds.setState (Holds.flushRetryQueue ?_ hP hQ) _
            exact h.congr rfl rfl rfl
        · split
          · rename_i hack
            exact h.handleAck (acks hack)
          · exact h
      · cases hstep
  | closing w =>
      simp only [step] at hstep
      split at hstep
      · cases hstep
        exact h.setReadyState w .closing
      · cases hstep
  | closed w random =>
      simp only [step] at hstep
      split at hstep
      · cases hstep
        have hclosed : Holds P Q { ((s.setReadyState w .closed).setState .disconnected) with
            connectionTimeoutTimer := false } := (h.setReadyState w .closed).congr rfl rfl rfl
        simp only [handleClose]
        split
        · exact hclosed.handleDisconnectOrError random
        · exact hclosed
      · cases hstep
  | error w random =>
      simp only [step] at hstep
      split at hstep
      · cases hstep
        have hclosing := h.setReadyState w .closing
        simp only [handleError]
        split
        · refine Holds.handleDisconnectOrError ?_ random
          exact hclosing.congr rfl rfl rfl
        · exact hclosing
      · cases hstep

theorem holds_initial (P Q : PulseEventEnvelope → Prop) : Holds P Q {} where
  entries := by
    intro i entry h
    cases h
  sent := by
    intro w socket h
    cases h
  resolved := by
    intro i entry ack h
    cases h
  queued := by
    intro c i h
    rw [OrderedMap.get?_empty] at h
    cases h

end PulseClientSession

end Pulse
