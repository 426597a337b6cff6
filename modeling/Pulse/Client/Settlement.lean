import Pulse.Client.Requests

/-!
# Settlement of promises

Which promises an event of a session may settle, `SettledBy`, and what it does to the
desired rooms and to the suspended resubscriptions, `arranged`. Apart from that the
entries stay what they are: they are transmitted again, numbered anew and timed, and
new ones are added, but none forgets its correlation id or its settlement.
-/

namespace Pulse

open Collections Js

namespace PulseClientSession

/-- The entries of `s` are still there, and only those with an index in `settling` may have
been settled. -/
structure Keeps (settling : Nat → Prop) (s t : PulseClientSession) : Prop where
  desiredRooms : t.desiredRooms = s.desiredRooms
  resubscribing : t.resubscribing = s.resubscribing
  entries : ∀ (i : Nat) entry, s.entries[i]? = some entry → ∃ entry', t.entries[i]? = some entry' ∧
    entry'.envelope.correlationId = entry.envelope.correlationId ∧
      (entry'.settlement = entry.settlement ∨ settling i)
  added : ∀ (i : Nat) entry, t.entries[i]? = some entry → s.entries[i]? = none →
    entry.settlement = none ∨ settling i

variable {settling : Nat → Prop} {o : SessionOptions} {s t u : PulseClientSession}

@[simp] theorem transmitFrame_entries (s : PulseClientSession) (envelope : PulseEventEnvelope) :
    (s.transmitFrame envelope).entries = s.entries := by
  rw [transmitFrame]
  split
  · rfl
  · split <;> rfl

namespace Keeps

theorem of_eq (desiredRooms : t.desiredRooms = s.desiredRooms)
    (resubscribing : t.resubscribing = s.resubscribing) (entries : t.entries = s.entries) :
    Keeps settling s t where
  desiredRooms := desiredRooms
  resubscribing := resubscribing
  entries := fun i entry hentry => ⟨entry, by rw [entries, hentry], rfl, Or.inl rfl⟩
  added := by
    intro i entry hentry hnone
    rw [entries, hnone] at hentry
    cases hentry

theorem refl (s : PulseClientSession) : Keeps settling s s := of_eq rfl rfl rfl

theorem trans (h : Keeps settling s t) (h' : Keeps settling t u) : Keeps settling s u where
  desiredRooms := h'.desiredRooms.trans h.desiredRooms
  resubscribing := h'.resubscribing.trans h.resubscribing
  entries := by
    intro i entry hentry
    obtain ⟨entry', hentry', hcorrelation, hsettlement⟩ := h.entries i entry hentry
    obtain ⟨entry'', hentry'', hcorrelation', hsettlement'⟩ := h'.entries i entry' hentry'
    refine ⟨entry'', hentry'', hcorrelation'.trans hcorrelation, ?_⟩
    rcases hsettlement' with hsame' | hsettling
    · rw [hsame']
      exact hsettlement
    · exact Or.inr hsettling
  added := by
    intro i entry hentry hnone
    cases ht : t.entries[i]? with
    | none => exact h'.added i entry hentry ht
    | some entry' =>
        obtain ⟨entry'', hentry'', -, hsettlement⟩ := h'.entries i entry' ht
        cases hentry''.symm.trans hentry
        rcases hsettlement with hsame | hsettling
        · rw [hsame]
          exact h.added i entry' ht hnone
        · exact Or.inr hsettling

/-- The other variables do not matter. -/
theorem start (h : Keeps settling t u) (desiredRooms : t.desiredRooms = s.desiredRooms)
    (resubscribing : t.resubscribing = s.resubscribing) (entries : t.entries = s.entries) :
    Keeps settling s u :=
  (of_eq desiredRooms resubscribing entries).trans h

theorem modifyEntry (s : PulseClientSession) (i : Nat) {f : InFlightEntry → InFlightEntry}
    (correlationId : ∀ entry ∈ s.entries[i]?,
      (f entry).envelope.correlationId = entry.envelope.correlationId)
    (settlement : ∀ entry, (f entry).settlement = entry.settlement ∨ settling i) :
    Keeps settling s (s.modifyEntry i f) where
  desiredRooms := rfl
  resubscribing := rfl
  entries := by
    intro j entry hentry
    refine ⟨if i = j then f entry else entry, ?_, ?_⟩
    · rw [PulseClientSession.modifyEntry, List.getElem?_modify, hentry]
      rfl
    · split
      · rename_i hij
        subst hij
        exact ⟨correlationId entry hentry, settlement entry⟩
      · exact ⟨rfl, Or.inl rfl⟩
  added := by
    intro j entry hentry hnone
    rw [PulseClientSession.modifyEntry, List.getElem?_modify, hnone] at hentry
    cases hentry

theorem transmitFrame (s : PulseClientSession) (envelope : PulseEventEnvelope) :
    Keeps settling s (s.transmitFrame envelope) := by
  rw [PulseClientSession.transmitFrame]
  split
  · exact refl s
  · split
    · exact of_eq rfl rfl rfl
    · exact refl s

theorem armAckTimeout (s : PulseClientSession) (correlationId : String) (i : Nat) :
    Keeps settling s (s.armAckTimeout correlationId i) := by
  have hmodified : Keeps settling s
      (s.modifyEntry i fun e => { e with timer := some s.nextTimer }) :=
    modifyEntry s i (fun _ _ => rfl) fun _ => Or.inl rfl
  exact hmodified.trans (of_eq rfl rfl rfl)

theorem handleDisconnectOrError (s : PulseClientSession) (random : ℚ) :
    Keeps settling s (s.handleDisconnectOrError o random) := by
  rw [PulseClientSession.handleDisconnectOrError]
  split
  · exact refl s
  · exact of_eq rfl rfl rfl

theorem setState (s : PulseClientSession) (state : ClientSessionState) :
    Keeps settling s (s.setState state) :=
  of_eq rfl rfl rfl

theorem closeSocket (s : PulseClientSession) : Keeps settling s s.closeSocket := by
  rw [PulseClientSession.closeSocket]
  split
  · exact refl s
  · split
    · exact refl s
    · exact of_eq rfl rfl rfl

theorem connect (s : PulseClientSession) (constructed : Bool) (random : ℚ) :
    Keeps settling s (s.connect o constructed random) := by
  simp only [PulseClientSession.connect]
  split
  · exact of_eq rfl rfl rfl
  · exact (handleDisconnectOrError _ random).start rfl rfl rfl

theorem appendEntry (s : PulseClientSession) (envelope : PulseEventEnvelope) :
    Keeps settling s { s with entries := s.entries ++ [({ envelope } : InFlightEntry)] } where
  desiredRooms := rfl
  resubscribing := rfl
  entries := by
    intro i entry hentry
    refine ⟨entry, ?_, rfl, Or.inl rfl⟩
    rw [List.getElem?_append_left (List.getElem?_eq_some_iff.mp hentry).1, hentry]
  added := by
    intro i entry hentry hnone
    rw [List.getElem?_append_right (List.getElem?_eq_none_iff.mp hnone),
      List.getElem?_singleton] at hentry
    split at hentry
    · cases hentry
      exact Or.inl rfl
    · cases hentry

theorem sendEnvelope (s : PulseClientSession) (options : PulseEventEnvelope)
    (generated : String) : Keeps settling s (s.sendEnvelope o options generated).1 := by
  simp only [PulseClientSession.sendEnvelope]
  split
  · exact refl s
  · split
    · exact (transmitFrame _ _).start rfl rfl rfl
    · have happended : Keeps settling s { s with
          currentSeq := (s.numbered options generated).seq.getD 0
          entries := s.entries ++ [{ envelope := s.numbered options generated }] } :=
        (appendEntry s _).trans (of_eq rfl rfl rfl)
      have harmed := happended.trans (armAckTimeout _
        ((s.numbered options generated).correlationId.getD "") s.entries.length)
      refine trans ?_ (transmitFrame _ _)
      exact harmed.trans (of_eq rfl rfl rfl)

theorem flushEntry (s : PulseClientSession) (correlationId : String) (i : Nat) :
    Keeps settling s (s.flushEntry correlationId i) := by
  rw [PulseClientSession.flushEntry]
  split
  · exact refl s
  · rename_i entry hentry
    have hmodified : Keeps settling { s.clearTimeout entry.timer with
        currentSeq := s.currentSeq + 1 } (PulseClientSession.modifyEntry
          { s.clearTimeout entry.timer with currentSeq := s.currentSeq + 1 } i fun e =>
            { e with envelope := { entry.envelope with seq := some (s.currentSeq + 1) } }) := by
      refine modifyEntry _ i (fun found hfound => ?_) fun _ => Or.inl rfl
      cases hentry.symm.trans hfound
      rfl
    refine trans (trans ?_ (transmitFrame _ _)) (armAckTimeout _ correlationId i)
    exact hmodified.start rfl rfl rfl

theorem flushRetryQueue (s : PulseClientSession) : Keeps settling s s.flushRetryQueue := by
  have hfold : ∀ (queue : List (String × Nat)) (s : PulseClientSession),
      Keeps settling s (queue.foldl (fun s entry => s.flushEntry entry.1 entry.2) s) := by
    intro queue
    induction queue with
    | nil => exact fun s => refl s
    | cons entry rest ih => exact fun s => (flushEntry s entry.1 entry.2).trans (ih _)
  exact (hfold _ _).start rfl rfl rfl

/-- A promise with an index in `settling` is settled. -/
theorem settle (s : PulseClientSession) {i : Nat} (settlement : Settlement) (hi : settling i) :
    Keeps settling s (s.modifyEntry i fun e => e.settle settlement) :=
  modifyEntry s i (fun _ _ => rfl) fun _ => Or.inr hi

end Keeps

/-- The promises which an event may settle: of the request which it acknowledges, or of one
that is given up. -/
def SettledBy (o : SessionOptions) (s : PulseClientSession) : SessionEvent → Nat → Prop
  | .message _ ack _, i => ack.type.isAck = true ∧
      ∃ entry ∈ s.entries[i]?, entry.envelope.correlationId = ack.correlationId
  | .ackTimeout timer, i => ∃ t ∈ s.ackTimers.find? fun t => t.id = timer, t.entry = i ∧
      ∃ entry ∈ s.entries[i]?, ¬ entry.retries < o.maxRetries
  | .disconnect, _ => True
  | _, _ => False

/-- The state with the desired rooms and the suspended resubscriptions behind an event. -/
def arranged (o : SessionOptions) (s : PulseClientSession) : SessionEvent → PulseClientSession
  | .joinRoom roomId _ => { s with desiredRooms := s.desiredRooms.insert roomId }
  | .joinRooms rooms _ => { s with desiredRooms := rooms.foldl OrderedSet.insert s.desiredRooms }
  | .leaveRoom roomId _ => { s with desiredRooms := s.desiredRooms.erase roomId }
  | .message _ envelope _ =>
      if envelope.type = .sysConnectAck ∧ s.desiredRooms.size > 0 then
        { s with
          resubscribing := s.resubscribing ++
            [if s.inFlightQueue.size ≥ o.queueCapacity then none else some s.entries.length] }
      else s
  | .resubscribed i => { s with resubscribing := s.resubscribing.eraseIdx i }
  | _ => s

theorem ackTimeout_keeps (timer : AckTimer)
    (settles : ∀ entry ∈ s.entries[timer.entry]?, ¬ entry.retries < o.maxRetries →
      settling timer.entry) : Keeps settling s (s.ackTimeout o timer) := by
  rw [PulseClientSession.ackTimeout]
  split
  · exact .refl s
  · rename_i entry hentry
    split
    · have hretried : Keeps settling s
          (s.modifyEntry timer.entry fun e => { e with retries := e.retries + 1 }) :=
        .modifyEntry s timer.entry (fun _ _ => rfl) fun _ => Or.inl rfl
      exact (hretried.trans (.transmitFrame _ _)).trans (.armAckTimeout _ _ _)
    · rename_i hexhausted
      exact (Keeps.settle _ _ (settles entry hentry hexhausted)).start rfl rfl rfl

theorem handleAck_keeps (ack : PulseEventEnvelope)
    (settles : ∀ c ∈ ack.correlationId, ∀ i ∈ s.inFlightQueue.get? c, settling i) :
    Keeps settling s (s.handleAck ack) := by
  rw [PulseClientSession.handleAck]
  split
  · exact .refl s
  · rename_i c hc
    split
    · exact .refl s
    · split
      · exact .refl s
      · rename_i i hi
        exact (Keeps.settle _ _ (settles c hc i hi)).start rfl rfl rfl

/-- A request with acknowledgement is refused, or returns the promise of the entry which it
adds. -/
theorem sendEnvelope_result {options : PulseEventEnvelope} {generated : String}
    (ackRequired : options.ackRequired = some true) :
    (s.sendEnvelope o options generated).2 =
      if s.inFlightQueue.size ≥ o.queueCapacity then
        .error "BUFFER_FULL: Client in-flight queue capacity reached"
      else .ok (some s.entries.length) := by
  simp only [sendEnvelope, numbered, ackRequired]
  split <;> simp

/-- The entry has the request. -/
theorem sendEnvelope_entry (options : PulseEventEnvelope) (generated : String)
    (ackRequired : options.ackRequired = some true)
    (room : s.inFlightQueue.size < o.queueCapacity) :
    ∃ entry, (s.sendEnvelope o options generated).1.entries[s.entries.length]? = some entry ∧
      entry.envelope = s.numbered options generated := by
  refine ⟨{ envelope := s.numbered options generated, timer := some s.nextTimer }, ?_, rfl⟩
  have hack : ¬ (s.numbered options generated).ackRequired ≠ some true := not_not.mpr ackRequired
  simp only [sendEnvelope, if_neg (Nat.not_le.mpr room), if_neg hack, transmitFrame_entries]
  simp [armAckTimeout, modifyEntry]

theorem resubscribeRooms_keeps (stamp : Stamp) :
    Keeps settling
      { s with
        resubscribing := s.resubscribing ++
          [if s.inFlightQueue.size ≥ o.queueCapacity then none else some s.entries.length] }
      (s.resubscribeRooms o stamp) := by
  have hsent : Keeps settling (s.setState .resubscribingRooms)
      ((s.setState .resubscribingRooms).sendEnvelope o
        (batchJoinRequest o s.desiredRooms.toList stamp) stamp.correlationId).1 :=
    .sendEnvelope _ _ _
  refine ⟨hsent.desiredRooms, ?_, hsent.entries, hsent.added⟩
  have hresult : ((s.setState .resubscribingRooms).sendEnvelope o
      (batchJoinRequest o s.desiredRooms.toList stamp) stamp.correlationId).2 =
        if s.inFlightQueue.size ≥ o.queueCapacity then
          .error "BUFFER_FULL: Client in-flight queue capacity reached"
        else .ok (some s.entries.length) := sendEnvelope_result rfl
  have hresubscribing : ((s.setState .resubscribingRooms).sendEnvelope o
      (batchJoinRequest o s.desiredRooms.toList stamp) stamp.correlationId).1.resubscribing =
        s.resubscribing := hsent.resubscribing
  simp only [resubscribeRooms, show (s.setState .resubscribingRooms).desiredRooms =
    s.desiredRooms from rfl, hresult, hresubscribing]
  by_cases hfull : s.inFlightQueue.size ≥ o.queueCapacity
  · simp only [if_pos hfull]
  · simp only [if_neg hfull]

theorem disconnect_keeps (s : PulseClientSession) : Keeps (fun _ => True) s s.disconnect := by
  have hfold : ∀ (queue : List (String × Nat)) (s : PulseClientSession),
      Keeps (fun _ => True) s (queue.foldl (fun s entry => s.rejectEntry entry.2) s) := by
    intro queue
    induction queue with
    | nil => exact fun s => .refl s
    | cons entry rest ih =>
        intro s
        have hrejected : Keeps (fun _ => True) s (s.rejectEntry entry.2) :=
          (Keeps.settle _ _ trivial).start rfl rfl rfl
        exact hrejected.trans (ih _)
  have hentries := (hfold s.inFlightQueue.entries { s with
    isExplicitlyClosed := true, reconnectTimer := false, connectionTimeoutTimer := false }).start
      (s := s) rfl rfl rfl
  have hrejected : Keeps (fun _ => True) s { s.inFlightQueue.entries.foldl
      (fun s entry => s.rejectEntry entry.2) { s with
        isExplicitlyClosed := true, reconnectTimer := false, connectionTimeoutTimer := false } with
      inFlightQueue := ∅ } :=
    hentries.trans (.of_eq rfl rfl rfl)
  simp only [disconnect]
  split
  · exact (hrejected.trans (.closeSocket _)).trans (.of_eq rfl rfl rfl)
  · exact hrejected.trans (.of_eq rfl rfl rfl)

/-- The inversion lemma of the session, for the settlement of promises. -/
theorem step_keeps {P Q : PulseEventEnvelope → Prop} {e : SessionEvent} (holds : Holds P Q s)
    (h : s.step o e = some t) : Keeps (s.SettledBy o e) (s.arranged o e) t := by
  cases e with
  | connect constructed random =>
      cases h
      exact .connect s constructed random
  | sendEnvelope options generated =>
      cases h
      exact .sendEnvelope s options generated
  | joinRoom roomId stamp =>
      cases h
      exact .sendEnvelope _ _ _
  | joinRooms rooms stamp =>
      cases h
      exact .sendEnvelope _ _ _
  | leaveRoom roomId stamp =>
      cases h
      exact .sendEnvelope _ _ _
  | sendRoomMessage roomId payload ackRequired stamp =>
      cases h
      exact .sendEnvelope s _ _
  | sendDirectMessage recipientId payload ackRequired stamp =>
      cases h
      exact .sendEnvelope s _ _
  | disconnect =>
      cases h
      exact disconnect_keeps s
  | disconnected =>
      simp only [step] at h
      split at h
      · cases h
      · cases h
        exact .of_eq rfl rfl rfl
  | resubscribed i =>
      rw [step, Option.bind_eq_some_iff] at h
      obtain ⟨awaited, -, h⟩ := h
      split at h
      · cases h
        exact (Keeps.flushRetryQueue _).trans (.of_eq rfl rfl rfl)
      · cases h
  | ackTimeout timer =>
      rw [step, Option.map_eq_some_iff] at h
      obtain ⟨t', ht', rfl⟩ := h
      refine (ackTimeout_keeps t' ?_).start rfl rfl rfl
      exact fun entry hentry hexhausted => ⟨t', ht', rfl, entry, hentry, hexhausted⟩
  | reconnectTimeout constructed random =>
      simp only [step] at h
      split at h
      · cases h
        split
        · exact .of_eq rfl rfl rfl
        · exact (Keeps.connect _ constructed random).start rfl rfl rfl
      · cases h
  | connectionTimeout random =>
      simp only [step] at h
      split at h
      · cases h
        simp only [connectionTimeout]
        split
        · refine (Keeps.trans ?_ (.setState _ _)).trans (.handleDisconnectOrError _ random)
          exact (Keeps.closeSocket _).start rfl rfl rfl
        · exact .of_eq rfl rfl rfl
      · cases h
  | opened w =>
      simp only [step] at h
      split at h
      · cases h
        exact .of_eq rfl rfl rfl
      · cases h
  | message w envelope stamp =>
      simp only [step] at h
      split at h
      · cases h
        rw [handleIncomingEnvelope]
        split
        · rename_i htype
          simp only [handleConnectAck, arranged, htype, true_and]
          split
          · exact (resubscribeRooms_keeps stamp).start rfl rfl rfl
          · refine Keeps.trans ?_ (.setState _ _)
            exact (Keeps.flushRetryQueue _).start rfl rfl rfl
        · rename_i htype
          simp only [arranged, htype, false_and, if_false]
          split
          · rename_i hack
            refine handleAck_keeps envelope ?_
            intro c hc i hi
            obtain ⟨entry, hentry, hcorrelation⟩ := holds.queued c i hi
            exact ⟨hack, entry, hentry, hcorrelation.trans hc.symm⟩
          · exact .refl s
      · cases h
  | closing w =>
      simp only [step] at h
      split at h
      · cases h
        exact .of_eq rfl rfl rfl
      · cases h
  | closed w random =>
      simp only [step] at h
      split at h
      · cases h
        simp only [handleClose]
        split
        · exact (Keeps.handleDisconnectOrError _ random).start rfl rfl rfl
        · exact .of_eq rfl rfl rfl
      · cases h
  | error w random =>
      simp only [step] at h
      split at h
      · cases h
        simp only [handleError]
        split
        · exact (Keeps.handleDisconnectOrError _ random).start rfl rfl rfl
        · exact .of_eq rfl rfl rfl
      · cases h

end PulseClientSession

end Pulse
