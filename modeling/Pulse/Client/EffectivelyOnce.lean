import Pulse.Client.Link

/-!
# Effectively-once sends

Whatever happens to the links, a node hands a message of the session to the members
of its room at most once, and once to each of them if its promise is resolved. `Ledger`
ties the log to the idempotency cache of the node, `Delivers` an entry of the log to
what was handed to connections, `Linked` speaks about the acknowledgements on their way
to the session, and `Holds` about the session itself.
-/

namespace Pulse

open Collections Js Transition MessageDispatcher EventValidator Record

/-- The frame is a request, perhaps with another sequence number. -/
def Transmits (requests : List PulseEventEnvelope) (f : PulseEventEnvelope) : Prop :=
  ∃ r ∈ requests, ∃ seq, f = { r with seq }

/-- If the request is a message, it was fanned out. -/
def Processed (fanOuts : List PulseEventEnvelope) (r : PulseEventEnvelope) : Prop :=
  r.type.isMessage = true → r.eventId ∈ fanOuts.map (·.eventId)

/-- Some request has this correlation id, and is processed. -/
def Settles (log : List Record) (correlationId : Option String) : Prop :=
  ∃ r ∈ requestsOf log, r.correlationId = correlationId ∧ Processed (fanOutsOf log) r

theorem seqFree_transmits (requests : List PulseEventEnvelope) :
    PulseClientSession.SeqFree (Transmits requests) := by
  rintro e seq ⟨r, hr, seq', rfl⟩
  exact ⟨r, hr, seq, rfl⟩

theorem seqFree_processed (fanOuts : List PulseEventEnvelope) :
    PulseClientSession.SeqFree (Processed fanOuts) :=
  fun _ _ h => h

theorem Transmits.mono {requests requests' : List PulseEventEnvelope} {f : PulseEventEnvelope}
    (h : Transmits requests f) (sub : requests ⊆ requests') : Transmits requests' f := by
  obtain ⟨r, hr, hseq⟩ := h
  exact ⟨r, sub hr, hseq⟩

theorem Processed.mono {fanOuts fanOuts' : List PulseEventEnvelope} {r : PulseEventEnvelope}
    (h : Processed fanOuts r) (sub : fanOuts ⊆ fanOuts') : Processed fanOuts' r :=
  fun hmessage => List.map_subset _ sub (h hmessage)

theorem Settles.append {log : List Record} {correlationId : Option String}
    (h : Settles log correlationId) (record : Record) :
    Settles (log ++ [record]) correlationId := by
  obtain ⟨r, hr, hcorrelation, hprocessed⟩ := h
  refine ⟨r, ?_, hcorrelation, hprocessed.mono ?_⟩
  · rw [requestsOf_append]
    exact List.mem_append_left _ hr
  · rw [fanOutsOf_append]
    exact List.subset_append_left _ _

/-- The log against the idempotency cache of the node. -/
structure Ledger (cfg : ServerConfig) (m : IdempotencyManager) (log : List Record) : Prop where
  tracked : Tracked cfg.idempotency (· ∈ requestedIds log) m (touchesOf log)
  recorded : ((fanOutsOf log).map (·.eventId)).Sublist (recordedIds (touchesOf log))
  fannedOut : ∀ id ∈ requestedIds log, id ∈ recordedIds (touchesOf log) →
    id ∈ (fanOutsOf log).map (·.eventId)
  carried : ∀ r ∈ requestsOf log, ∀ e ∈ fanOutsOf log, e.eventId = r.eventId → Carries r e
  eventIds : (requestedIds log).Nodup
  correlationIds : ((requestsOf log).map (·.correlationId)).Nodup
  named : ∀ r ∈ requestsOf log, r.eventId ≠ "" ∧ r.correlationId.getD "" ≠ ""

/-- What is on its way to the session, or may be sent by suspended handlers. -/
structure Linked (n : Node) (connectionIds : List ConnectionId) (log : List Record) : Prop where
  known : ∀ c ∈ connectionIds, c ∈ n.memberships.known
  suspended : ∀ k ∈ n.memberships.suspended, k.sender.connectionId ∈ connectionIds →
    ∃ r ∈ requestsOf log, r.correlationId = k.envelope.correlationId ∧ r.type.isMessage = false
  acknowledged : ∀ c ∈ connectionIds, ∀ f ∈ (n.sockets c).sent, f.type.isAck = true →
    Settles log f.correlationId

/-- Where an event of the node comes from: a link carried the frame, or nobody on the links
sent it and it names no event of theirs. -/
inductive Origin (cfg : ServerConfig) (n : Node) (connectionIds : List ConnectionId)
    (log : List Record) : NodeEvent → Prop
  | link {c : ConnectionId} (linked : c ∈ connectionIds) {f : PulseEventEnvelope}
      (transmits : Transmits (requestsOf log) f) (tick : Tick) :
      Origin cfg n connectionIds log (.frame c (some f.toJson) tick)
  | others {e : NodeEvent} (unlinked : ∀ c raw tick, e = .frame c raw tick → c ∉ connectionIds)
      (foreign : ∀ u ∈ n.cacheUse cfg e, u.envelope.eventId ∉ requestedIds log) :
      Origin cfg n connectionIds log e

/-- The copies of a message which are handed over in one move of the node. -/
def copies (id : EventId) (m : Node × Node) : List (Connection × PulseEventEnvelope) :=
  (m.1.messagesSince m.2).filter fun f => f.2.eventId = id

/-- The fan-outs of a message: move by move, what is handed over of it, if anything. -/
def deliveriesFor (id : EventId) (log : List Record) :
    List (List (Connection × PulseEventEnvelope)) :=
  ((movesOf log).map (copies id)).filter fun d => !d.isEmpty

/-- The move hands the room message to every member of its room but its sender's connection,
and the sockets of those members gain it, unless they take no frames. -/
def ReachesRoom (connectionIds : List ConnectionId) (f : PulseEventEnvelope)
    (m : Node × Node) : Prop :=
  ∃ sender ∈ connectionIds, f.type = .roomMessage → ∀ connection : Connection,
    m.1.getConnection connection.connectionId = some connection →
    connection.connectionId ∈ m.1.memberships.hub.roomManager.members (f.targetRoomId.getD "") →
    connection.connectionId ≠ sender →
    (connection, f) ∈ copies f.eventId m ∧
      ((m.1.sockets connection.connectionId).Writable connection.maxBufferedAmountBytes →
        (m.2.sockets connection.connectionId).sent =
          (m.1.sockets connection.connectionId).sent ++ [f])

/-- What a record says is fanned out is what its move hands over of the requests. -/
structure Delivers (requested : List EventId) (connectionIds : List ConnectionId)
    (record : Record) : Prop where
  touched : ∀ m ∈ record.moves, ∀ f ∈ m.1.messagesSince m.2,
    f.2.eventId ∈ touchedIds record.touches
  recorded : ∀ e ∈ record.fanOuts, e.eventId ∈ touchedIds record.touches
  counted : ∀ id ∈ requested,
    (deliveriesFor id [record]).length ≤ (record.fanOuts.map (·.eventId)).count id
  fannedOut : ∀ id ∈ requested, ∀ d ∈ deliveriesFor id [record],
    (d.map (·.1.connectionId)).Nodup ∧ ∀ f ∈ d, f.2 ∈ record.fanOuts ∧ f.2.eventId = id
  reaches : ∀ e ∈ record.fanOuts, e.eventId ∈ requested →
    ∃ m ∈ record.moves, ReachesRoom connectionIds e m

section deliveries

variable {cfg : ServerConfig} {n n' : Node} {e : NodeEvent} {record : Record}
variable {log : List Record} {connectionIds : List ConnectionId} {requested : List EventId}
variable {id : EventId}

theorem mem_touchedIds_of_record (hrecord : record ∈ log)
    (h : id ∈ touchedIds record.touches) : id ∈ touchedIds (touchesOf log) := by
  obtain ⟨touch, htouch, rfl⟩ := List.mem_map.mp h
  exact List.mem_map_of_mem (List.mem_flatMap.mpr ⟨record, hrecord, htouch⟩)

/-- No move hands over a message with this id. -/
theorem deliveriesFor_eq_nil
    (h : ∀ m ∈ record.moves, ∀ f ∈ m.1.messagesSince m.2, f.2.eventId ≠ id) :
    deliveriesFor id [record] = [] := by
  rw [deliveriesFor, List.filter_eq_nil_iff]
  intro d hd
  obtain ⟨m, hm, rfl⟩ := List.mem_map.mp hd
  have hnone : copies id m = [] := by
    rw [copies, List.filter_eq_nil_iff]
    intro f hf
    rw [decide_eq_true_eq]
    refine h m ?_ f hf
    simpa [movesOf] using hm
  rw [hnone]
  exact Bool.false_ne_true

theorem Delivers.deliveriesFor_unused (h : Delivers requested connectionIds record)
    (unused : id ∉ touchedIds record.touches) : deliveriesFor id [record] = [] := by
  refine deliveriesFor_eq_nil fun m hm f hf heq => unused ?_
  rw [← heq]
  exact h.touched m hm f hf

/-- Ids which nobody has used yet, and further connections. -/
theorem Delivers.watch (h : Delivers requested connectionIds record)
    {requested' : List EventId} {connectionIds' : List ConnectionId}
    (fresh : ∀ id ∈ requested', id ∈ requested ∨ id ∉ touchedIds record.touches)
    (linked : connectionIds ⊆ connectionIds') : Delivers requested' connectionIds' record where
  touched := h.touched
  recorded := h.recorded
  counted := by
    intro id hid
    rcases fresh id hid with hold | hnew
    · exact h.counted id hold
    · rw [h.deliveriesFor_unused hnew]
      exact Nat.zero_le _
  fannedOut := by
    intro id hid d hd
    rcases fresh id hid with hold | hnew
    · exact h.fannedOut id hold d hd
    · rw [h.deliveriesFor_unused hnew] at hd
      cases hd
  reaches := by
    intro e he hid
    rcases fresh _ hid with hold | hnew
    · obtain ⟨m, hm, sender, hsender, hroom⟩ := h.reaches e he hold
      exact ⟨m, hm, sender, linked hsender, hroom⟩
    · exact absurd (h.recorded e he) hnew

theorem delivers_of_request (requested : List EventId) (connectionIds : List ConnectionId)
    (requests : List PulseEventEnvelope) : Delivers requested connectionIds { requests } where
  touched := fun _ hm => absurd hm List.not_mem_nil
  recorded := fun _ he => absurd he List.not_mem_nil
  counted := fun _ _ => Nat.zero_le _
  fannedOut := fun _ _ _ hd => absurd hd List.not_mem_nil
  reaches := fun _ he => absurd he List.not_mem_nil

/-- The record of a move of the node. -/
def moveRecord (cfg : ServerConfig) (n : Node) (e : NodeEvent) (n' : Node) : Record :=
  { touches := n.touches cfg e, fanOuts := n.fanOuts cfg e, moves := [(n, n')] }

/-- A move in which nothing of the requests is fanned out. -/
theorem delivers_of_quiet (quiet : n.fanOuts cfg e = [])
    (touched : ∀ f ∈ n.messagesSince n', f.2.eventId ∈ touchedIds (n.touches cfg e))
    (foreign : ∀ f ∈ n.messagesSince n', f.2.eventId ∉ requested) :
    Delivers requested connectionIds (moveRecord cfg n e n') := by
  have hnone : ∀ id ∈ requested, deliveriesFor id [moveRecord cfg n e n'] = [] := by
    intro id hid
    refine deliveriesFor_eq_nil fun m hm f hf heq => ?_
    rw [moveRecord, List.mem_singleton] at hm
    subst hm
    exact foreign f hf (heq ▸ hid)
  refine ⟨?_, ?_, ?_, ?_, ?_⟩
  · intro m hm f hf
    rw [moveRecord, List.mem_singleton] at hm
    subst hm
    exact touched f hf
  · intro e he
    rw [moveRecord, quiet] at he
    cases he
  · intro id hid
    rw [hnone id hid]
    exact Nat.zero_le _
  · intro id hid d hd
    rw [hnone id hid] at hd
    cases hd
  · intro e he
    rw [moveRecord, quiet] at he
    cases he

/-- A frame with an accepted message. -/
theorem delivers_of_accepted (wf : n.memberships.WellFormed) (acks : CachesAcks n)
    {connectionId : ConnectionId} {sender : Connection} {raw : Option Json} {tick : Tick}
    {envelope : PulseEventEnvelope} (registered : n.getConnection connectionId = some sender)
    (message : acceptedMessage cfg n sender raw tick = some envelope)
    (linked : envelope.eventId ∈ requested → connectionId ∈ connectionIds) :
    Delivers requested connectionIds (moveRecord cfg n (.frame connectionId raw tick)
      (dispatchRawMessage cfg n sender raw tick)) := by
  have hmessages := dispatchRawMessage_messages cfg acks sender raw tick
  rw [message, Option.elim_some] at hmessages
  have hfanOuts : n.fanOuts cfg (.frame connectionId raw tick) = [envelope] := by
    rw [Node.fanOuts, registered, Option.bind_some, message, Option.toList_some]
  have htouched : envelope.eventId ∈ touchedIds (n.touches cfg (.frame connectionId raw tick)) := by
    rw [Node.touches_of_accepted registered message]
    exact List.mem_singleton_self _
  have hcopies : ∀ id, copies id (n, dispatchRawMessage cfg n sender raw tick) =
      if envelope.eventId = id then
        (messageRecipients n sender envelope).map fun r => (r, envelope) else [] := by
    intro id
    rw [copies, hmessages]
    split
    · rename_i heq
      refine List.filter_eq_self.mpr fun f hf => ?_
      obtain ⟨r, -, rfl⟩ := List.mem_map.mp hf
      exact decide_eq_true heq
    · rename_i hne
      refine List.filter_eq_nil_iff.mpr fun f hf => ?_
      obtain ⟨r, -, rfl⟩ := List.mem_map.mp hf
      rwa [decide_eq_true_eq]
  refine ⟨?_, ?_, ?_, ?_, ?_⟩
  · intro m hm f hf
    rw [moveRecord, List.mem_singleton] at hm
    subst hm
    rw [hmessages] at hf
    obtain ⟨r, -, rfl⟩ := List.mem_map.mp hf
    exact htouched
  · intro e he
    rw [moveRecord, hfanOuts, List.mem_singleton] at he
    rw [he]
    exact htouched
  · intro id _
    rw [deliveriesFor, moveRecord, hfanOuts, movesOf, List.flatMap_singleton, List.map_singleton,
      List.map_singleton, hcopies, List.count_singleton, beq_eq_decide]
    split
    · rw [decide_eq_true ‹_›, if_pos rfl]
      exact List.length_filter_le _ _
    · exact Nat.zero_le _
  · intro id _ d hd
    rw [deliveriesFor, moveRecord, movesOf, List.flatMap_singleton, List.map_singleton,
      hcopies, List.mem_filter, List.mem_singleton] at hd
    obtain ⟨rfl, hsome⟩ := hd
    rw [moveRecord, hfanOuts]
    split
    · rename_i heq
      refine ⟨?_, fun f hf => ?_⟩
      · rw [List.map_map]
        exact messageRecipients_distinct wf sender envelope
      · obtain ⟨r, -, rfl⟩ := List.mem_map.mp hf
        exact ⟨List.mem_singleton_self _, heq⟩
    · exact ⟨List.nodup_nil, fun f hf => absurd hf List.not_mem_nil⟩
  · intro e he hid
    rw [moveRecord, hfanOuts, List.mem_singleton] at he
    subst he
    have hsender := (wf.registered registered).1
    refine ⟨_, List.mem_singleton_self _, connectionId, linked hid, ?_⟩
    intro htype connection hconnection hmember hother
    have hrecipient : connection ∈ messageRecipients n sender e := by
      rw [messageRecipients, htype]
      exact mem_roomRecipients hconnection hmember (hsender ▸ hother)
    refine ⟨?_, fun writable => ?_⟩
    · rw [hcopies, if_pos rfl]
      exact List.mem_map.mpr ⟨connection, hrecipient, rfl⟩
    · exact dispatchRawMessage_gains wf message hrecipient (hsender ▸ hother) writable

/-- A move of the node with an origin. -/
theorem Origin.delivers (origin : Origin cfg n connectionIds log e)
    (wf : n.memberships.WellFormed) (acks : CachesAcks n) (hstep : n.step cfg e = some n') :
    Delivers (requestedIds log) connectionIds (moveRecord cfg n e n') := by
  have hother : (∀ c raw tick, e ≠ .frame c raw tick) → n.fanOuts cfg e = [] →
      (∀ u ∈ n.cacheUse cfg e, u.envelope.eventId ∉ requestedIds log) →
      Delivers (requestedIds log) connectionIds (moveRecord cfg n e n') := by
    intro other quiet foreign
    refine delivers_of_quiet quiet
      (fun f hf => (Node.step_messages hstep other hf).1) fun f hf => ?_
    obtain ⟨u, hu, heq⟩ := (Node.step_messages hstep other hf).2
    rw [← heq]
    exact foreign u hu
  have hframe : ∀ c raw tick, e = .frame c raw tick →
      (∀ sender envelope, n.getConnection c = some sender →
        acceptedMessage cfg n sender raw tick = some envelope →
        envelope.eventId ∈ requestedIds log → c ∈ connectionIds) →
      Delivers (requestedIds log) connectionIds (moveRecord cfg n e n') := by
    rintro c raw tick rfl linked
    obtain ⟨sender, registered, rfl, hmessages⟩ := Node.frame_messages acks hstep
    cases hmessage : acceptedMessage cfg n sender raw tick with
    | some envelope =>
        exact delivers_of_accepted wf acks registered hmessage (linked _ _ registered hmessage)
    | none =>
        rw [hmessage, Option.elim_none] at hmessages
        refine delivers_of_quiet ?_ ?_ ?_
        · rw [Node.fanOuts, registered, Option.bind_some, hmessage, Option.toList_none]
        · intro f hf
          rw [hmessages] at hf
          cases hf
        · intro f hf
          rw [hmessages] at hf
          cases hf
  cases origin with
  | link linked transmits tick => exact hframe _ _ _ rfl fun _ _ _ _ _ => linked
  | others unlinked foreign =>
      cases e with
      | frame c raw tick =>
          refine hframe c raw tick rfl fun sender envelope registered message hid => ?_
          refine absurd hid (foreign
            { envelope, now := tick.now, recorded := some
                (messageAck (judge cfg n sender raw tick).1 sender envelope tick) } ?_)
          rw [Node.cacheUse, registered, Option.bind_some, frameUse,
            (acceptedMessage_received message).1, message]
          rfl
      | _ => exact hother (fun _ _ _ heq => by cases heq) rfl foreign

end deliveries

section ledger

variable {cfg : ServerConfig} {m : IdempotencyManager} {n n' : Node} {e : NodeEvent}
variable {log : List Record} {connectionIds : List ConnectionId}

theorem Ledger.request_eq (h : Ledger cfg m log) {r r' : PulseEventEnvelope}
    (hr : r ∈ requestsOf log) (hr' : r' ∈ requestsOf log) (heq : r.eventId = r'.eventId) :
    r = r' :=
  List.inj_on_of_nodup_map h.eventIds hr hr' heq

theorem Ledger.request_eq_of_correlationId (h : Ledger cfg m log) {r r' : PulseEventEnvelope}
    (hr : r ∈ requestsOf log) (hr' : r' ∈ requestsOf log)
    (heq : r.correlationId = r'.correlationId) : r = r' :=
  List.inj_on_of_nodup_map h.correlationIds hr hr' heq

theorem Ledger.correlationId (h : Ledger cfg m log) {r : PulseEventEnvelope}
    (hr : r ∈ requestsOf log) : ∃ c, r.correlationId = some c ∧ c ≠ "" := by
  have hne := (h.named r hr).2
  cases hc : r.correlationId with
  | none => exact absurd (by rw [hc, Option.getD_none]) hne
  | some c =>
      rw [hc, Option.getD_some] at hne
      exact ⟨c, rfl, hne⟩

theorem Ledger.fanned_touched (h : Ledger cfg m log) {e : PulseEventEnvelope}
    (he : e ∈ fanOutsOf log) : e.eventId ∈ touchedIds (touchesOf log) :=
  mem_touchedIds_of_recordedIds (h.recorded.subset (List.mem_map_of_mem he))

/-- The node reads the request from a frame which transmits it. -/
theorem Ledger.received (h : Ledger cfg m log) {f envelope : PulseEventEnvelope}
    (transmits : Transmits (requestsOf log) f) {sender : Connection} {tick : Tick}
    (received : (receive n sender (some f.toJson) tick).2 = .ok envelope) :
    ∃ r ∈ requestsOf log, Carries r envelope ∧ envelope.correlationId = r.correlationId ∧
      envelope.eventId = r.eventId := by
  obtain ⟨r, hr, seq, rfl⟩ := transmits
  obtain ⟨⟨type, payload, room, recipient⟩, hcorrelation, heventId⟩ :=
    validateIncoming_toJson (receive_ok received)
  exact ⟨r, hr, ⟨type, payload, room, recipient⟩, hcorrelation, heventId (h.named r hr).1⟩

/-- The session makes a request, if any, which is new to everybody. -/
theorem Ledger.request (h : Ledger cfg m log) {request : Option PulseEventEnvelope}
    (fresh : ∀ r ∈ request, IsFresh log r) :
    Ledger cfg m (log ++ [{ requests := request.toList }]) := by
  have hcases : ∀ {r : PulseEventEnvelope}, r ∈ requestsOf log ++ request.toList →
      r ∈ requestsOf log ∨ IsFresh log r := fun hr =>
    (List.mem_append.mp hr).imp_right fun hnew => fresh _ (Option.mem_toList.mp hnew)
  have hids : ∀ {id : EventId}, id ∈ (requestsOf log ++ request.toList).map (·.eventId) →
      id ∈ requestedIds log ∨ id ∉ touchedIds (touchesOf log) := by
    intro id hid
    obtain ⟨r, hr, rfl⟩ := List.mem_map.mp hid
    rcases hcases hr with hold | ⟨-, -, -, -, huntouched⟩
    · exact Or.inl (List.mem_map_of_mem hold)
    · exact Or.inr huntouched
  have hsingle : ∀ {β : Type} (g : PulseEventEnvelope → β), (request.toList.map g).Nodup := by
    intro β g
    cases request <;> simp
  refine ⟨?_, ?_, ?_, ?_, ?_, ?_, ?_⟩ <;>
    simp only [requestedIds, requestsOf_append, touchesOf_append, fanOutsOf_append,
      List.append_nil]
  · exact h.tracked.watch fun _ => hids
  · exact h.recorded
  · intro id hid hrecorded
    rcases hids hid with hold | huntouched
    · exact h.fannedOut id hold hrecorded
    · exact absurd (mem_touchedIds_of_recordedIds hrecorded) huntouched
  · intro r hr e he heq
    rcases hcases hr with hold | ⟨-, -, -, -, huntouched⟩
    · exact h.carried r hold e he heq
    · exact absurd (heq ▸ h.fanned_touched he) huntouched
  · rw [List.map_append, List.nodup_append]
    refine ⟨h.eventIds, hsingle _, ?_⟩
    rintro id hid id' hid' rfl
    obtain ⟨r, hr, rfl⟩ := List.mem_map.mp hid'
    exact (fresh r (Option.mem_toList.mp hr)).2.2.1 hid
  · rw [List.map_append, List.nodup_append]
    refine ⟨h.correlationIds, hsingle _, ?_⟩
    rintro c hc c' hc' rfl
    obtain ⟨r, hr, rfl⟩ := List.mem_map.mp hc'
    exact (fresh r (Option.mem_toList.mp hr)).2.2.2.1 hc
  · intro r hr
    rcases hcases hr with hold | hnew
    · exact h.named r hold
    · exact ⟨hnew.1, hnew.2.1⟩

/-- What a node event with an origin records of the requests is fanned out. -/
theorem Origin.fannedOut (origin : Origin cfg n connectionIds log e) {id : EventId}
    (hid : id ∈ requestedIds log) (hrecorded : id ∈ recordedIds (n.touches cfg e)) :
    id ∈ (n.fanOuts cfg e).map (·.eventId) := by
  cases origin with
  | link linked transmits tick => exact Node.fanOuts_of_recorded hrecorded
  | others unlinked foreign =>
      obtain ⟨touch, htouch, rfl⟩ := List.mem_map.mp (mem_touchedIds_of_recordedIds hrecorded)
      obtain ⟨u, hu, heq⟩ := Node.touches_of_use htouch
      exact absurd (heq ▸ hid) (foreign u hu)

/-- What it fans out of the requests is as it was requested. -/
theorem Origin.carries (origin : Origin cfg n connectionIds log e) (h : Ledger cfg m log)
    {r envelope : PulseEventEnvelope} (hr : r ∈ requestsOf log)
    (hfanned : envelope ∈ n.fanOuts cfg e) (heq : envelope.eventId = r.eventId) :
    Carries r envelope := by
  cases origin with
  | link linked transmits tick =>
      rw [Node.fanOuts, Option.mem_toList, Option.bind_eq_some_iff] at hfanned
      obtain ⟨sender, -, message⟩ := hfanned
      have hreceived := (receivedMessage_eq_some.mp (acceptedMessage_received message).1).1
      obtain ⟨r', hr', hcarries, -, hid⟩ := h.received transmits hreceived
      rwa [h.request_eq hr hr' (heq.symm.trans hid)]
  | others unlinked foreign =>
      obtain ⟨u, hu, rfl⟩ := Node.cacheUse_of_fanOut hfanned
      refine absurd ?_ (foreign u hu)
      rw [heq]
      exact List.mem_map_of_mem hr

theorem Ledger.step (h : Ledger cfg n.idempotencyManager log)
    (origin : Origin cfg n connectionIds log e) (hstep : n.step cfg e = some n')
    (window : ∀ u ∈ n.cacheUse cfg e, u.envelope.eventId ∈ requestedIds log →
      u.InWindow cfg.idempotency (touchesOf log)) :
    Ledger cfg n'.idempotencyManager
      (log ++ [moveRecord cfg n e n']) := by
  refine ⟨?_, ?_, ?_, ?_, ?_, ?_, ?_⟩ <;>
    simp only [moveRecord, requestedIds, requestsOf_append, touchesOf_append, fanOutsOf_append,
      List.append_nil, List.map_append, recordedIds_append]
  · exact Node.tracked_step h.tracked hstep window
  · exact h.recorded.append (Node.fanOuts_sublist cfg n e)
  · intro id hid hrecorded
    rw [List.mem_append] at hrecorded ⊢
    exact hrecorded.imp (h.fannedOut id hid) (origin.fannedOut hid)
  · intro r hr envelope henvelope heq
    rcases List.mem_append.mp henvelope with hold | hnew
    · exact h.carried r hr envelope hold heq
    · exact origin.carries h hr hnew heq
  · exact h.eventIds
  · exact h.correlationIds
  · exact h.named

end ledger

section linked

variable {cfg : ServerConfig} {n n' : Node} {e : NodeEvent}
variable {log : List Record} {connectionIds : List ConnectionId}

theorem Linked.append (h : Linked n connectionIds log) (record : Record) :
    Linked n connectionIds (log ++ [record]) where
  known := h.known
  suspended := by
    intro k hk hc
    obtain ⟨r, hr, hrest⟩ := h.suspended k hk hc
    refine ⟨r, ?_, hrest⟩
    rw [requestsOf_append]
    exact List.mem_append_left _ hr
  acknowledged := fun c hc f hf hack => (h.acknowledged c hc f hf hack).append record

/-- An acknowledgement for a connection of the session settles a request. -/
theorem Origin.settles (origin : Origin cfg n connectionIds log e)
    (ledger : Ledger cfg n.idempotencyManager log) (h : Linked n connectionIds log)
    {c : ConnectionId} (linked : c ∈ connectionIds) {f : PulseEventEnvelope}
    (acknowledges : n.Acknowledges cfg c f e) :
    Settles (log ++ [moveRecord cfg n e n'])
      f.correlationId := by
  rw [Settles, requestsOf_append, fanOutsOf_append, moveRecord, List.append_nil]
  cases acknowledges with
  | frame registered received answers processed =>
      rename_i sender raw tick envelope
      cases origin with
      | others unlinked foreign => exact absurd linked (unlinked c raw tick rfl)
      | link linked' transmits tick =>
          obtain ⟨r, hr, hcarries, hcorrelation, hid⟩ := ledger.received transmits received
          obtain ⟨name, hname, hne⟩ := ledger.correlationId hr
          refine ⟨r, hr, ?_, ?_⟩
          · rw [hname, answers name (hcorrelation.trans hname) hne]
          · intro hmessage
            rw [← hcarries.type] at hmessage
            rw [← hid, List.map_append, List.mem_append]
            rcases processed hmessage with hfanned | ⟨entry, hentry, -⟩
            · refine Or.inr ?_
              rw [Node.fanOuts, registered, Option.bind_some, hfanned]
              exact List.mem_singleton_self _
            · refine Or.inl (ledger.fannedOut _ (hid ▸ List.mem_map_of_mem hr) ?_)
              obtain ⟨original, hmem, heq, -⟩ := ledger.tracked.sourced _ entry hentry
              rw [← heq, recordedIds, List.mem_filterMap]
              exact ⟨_, hmem, rfl⟩
  | resume suspended sender answers =>
      rename_i k
      obtain ⟨r, hr, hcorrelation, hrequest⟩ :=
        h.suspended k (List.mem_of_getElem? suspended) (sender ▸ linked)
      obtain ⟨name, hname, hne⟩ := ledger.correlationId hr
      refine ⟨r, hr, ?_, ?_⟩
      · rw [hname, answers name (hcorrelation.symm.trans hname) hne]
      · intro hmessage
        rw [hrequest] at hmessage
        cases hmessage

theorem Linked.step (h : Linked n connectionIds log) (wf : n.memberships.WellFormed)
    (ledger : Ledger cfg n.idempotencyManager log)
    (origin : Origin cfg n connectionIds log e) (hstep : n.step cfg e = some n') :
    Linked n' connectionIds
      (log ++ [moveRecord cfg n e n']) where
  known := fun c hc => (Node.step_effect hstep).known_mono (h.known c hc)
  suspended := by
    intro k hk hc
    rw [requestsOf_append, moveRecord, List.append_nil]
    rcases Node.step_suspended hstep hk with hold | hsuspends
    · exact h.suspended k hold hc
    · cases hsuspends with
      | resume suspended sender envelope =>
          rw [envelope]
          exact h.suspended _ (List.mem_of_getElem? suspended) (sender ▸ hc)
      | frame registered received request =>
          rename_i c raw tick
          have hid := (wf.registered registered).1
          cases origin with
          | others unlinked foreign => exact absurd (hid ▸ hc) (unlinked c raw tick rfl)
          | link linked transmits tick =>
              obtain ⟨r, hr, hcarries, hcorrelation, -⟩ := ledger.received transmits received
              exact ⟨r, hr, hcorrelation.symm, hcarries.type ▸ request⟩
  acknowledged := by
    intro c hc f hf hack
    rcases Node.step_acknowledges wf hstep hf hack with hold | hnew
    · exact (h.acknowledged c hc f ((Node.socketsAt_sent n e c).subset hold) hack).append _
    · exact origin.settles ledger h hc hnew

/-- The connection which an upgrade makes has no acknowledgement to send. -/
theorem Linked.upgrade {connection : Connection} {tick : Tick}
    (h : Linked n' connectionIds log) (wf : n.memberships.WellFormed)
    (hstep : n.step cfg (.connect connection tick) = some n') :
    Linked n' (connectionIds ++ [connection.connectionId]) log := by
  obtain ⟨hnew, hm⟩ := Node.step_effect hstep
  have hsuspended : n'.memberships.suspended = n.memberships.suspended := by
    rw [hm]
    rfl
  refine ⟨?_, ?_, ?_⟩
  · intro c hc
    rcases List.mem_append.mp hc with hold | hlast
    · exact h.known c hold
    · rw [List.mem_singleton.mp hlast, hm]
      exact OrderedSet.mem_insert.mpr (Or.inr rfl)
  · intro k hk hc
    rcases List.mem_append.mp hc with hold | hlast
    · exact h.suspended k hk hold
    · refine absurd (wf.suspended_known k (hsuspended ▸ hk)) ?_
      rw [List.mem_singleton.mp hlast]
      exact hnew
  · intro c hc f hf hack
    rcases List.mem_append.mp hc with hold | hlast
    · exact h.acknowledged c hold f hf hack
    · rw [List.mem_singleton] at hlast
      subst hlast
      rcases Node.step_acknowledges wf hstep hf hack with hsent | hacknowledges
      · simp [Node.socketsAt] at hsent
      · cases hacknowledges

end linked

namespace ClientServer

open PulseClientSession

/-- The invariant of the composition. -/
structure Invariant (cfg : ServerConfig) (s : ClientServer × List Record) : Prop where
  wellFormed : s.1.node.memberships.WellFormed
  acks : CachesAcks s.1.node
  delivers : ∀ record ∈ s.2, Delivers (requestedIds s.2) s.1.connectionIds record
  ledger : Ledger cfg s.1.node.idempotencyManager s.2
  linked : Linked s.1.node s.1.connectionIds s.2
  holds : Holds (Transmits (requestsOf s.2)) (Processed (fanOutsOf s.2)) s.1.session

variable {o : SessionOptions} {cfg : ServerConfig} {s : ClientServer} {log : List Record}

theorem Invariant.holds_append (h : Invariant cfg (s, log)) (record : Record) :
    Holds (Transmits (requestsOf (log ++ [record]))) (Processed (fanOutsOf (log ++ [record])))
      s.session := by
  refine h.holds.mono (fun e he => he.mono ?_) fun e he => he.mono ?_
  · rw [requestsOf_append]
    exact List.subset_append_left _ _
  · rw [fanOutsOf_append]
    exact List.subset_append_left _ _

/-- A move of the session: it may make a request, and settle a processed one. -/
theorem Invariant.session (h : Invariant cfg (s, log)) {e' : SessionEvent}
    {session : PulseClientSession} (hstep : s.session.step o e' = some session)
    (received : ∀ w ack stamp, e' = .message w ack stamp →
      ∃ c ∈ s.connectionIds, ack ∈ (s.node.sockets c).sent)
    (fresh : ∀ r ∈ s.session.submission o e', IsFresh log r) {links : List Link}
    (same : links.map (·.connectionId) = s.connectionIds) :
    Invariant cfg ({ s with session, links },
      log ++ [{ requests := (s.session.submission o e').toList }]) where
  wellFormed := h.wellFormed
  acks := h.acks
  delivers := by
    intro record hrecord
    rw [connectionIds, same]
    rcases List.mem_append.mp hrecord with hold | hnew
    · refine (h.delivers record hold).watch (fun id hid => ?_) (List.Subset.refl _)
      rw [requestedIds, requestsOf_append, List.map_append, List.mem_append] at hid
      refine hid.imp_right fun hrequest htouched => ?_
      obtain ⟨r, hr, rfl⟩ := List.mem_map.mp hrequest
      obtain ⟨-, -, -, -, huntouched⟩ := fresh r (Option.mem_toList.mp hr)
      exact huntouched (mem_touchedIds_of_record hold htouched)
    · rw [List.mem_singleton.mp hnew]
      exact delivers_of_request _ _ _
  ledger := h.ledger.request fresh
  linked := by
    rw [connectionIds, same]
    exact h.linked.append _
  holds := by
    have hledger := h.ledger.request fresh
    refine holds_step (seqFree_transmits _).renumbered (seqFree_processed _).renumbered
      (h.holds_append _) ?_ ?_ hstep
    · intro r hr
      refine ⟨r, ?_, r.seq, rfl⟩
      rw [requestsOf_append]
      exact List.mem_append_right _ (Option.mem_toList.mpr hr)
    · cases e' with
      | message w ack stamp =>
          intro hack hne i entry hentry hcorrelation
          obtain ⟨c, hc, hsent⟩ := received w ack stamp rfl
          -- The acknowledgement settles the only request with its correlation id.
          obtain ⟨r, hr, hr', hprocessed⟩ :=
            (h.linked.acknowledged c hc ack hsent hack).append
              { requests := (s.session.submission o (.message w ack stamp)).toList }
          obtain ⟨r₁, hr₁, seq, hentry₁⟩ := (h.holds_append _).entries i entry hentry
          have hsame : r₁ = r := by
            refine hledger.request_eq_of_correlationId hr₁ hr ?_
            rw [hr', ← hcorrelation, hentry₁]
          rw [hentry₁, hsame]
          exact hprocessed
      | _ => trivial

/-- A move of the node. -/
theorem Invariant.node (h : Invariant cfg (s, log)) {e' : NodeEvent} {node : Node}
    (hstep : s.node.step cfg e' = some node)
    (origin : Origin cfg s.node s.connectionIds log e')
    (window : ∀ u ∈ s.node.cacheUse cfg e', u.envelope.eventId ∈ requestedIds log →
      u.InWindow cfg.idempotency (touchesOf log)) {links : List Link}
    (ids : links.map (·.connectionId) = s.connectionIds ∨ ∃ connection tick,
      e' = .connect connection tick ∧
        links.map (·.connectionId) = s.connectionIds ++ [connection.connectionId]) :
    Invariant cfg ({ s with node, links },
      log ++ [moveRecord cfg s.node e' node]) where
  wellFormed := Node.wellFormed_step cfg s.node e' node h.wellFormed hstep
  acks := Node.cachesAcks_step h.acks hstep
  delivers := by
    have hrequested : requestedIds (log ++ [moveRecord cfg s.node e' node]) = requestedIds log := by
      rw [requestedIds, requestsOf_append, moveRecord, List.append_nil, requestedIds]
    have hlinked : s.connectionIds ⊆ links.map (·.connectionId) := by
      rcases ids with hsame | ⟨connection, tick, rfl, hnew⟩
      · rw [hsame]
        exact List.Subset.refl _
      · rw [hnew]
        exact List.subset_append_left _ _
    intro record hrecord
    rw [hrequested]
    have hdelivers : Delivers (requestedIds log) s.connectionIds record := by
      rcases List.mem_append.mp hrecord with hold | hnew
      · exact h.delivers record hold
      · rw [List.mem_singleton.mp hnew]
        exact origin.delivers h.wellFormed h.acks hstep
    exact hdelivers.watch (fun _ hid => Or.inl hid) hlinked
  ledger := h.ledger.step origin hstep window
  linked := by
    have hlinked := h.linked.step h.wellFormed h.ledger origin hstep
    rw [connectionIds]
    rcases ids with hsame | ⟨connection, tick, rfl, hnew⟩
    · rw [hsame]
      exact hlinked
    · rw [hnew]
      exact hlinked.upgrade h.wellFormed hstep
  holds := h.holds_append _

theorem Invariant.step (s : ClientServer × List Record) (e : LinkEvent)
    (t : ClientServer × List Record) (h : Invariant cfg s)
    (hstep : logging (ClientServer.step o cfg) (ClientServer.record o cfg) s e = some t)
    (hcondition : FreshIds o cfg s e ∧ InWindow cfg s e) : Invariant cfg t := by
  obtain ⟨s, log⟩ := s
  obtain ⟨⟨hfresh, hothers⟩, hwindow⟩ := hcondition
  rw [logging, Option.map_eq_some_iff] at hstep
  obtain ⟨t', ht', rfl⟩ := hstep
  rcases step_eq_some ht' with ⟨e', session, hmove, hsession, heq⟩ | ⟨e', node, hmove, hnode, heq⟩
  · obtain ⟨hevent, hnone⟩ := sessionEvent_of_move hmove
    obtain ⟨hsame, hreceived⟩ := move_session hmove
    rw [hevent, Option.bind_some] at hfresh
    rw [heq]
    simp only [ClientServer.record, hevent, hnone, Option.bind_some, Option.elim_none]
    exact h.session hsession hreceived hfresh hsame
  · obtain ⟨hnone, hevent⟩ := nodeEvent_of_move hmove
    rw [heq]
    simp only [ClientServer.record, hevent, hnone, Option.bind_none, Option.bind_some,
      Option.elim_some, Option.toList_none, hnode, Option.toList_some, List.map_singleton]
    have hwindow' := hwindow e' hevent
    rcases move_node hmove with ⟨connection, tick, rfl, hids⟩ | ⟨hsame, hcase⟩
    · refine h.node hnode (.others ?_ ?_) hwindow' (Or.inr ⟨connection, tick, rfl, hids⟩)
      · intro c raw tick heq
        cases heq
      · intro u hu
        cases hu
    · refine h.node hnode ?_ hwindow' (Or.inl hsame)
      rcases hcase with ⟨c, hc, w, socket, hsocket, f, hf, tick, rfl⟩ | ⟨rfl, hunlinked⟩
      · exact .link hc (h.holds.sent w socket hsocket f hf) tick
      · exact .others hunlinked hothers

/-- The promise of the request is resolved. -/
def Resolved (session : PulseClientSession) (r : PulseEventEnvelope) : Prop :=
  ∃ entry ∈ session.entries, entry.envelope.eventId = r.eventId ∧
    ∃ ack, entry.settlement = some (.resolved ack)

end ClientServer

end Pulse
