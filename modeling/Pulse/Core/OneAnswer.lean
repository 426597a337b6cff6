import Pulse.Core.Acknowledgements
import Pulse.Core.Handover

/-!
# One answer for each request

A request is answered by the dispatcher or by its handler, which may suspend before it
does, several times if it joins a batch. Each piece of a handler ends with the reply or
suspends the rest. `Dispatching` keeps for each suspended handler the number of its
frame, and files the calls of `send` under this number: a request has one answer in the
end, and none before its handler has finished.
-/

namespace Pulse

open Collections Js MessageDispatcher Transition

/-- The types of the frames which answer a request. -/
def EventType.isAnswer (type : EventType) : Bool := type.isAck || type == .sysError

/-- The types of the requests. -/
def requestTypes : List EventType :=
  [.roomJoin, .roomBatchJoin, .roomLeave, .roomMessage, .directMessage]

/-- The frame is an object of one of these types, with a correlation id. -/
def Requests (raw : Option Json) (correlationId : String) : Prop :=
  ∃ obj : Fields, raw = some (.obj obj) ∧
    (∃ type ∈ requestTypes, EventValidator.stringOf (obj.get? "type") = some type.text) ∧
    EventValidator.stringOf (obj.get? "correlationId") = some correlationId ∧ correlationId ≠ ""

/-- The event on which a verdict is given. -/
def Verdict.envelope? : Verdict → Option PulseEventEnvelope
  | .refused _ => none
  | .conflict envelope => some envelope
  | .replayed envelope _ => some envelope
  | .outOfOrder envelope _ => some envelope
  | .accepted envelope => some envelope

namespace MessageDispatcher

/-- A piece of a handler that began with the suspended handlers `ks`: it answers the request,
or suspends the rest of the handler. -/
inductive Piece (sender : Connection) (request : String) (ks : List Suspended) :
    Memberships × Option PulseEventEnvelope → Prop
  | answered {m : Memberships} {reply : PulseEventEnvelope} (same : m.suspended = ks)
      (type : reply.type.isAnswer = true) (correlation : reply.correlationId = some request) :
      Piece sender request ks (m, some reply)
  | suspended {m : Memberships} {k : Suspended} (rest : m.suspended = ks ++ [k])
      (of_sender : k.sender = sender) (of_request : k.envelope.replyCorrelationId = request) :
      Piece sender request ks (m, none)

section pieces

variable {cfg : Config} {m : Memberships} {sender : Connection} {envelope : PulseEventEnvelope}
variable {ks : List Suspended}

theorem Piece.systemReply (same : m.suspended = ks) {type : EventType}
    (htype : type.isAnswer = true) (target : Option EventTarget) (payload : Fields)
    (fresh : Fresh) :
    Piece sender envelope.replyCorrelationId ks
      (m, some (systemReply envelope type target payload fresh)) :=
  .answered same htype rfl

theorem Piece.suspend (same : m.suspended = ks) (k : Suspended) (of_sender : k.sender = sender)
    (of_envelope : k.envelope = envelope) :
    Piece sender envelope.replyCorrelationId ks (m.suspend k, none) :=
  .suspended (by rw [Memberships.suspend, same]) of_sender (congrArg _ of_envelope)

theorem roomJoinAdded_piece (same : m.suspended = ks) (roomId : RoomId) (fresh : Fresh) :
    Piece sender envelope.replyCorrelationId ks (roomJoinAdded m sender envelope roomId fresh) := by
  have hseq : (m.updateSeq sender.connectionId envelope).suspended = ks :=
    (updateSeq_suspended m sender.connectionId envelope).trans same
  simp only [roomJoinAdded]
  split
  · exact .suspend hseq _ rfl rfl
  · exact .systemReply hseq rfl _ _ fresh

theorem handleRoomJoin_piece (same : m.suspended = ks) (fresh : Fresh) :
    Piece sender envelope.replyCorrelationId ks (handleRoomJoin cfg m sender envelope fresh) := by
  simp only [handleRoomJoin]
  split
  · exact .systemReply same rfl _ _ fresh
  · split
    · exact .systemReply same rfl _ _ fresh
    · have hjoin : (m.join (envelope.targetRoomId.getD "") sender.connectionId).suspended = ks :=
        same
      split
      · exact .suspend hjoin _ rfl rfl
      · exact roomJoinAdded_piece hjoin _ fresh

theorem batchJoinDone_piece (same : m.suspended = ks) (joinedRooms : List RoomId)
    (fresh : Fresh) :
    Piece sender envelope.replyCorrelationId ks
      (batchJoinDone m sender envelope joinedRooms fresh) :=
  .systemReply ((updateSeq_suspended m sender.connectionId envelope).trans same) rfl _ _ fresh

theorem batchJoinLoop_piece (same : m.suspended = ks) (currentCount : Nat) (fresh : Fresh)
    (entries : List Json) (joinedRooms : List RoomId) (newlyAdded : Nat) :
    Piece sender envelope.replyCorrelationId ks
      (batchJoinLoop cfg sender envelope currentCount fresh entries m joinedRooms newlyAdded) := by
  induction entries generalizing m joinedRooms newlyAdded with
  | nil => exact batchJoinDone_piece same joinedRooms fresh
  | cons entry rest ih =>
      simp only [batchJoinLoop]
      split
      · exact ih same joinedRooms newlyAdded
      · split
        · exact batchJoinDone_piece same joinedRooms fresh
        · have hjoin : (m.join (batchEntry entry) sender.connectionId).suspended = ks := same
          split
          · exact .suspend hjoin _ rfl rfl
          · exact ih hjoin _ _

/-- A batch join of a list of rooms. -/
theorem handleRoomBatchJoin_piece (same : m.suspended = ks) {rooms : List Json}
    (hrooms : envelope.payload.get? "rooms" = some (.arr rooms)) (fresh : Fresh) :
    Piece sender envelope.replyCorrelationId ks
      (handleRoomBatchJoin cfg m sender envelope fresh) := by
  simp only [handleRoomBatchJoin, hrooms]
  split
  · exact .systemReply same rfl _ _ fresh
  · exact batchJoinLoop_piece same _ fresh rooms [] 0

theorem handleRoomLeave_piece (same : m.suspended = ks) (fresh : Fresh) :
    Piece sender envelope.replyCorrelationId ks (handleRoomLeave m sender envelope fresh) := by
  have hleave : (m.leave (envelope.targetRoomId.getD "") sender.connectionId).suspended = ks :=
    same
  simp only [handleRoomLeave]
  split
  · exact .suspend hleave _ rfl rfl
  · refine .systemReply ?_ rfl _ _ fresh
    rw [updateSeq_suspended, hleave]

theorem continueHandler_piece (k : Suspended) (same : m.suspended = ks)
    (online : Option (List UserId)) (fresh : Fresh) :
    Piece k.sender k.envelope.replyCorrelationId ks (continueHandler cfg m online fresh k) := by
  cases k with
  | addRoomMember sender envelope roomId => exact roomJoinAdded_piece same roomId fresh
  | getRoomRoster sender envelope roomId => exact .systemReply same rfl _ _ fresh
  | batchAddRoomMember sender envelope batch =>
      exact batchJoinLoop_piece same _ fresh batch.remaining batch.joinedRooms batch.newlyAdded
  | removeRoomMember sender envelope roomId =>
      exact .systemReply ((updateSeq_suspended m sender.connectionId envelope).trans same) rfl _ _
        fresh

end pieces

/-- What the cache replays are acknowledgements of deliveries. -/
def CachesAcks (n : Node) : Prop :=
  ∀ id entry, n.idempotencyManager.cache.get? id = some entry →
    entry.ackEnvelope.type = .deliveryAck

variable {cfg : ServerConfig} {n : Node} {sender : Connection} {raw : Option Json} {tick : Tick}
variable {envelope : PulseEventEnvelope}

theorem fanOut_piece (cfg : ServerConfig) (tick : Tick)
    (deliverable : Deliverable n.memberships sender envelope) :
    (route cfg n sender envelope tick).memberships.suspended = n.memberships.suspended := by
  rcases deliverable with htype | ⟨htype, member⟩
  · obtain ⟨f, -, hf⟩ := handleDirectMessage_accepted cfg n sender envelope tick
    simp only [route, htype]
    rw [hf, Memberships.updateRegistry, updateSeq_suspended]
  · obtain ⟨f, -, hf⟩ := handleRoomMessage_accepted cfg n sender envelope tick member
    simp only [route, htype]
    rw [hf, Memberships.updateRegistry, updateSeq_suspended]

theorem route_piece (request : envelope.type ∈ requestTypes)
    (rooms : envelope.type = .roomBatchJoin →
      ∃ rooms, envelope.payload.get? "rooms" = some (.arr rooms)) :
    Piece sender envelope.replyCorrelationId n.memberships.suspended
      ((route cfg n sender envelope tick).memberships, routeReply cfg n sender envelope tick) := by
  have hack : ∀ m : Memberships, m.suspended = n.memberships.suspended →
      Piece sender envelope.replyCorrelationId n.memberships.suspended
        (m, some (messageAck n sender envelope tick)) := by
    intro m same
    exact .answered same (by rw [messageAck_type]; rfl) (messageAck_correlationId ..)
  cases htype : envelope.type with
  | roomJoin =>
      simp only [route, routeReply, htype, runHandler_memberships]
      exact handleRoomJoin_piece rfl tick.reply
  | roomBatchJoin =>
      obtain ⟨rooms, hrooms⟩ := rooms htype
      simp only [route, routeReply, htype, runHandler_memberships]
      exact handleRoomBatchJoin_piece rfl hrooms tick.reply
  | roomLeave =>
      simp only [route, routeReply, htype, runHandler_memberships]
      exact handleRoomLeave_piece rfl tick.reply
  | roomMessage =>
      by_cases member : envelope.targetRoomId.getD "" ∈ n.memberships.rooms sender.connectionId
      · have hsame := fanOut_piece cfg tick (Or.inr ⟨htype, member⟩)
        simp only [routeReply, htype, member, not_true_eq_false, if_false]
        exact hack _ hsame
      · simp only [route, routeReply, htype, handleRoomMessage, member, not_false_eq_true, if_true,
          Node.sendReply_memberships]
        exact .systemReply rfl rfl _ _ tick.reply
  | directMessage =>
      have hdeliverable : Deliverable n.memberships sender envelope := Or.inl htype
      have hsame := fanOut_piece cfg tick hdeliverable
      simp only [routeReply, htype]
      exact hack _ hsame
  | _ =>
      rw [htype] at request
      exact absurd request (by decide)

/-- What the validation makes of a request that passes the limiter. -/
theorem receive_request {request : String} (granted : Granted n sender tick)
    (h : Requests raw request) :
    (∃ error, (receive n sender raw tick).2 = .error (.invalid error) ∧
      error.correlationId = some request) ∨
    ∃ envelope, (receive n sender raw tick).2 = .ok envelope ∧
      envelope.type ∈ requestTypes ∧ envelope.replyCorrelationId = request ∧
        envelope.correlationId = some request := by
  obtain ⟨obj, rfl, ⟨type, htype, htext⟩, hcorrelation, hne⟩ := h
  cases hvalid : EventValidator.validateIncoming (some (.obj obj)) sender.userId tick.frame with
  | error error =>
      refine Or.inl ⟨error, ?_, (EventValidator.validateIncoming_error hvalid).trans hcorrelation⟩
      rw [Granted] at granted
      simp only [receive, granted, Bool.not_true, Bool.false_eq_true, if_false, hvalid]
  | ok envelope =>
      obtain ⟨_, hobj, htext', hcorrelation', -⟩ := EventValidator.validateIncoming_ok hvalid
      cases hobj
      rw [htext, Option.some.injEq] at htext'
      rw [hcorrelation] at hcorrelation'
      refine Or.inr ⟨envelope, receive_of_granted granted hvalid, ?_, ?_, hcorrelation'⟩
      · rw [← EventType.text_injective htext']
        exact htype
      · rw [PulseEventEnvelope.replyCorrelationId, hcorrelation']
        exact if_neg hne

/-- A request that is stopped before it reaches its handler is answered at once. -/
theorem answer_piece {n₁ : Node} {verdict : Verdict} {request : String}
    {reply : PulseEventEnvelope} (same : n₁.memberships = n.memberships)
    (h : verdictReply cfg sender tick (n₁, verdict) = some reply)
    (type : reply.type.isAnswer = true) (correlation : reply.correlationId = some request)
    (stopped : ∀ envelope, verdict ≠ .accepted envelope) :
    Piece sender request n.memberships.suspended
      ((answer cfg sender tick (n₁, verdict)).memberships,
        verdictReply cfg sender tick (n₁, verdict)) := by
  rw [h]
  refine .answered ?_ type correlation
  refine answer_induction (P := fun m => m.suspended = n.memberships.suspended) ?_ ?_
  · rw [same]
  · intro envelope hverdict
    exact absurd hverdict (stopped envelope)

theorem checkSequence_envelope (n : Node) (sender : Connection) (envelope : PulseEventEnvelope) :
    (checkSequence n sender envelope).envelope? = some envelope := by
  rw [checkSequence]
  split
  · rfl
  · split <;> rfl

theorem checkMessage_envelope (cfg : ServerConfig) (n : Node) (sender : Connection)
    (envelope : PulseEventEnvelope) (now : Int) :
    (checkMessage cfg n sender envelope now).2.envelope? = some envelope := by
  simp only [checkMessage]
  split
  · split
    · rfl
    · split
      · rfl
      · exact checkSequence_envelope _ sender envelope
  · exact checkSequence_envelope n sender envelope

/-- The first piece of a request that passes the limiter. -/
theorem dispatchRawMessage_piece {request : String} (cfg : ServerConfig) (acks : CachesAcks n)
    (granted : Granted n sender tick) (h : Requests raw request) :
    Piece sender request n.memberships.suspended
      ((dispatchRawMessage cfg n sender raw tick).memberships,
        verdictReply cfg sender tick (judge cfg n sender raw tick)) := by
  have hsame := judge_memberships cfg n sender raw tick
  rw [dispatchRawMessage]
  rcases receive_request granted h with
    ⟨error, hreceived, hcorrelation⟩ | ⟨envelope, hreceived, htype, hrequest, hcorrelation⟩
  · have hjudge : judge cfg n sender raw tick =
        ((receive n sender raw tick).1, .refused (.invalid error)) := by
      rw [judge, ← Prod.mk.eta (p := receive n sender raw tick), hreceived, checkReceived]
    rw [hjudge] at hsame ⊢
    exact answer_piece hsame rfl rfl hcorrelation fun _ => Verdict.noConfusion
  · have hjudge : judge cfg n sender raw tick =
        checkMessage cfg (receive n sender raw tick).1 sender envelope tick.now := by
      rw [judge, ← Prod.mk.eta (p := receive n sender raw tick), hreceived, checkReceived]
    have hverdict : (judge cfg n sender raw tick).2.envelope? = some envelope := by
      rw [hjudge]
      exact checkMessage_envelope ..
    cases hjudged : judge cfg n sender raw tick with
    | mk n₁ verdict =>
        rw [hjudged] at hsame hverdict
        cases verdict with
        | refused reason => cases hverdict
        | conflict found =>
            cases hverdict
            exact answer_piece hsame rfl rfl (congrArg some hrequest) fun _ => Verdict.noConfusion
        | replayed found cachedAck =>
            cases hverdict
            obtain ⟨-, entry, hentry, -, -, rfl⟩ :=
              replayed_entry (congrArg Prod.snd hjudged)
            refine answer_piece hsame rfl ?_ ?_ fun _ => Verdict.noConfusion
            · show entry.ackEnvelope.type.isAnswer = true
              rw [acks _ entry hentry]
              rfl
            · exact answers_of_replay envelope _ request hcorrelation h.choose_spec.2.2.2
        | outOfOrder found seq =>
            cases hverdict
            exact answer_piece hsame rfl rfl (congrArg some hrequest) fun _ => Verdict.noConfusion
        | accepted found =>
            cases hverdict
            rw [answer, verdictReply, ← hrequest, ← hsame]
            refine route_piece htype fun hbatch => ?_
            obtain ⟨rooms, hrooms, -⟩ :=
              EventValidator.validateIncoming_rooms (receive_ok hreceived) hbatch
            exact ⟨rooms, hrooms⟩

end MessageDispatcher

namespace Node

variable {cfg : ServerConfig} {n n' : Node} {e : NodeEvent}

theorem cachesAcks_initial (redis : Option Bool) (presence : Bool) :
    CachesAcks (initial redis presence) := by
  intro id entry h
  cases h

/-- Every entry behind a use was there before, or was just recorded. -/
theorem cachesAcks_step (h : CachesAcks n) (hstep : n.step cfg e = some n') : CachesAcks n' := by
  intro id entry hentry
  rw [step_idempotencyManager hstep] at hentry
  cases huse : n.cacheUse cfg e with
  | none =>
      rw [huse] at hentry
      exact h id entry hentry
  | some u =>
      rw [huse, Option.elim_some] at hentry
      have hchecked : ∀ entry, (n.idempotencyManager.check cfg.idempotency u.envelope.eventId
          u.envelope.payload u.now).1.cache.get? id = some entry →
            entry.ackEnvelope.type = .deliveryAck := by
        intro entry hentry
        by_cases hhit : n.idempotencyManager.Hits cfg.idempotency u.envelope.eventId u.now
        · rw [IdempotencyManager.get?_check_hit hhit] at hentry
          exact h id entry hentry
        · rw [IdempotencyManager.check_of_miss _ hhit, OrderedMap.get?_delete] at hentry
          split at hentry
          · cases hentry
          · exact h id entry hentry
      cases hrecorded : u.recorded with
      | none =>
          simp only [IdempotencyUse.apply, hrecorded] at hentry
          exact hchecked entry hentry
      | some ack =>
          simp only [IdempotencyUse.apply, hrecorded, IdempotencyManager.recordAck,
            OrderedMap.get?_set] at hentry
          split at hentry
          · cases hentry
            exact cacheUse_recorded huse hrecorded
          · exact hchecked entry (IdempotencyManager.get?_evictOldest hentry)

/-- The suspended handlers which an event leaves as they are. -/
def keptSuspended (n : Node) : NodeEvent → List Suspended
  | .resume i _ _ => n.memberships.suspended.eraseIdx i
  | _ => n.memberships.suspended

/-- The pieces of a handler only append to the suspended handlers. -/
theorem kept_earlier (cfg : Config) (sender : Connection) (envelope : PulseEventEnvelope)
    (ks : List Suspended) :
    Memberships.Kept cfg sender envelope fun m => ks <+: m.suspended where
  join := fun _ _ _ h => h
  leave := fun _ _ h => h
  updateSeq := by
    intro m h
    rw [updateSeq_suspended]
    exact h
  suspend := fun _ _ _ _ _ h => h.trans (List.prefix_append _ _)

/-- An event appends to the handlers which it leaves as they are. -/
theorem step_keptSuspended (h : n.step cfg e = some n') :
    n.keptSuspended e <+: n'.memberships.suspended := by
  have heffect := step_effect h
  cases e with
  | frame connectionId raw tick =>
      obtain ⟨sender, -, hchange⟩ := heffect
      exact Memberships.Kept.frameChange
        (fun envelope _ => kept_earlier cfg.toConfig sender envelope n.memberships.suspended)
        (List.prefix_refl _) (fun _ _ _ h => h) hchange
  | resume i online tick =>
      obtain ⟨k, -, heq⟩ := heffect
      rw [heq]
      exact (kept_earlier cfg.toConfig k.sender k.envelope
        (n.memberships.suspended.eraseIdx i)).continueHandler
          (m := { n.memberships with suspended := n.memberships.suspended.eraseIdx i })
          (List.prefix_refl _) online tick.reply
  | connect connection tick => exact heffect.2 ▸ List.prefix_refl _
  | close connectionId => exact heffect.2 ▸ List.prefix_refl _
  | redisMessage channel raw tick => exact heffect ▸ List.prefix_refl _
  | subscriptionSettled i accepted =>
      obtain ⟨s, s', -, -, heq⟩ := heffect
      exact heq ▸ List.prefix_refl _
  | publishSettled =>
      obtain ⟨f, -, heq⟩ := heffect
      exact heq ▸ List.prefix_refl _
  | link connected =>
      obtain ⟨f, -, heq⟩ := heffect
      exact heq ▸ List.prefix_refl _
  | setPresenceManager => exact heffect ▸ List.prefix_refl _
  | transport connectionId readyState bufferedAmount sendFails =>
      exact heffect ▸ List.prefix_refl _

end Node

/-- A node with the frames to which its suspended handlers belong, and with every call of
`send`, under the number of the client frame it was made for. -/
structure Dispatching where
  node : Node
  owned : List (Nat × Suspended) := []
  /-- How many events there were, which is also the number of the next one. -/
  events : Nat := 0
  handed : List (Nat × Connection × PulseEventEnvelope) := []

namespace Dispatching

variable {cfg : ServerConfig} {s t : Dispatching} {e : NodeEvent}

def initial (redis : Option Bool) (presence : Bool) : Dispatching :=
  { node := .initial redis presence }

/-- The number of the client frame for which an event does its work. -/
def owner (s : Dispatching) : NodeEvent → Nat
  | .resume i _ _ => (s.owned[i]?).elim s.events Prod.fst
  | _ => s.events

def keptOwned (s : Dispatching) : NodeEvent → List (Nat × Suspended)
  | .resume i _ _ => s.owned.eraseIdx i
  | _ => s.owned

/-- What the event suspends belongs to its own frame. -/
def advance (s : Dispatching) (e : NodeEvent) (node : Node) : Dispatching where
  node
  owned := s.keptOwned e ++
    (node.memberships.suspended.drop (s.keptOwned e).length).map fun k => (s.owner e, k)
  events := s.events + 1
  handed := s.handed ++ (s.node.handedSince node).map fun f => (s.owner e, f)

def step (cfg : ServerConfig) (s : Dispatching) (e : NodeEvent) : Option Dispatching :=
  (s.node.step cfg e).map (s.advance e)

/-- The bookkeeping observes the node without changing its runs. -/
theorem run_node (cfg : ServerConfig) (s : Dispatching) (es : List NodeEvent) :
    (run (step cfg) s es).map node = run (Node.step cfg) s.node es := by
  induction es generalizing s with
  | nil => rfl
  | cons e es ih =>
      rw [run_cons, run_cons, step]
      cases hstep : s.node.step cfg e with
      | none => rfl
      | some n =>
          rw [Option.map_some, Option.bind_some, Option.bind_some, ih]
          rfl

/-- The answers which were handed over for a frame. -/
def answersTo (s : Dispatching) (frame : Nat) : List (Connection × PulseEventEnvelope) :=
  (s.handed.filter fun h => h.1 == frame && h.2.2.type.isAnswer).map Prod.snd

/-- The handlers which are suspended for a frame. -/
def suspendedFor (s : Dispatching) (frame : Nat) : List Suspended :=
  (s.owned.filter fun h => h.1 == frame).map Prod.snd

/-- The bookkeeping is that of the node, and numbers below that of the next event are taken. -/
structure Consistent (s : Dispatching) : Prop where
  owned : s.owned.map Prod.snd = s.node.memberships.suspended
  numbers : ∀ h ∈ s.owned, h.1 < s.events
  handed : ∀ h ∈ s.handed, h.1 < s.events
  acks : CachesAcks s.node

theorem consistent_initial (redis : Option Bool) (presence : Bool) :
    Consistent (initial redis presence) where
  owned := rfl
  numbers := fun _ h => absurd h List.not_mem_nil
  handed := fun _ h => absurd h List.not_mem_nil
  acks := Node.cachesAcks_initial redis presence

theorem map_keptOwned (h : Consistent s) (e : NodeEvent) :
    (s.keptOwned e).map Prod.snd = s.node.keptSuspended e := by
  cases e with
  | resume i online tick =>
      rw [keptOwned, Node.keptSuspended, ← List.eraseIdx_map, h.owned]
  | _ => exact h.owned

theorem keptOwned_subset (s : Dispatching) (e : NodeEvent) : s.keptOwned e ⊆ s.owned := by
  cases e with
  | resume i online tick => exact List.eraseIdx_subset
  | _ => exact List.Subset.refl _

theorem Consistent.owner_le (h : Consistent s) (e : NodeEvent) : s.owner e ≤ s.events := by
  cases e with
  | resume i online tick =>
      rw [owner]
      cases hi : s.owned[i]? with
      | none => exact Nat.le_refl _
      | some own => exact Nat.le_of_lt (h.numbers own (List.mem_of_getElem? hi))
  | _ => exact Nat.le_refl _

/-- The suspended handlers behind an event, with their frames. -/
theorem Consistent.advance_owned (h : Consistent s) {n : Node}
    (hstep : s.node.step cfg e = some n) :
    s.node.keptSuspended e ++ n.memberships.suspended.drop (s.keptOwned e).length =
      n.memberships.suspended := by
  have hprefix := Node.step_keptSuspended hstep
  rw [List.prefix_iff_eq_append, ← map_keptOwned h, List.length_map] at hprefix
  rw [← map_keptOwned h]
  exact hprefix

theorem Consistent.step (h : Consistent s) (hstep : s.step cfg e = some t) : Consistent t := by
  rw [Dispatching.step, Option.map_eq_some_iff] at hstep
  obtain ⟨n, hn, rfl⟩ := hstep
  have howner := h.owner_le e
  refine ⟨?_, ?_, ?_, Node.cachesAcks_step h.acks hn⟩
  · rw [advance, List.map_append, map_keptOwned h, List.map_map]
    refine Eq.trans ?_ (h.advance_owned hn)
    congr 1
    exact List.map_id _
  · intro own hown
    show own.1 < s.events + 1
    rcases List.mem_append.mp hown with hkept | hnew
    · have hlt := h.numbers own (keptOwned_subset s e hkept)
      omega
    · obtain ⟨k, -, rfl⟩ := List.mem_map.mp hnew
      exact Nat.lt_succ_of_le howner
  · intro f hf
    show f.1 < s.events + 1
    rcases List.mem_append.mp hf with hold | hnew
    · have hlt := h.handed f hold
      omega
    · obtain ⟨f, -, rfl⟩ := List.mem_map.mp hnew
      exact Nat.lt_succ_of_le howner

/-- Either the request still has a handler, or it has its answer. -/
inductive Accounted (frame : Nat) (request : String) (sender : Connection) (s : Dispatching) :
    Prop
  | waiting (k : Suspended) (suspended : s.suspendedFor frame = [k]) (of_sender : k.sender = sender)
      (of_request : k.envelope.replyCorrelationId = request) (unanswered : s.answersTo frame = [])
  | answered (reply : PulseEventEnvelope) (finished : s.suspendedFor frame = [])
      (answers : s.answersTo frame = [(sender, reply)])
      (correlation : reply.correlationId = some request)

/-- What an event hands over and suspends belongs to one frame. -/
theorem answersTo_advance (s : Dispatching) (e : NodeEvent) (n : Node) (frame : Nat) :
    (s.advance e n).answersTo frame = s.answersTo frame ++
      if s.owner e = frame then (s.node.handedSince n).filter fun f => f.2.type.isAnswer
      else [] := by
  rw [answersTo, advance, List.filter_append, List.map_append, ← answersTo]
  congr 1
  rw [List.filter_map, List.map_map]
  split
  · rename_i hsame
    simp [Function.comp_def, hsame]
  · rename_i hother
    simp [Function.comp_def, hother]

theorem suspendedFor_advance (s : Dispatching) (e : NodeEvent) (n : Node) (frame : Nat) :
    (s.advance e n).suspendedFor frame =
      ((s.keptOwned e).filter fun h => h.1 == frame).map Prod.snd ++
        if s.owner e = frame then n.memberships.suspended.drop (s.keptOwned e).length else [] := by
  rw [suspendedFor, advance, List.filter_append, List.map_append]
  congr 1
  rw [List.filter_map, List.map_map]
  split
  · rename_i hsame
    simp [Function.comp_def, hsame]
  · rename_i hother
    simp [Function.comp_def, hother]

/-- A piece of the handler of a request which has no other handler and no answer yet. -/
theorem accounted_of_piece {n : Node} {request : String} {sender : Connection}
    (reply : Option PulseEventEnvelope) (consistent : Consistent s)
    (hstep : s.node.step cfg e = some n)
    (alone : (s.keptOwned e).filter (fun h => h.1 == s.owner e) = [])
    (unanswered : s.answersTo (s.owner e) = [])
    (piece : Piece sender request (s.node.keptSuspended e) (n.memberships, reply))
    (handed : (s.node.handedSince n).filter (fun f => f.2.type.isAnswer) =
      (Node.replyTo sender reply).filter fun f => f.2.type.isAnswer) :
    Accounted (s.owner e) request sender (s.advance e n) := by
  have hanswers := answersTo_advance s e n (s.owner e)
  have hsuspended := suspendedFor_advance s e n (s.owner e)
  rw [unanswered, if_pos rfl, List.nil_append, handed] at hanswers
  rw [alone, if_pos rfl, List.map_nil, List.nil_append] at hsuspended
  have hdrop := consistent.advance_owned hstep
  cases piece with
  | answered same type correlation =>
      have hnothing := List.append_right_eq_self.mp (hdrop.trans same)
      refine .answered _ (hsuspended.trans hnothing) ?_ correlation
      rw [hanswers, Node.replyTo, Option.toList_some, List.map_singleton,
        List.filter_cons_of_pos (by exact type), List.filter_nil]
  | suspended rest of_sender of_request =>
      have hrest := List.append_cancel_left (hdrop.trans rest)
      exact .waiting _ (hsuspended.trans hrest) of_sender of_request hanswers

/-- One element of a list has a property: what is left when it is erased, or another one is. -/
theorem filter_eraseIdx {α : Type} {p : α → Bool} {l : List α} {i : Nat} {a : α}
    (h : l[i]? = some a) :
    (p a = false → (l.eraseIdx i).filter p = l.filter p) ∧
      ∀ b, l.filter p = [b] → p a = true → a = b ∧ (l.eraseIdx i).filter p = [] := by
  obtain ⟨hlt, hget⟩ := List.getElem?_eq_some_iff.mp h
  have hsplit : l.take i ++ a :: l.drop (i + 1) = l := by
    rw [← hget, List.cons_getElem_drop_succ, List.take_append_drop]
  have hfilter := congrArg (List.filter p) hsplit
  rw [List.filter_append] at hfilter
  rw [List.eraseIdx_eq_take_drop_succ, List.filter_append]
  constructor
  · intro ha
    rw [← hfilter, List.filter_cons_of_neg (by simp [ha])]
  · intro b hb ha
    rw [hb, List.filter_cons_of_pos ha, List.append_eq_singleton_iff] at hfilter
    rcases hfilter with ⟨hbefore, hbehind⟩ | ⟨-, hbehind⟩
    · obtain ⟨rfl, hrest⟩ := List.cons.inj hbehind
      exact ⟨rfl, by rw [hbefore, hrest]; rfl⟩
    · cases hbehind

/-- The first piece of a request. -/
theorem accounted_frame {n : Node} (consistent : Consistent s) {connectionId : ConnectionId}
    {sender : Connection} {raw : Option Json} {tick : Tick} {request : String}
    (registered : s.node.getConnection connectionId = some sender)
    (granted : Granted s.node sender tick) (h : Requests raw request)
    (hstep : s.node.step cfg (.frame connectionId raw tick) = some n) :
    Accounted s.events request sender (s.advance (.frame connectionId raw tick) n) := by
  have hnew : ∀ own ∈ s.owned, own.1 ≠ s.events :=
    fun own hown => Nat.ne_of_lt (consistent.numbers own hown)
  have hunanswered : s.answersTo s.events = [] := by
    rw [answersTo, List.map_eq_nil_iff, List.filter_eq_nil_iff]
    intro f hf
    have hlt := consistent.handed f hf
    simp [Nat.ne_of_lt hlt]
  have hn : n = dispatchRawMessage cfg s.node sender raw tick := by
    rw [Node.step, registered, Option.map_some, Option.some.injEq] at hstep
    exact hstep.symm
  refine accounted_of_piece _ consistent hstep ?_ hunanswered
    (hn ▸ dispatchRawMessage_piece cfg consistent.acks granted h) ?_
  · rw [List.filter_eq_nil_iff]
    intro own hown
    simp [owner, hnew own hown]
  · -- What is fanned out is a message, hence no answer.
    have hhanded := frameHandover_eq cfg s.node sender raw tick
    rw [frameHandover, ← hn, verdictHandover] at hhanded
    rw [hhanded, List.filter_append]
    refine List.append_left_eq_self.mpr ?_
    rw [List.filter_eq_nil_iff]
    intro f hf
    have hmessage := isMessage_of_mem_fanOut hf
    rw [EventType.isAnswer, Bool.or_eq_true, not_or]
    refine ⟨Node.not_isAck_of_isMessage hmessage, fun herror => ?_⟩
    rw [beq_iff_eq] at herror
    rw [herror] at hmessage
    cases hmessage

/-- Only a handler that goes on works for an earlier frame. -/
theorem resume_of_owner (earlier : s.owner e < s.events) :
    ∃ i online tick own, e = .resume i online tick ∧ s.owned[i]? = some own := by
  cases e with
  | resume i online tick =>
      rw [owner] at earlier
      cases hi : s.owned[i]? with
      | none =>
          rw [hi] at earlier
          exact absurd earlier (Nat.lt_irrefl _)
      | some own => exact ⟨i, online, tick, own, rfl, hi⟩
  | _ => exact absurd earlier (Nat.lt_irrefl _)

theorem Consistent.owner_resume (h : Consistent s) {i : Nat} {own : Nat × Suspended}
    (hown : s.owned[i]? = some own) (online : Option (List UserId)) (tick : Tick) :
    s.owner (.resume i online tick) = own.1 ∧ s.node.memberships.suspended[i]? = some own.2 := by
  rw [← h.owned, List.getElem?_map, owner, hown]
  exact ⟨rfl, rfl⟩

/-- An event leaves the handlers of the other frames as they are. -/
theorem keptOwned_filter {frame : Nat} (h : s.owner e ≠ frame) :
    (s.keptOwned e).filter (fun h => h.1 == frame) = s.owned.filter fun h => h.1 == frame := by
  cases e with
  | resume i online tick =>
      rw [owner] at h
      rw [keptOwned]
      cases hi : s.owned[i]? with
      | none => rw [List.eraseIdx_of_length_le (List.getElem?_eq_none_iff.mp hi)]
      | some own =>
          rw [hi, Option.elim_some] at h
          exact (filter_eraseIdx hi).1 (by simpa using h)
  | _ => rfl

/-- Whatever happens next, the request stays accounted for. -/
theorem Accounted.step {frame : Nat} {request : String} {sender : Connection}
    (h : Accounted frame request sender s) (consistent : Consistent s) (earlier : frame < s.events)
    (hstep : s.step cfg e = some t) : Accounted frame request sender t := by
  rw [Dispatching.step, Option.map_eq_some_iff] at hstep
  obtain ⟨n, hn, rfl⟩ := hstep
  have hanswers := answersTo_advance s e n frame
  have hsuspended := suspendedFor_advance s e n frame
  by_cases howner : s.owner e = frame
  · -- The handler of the request goes on.
    subst howner
    obtain ⟨i, online, tick, own, rfl, hown⟩ := resume_of_owner earlier
    obtain ⟨hsame, hk⟩ := consistent.owner_resume hown online tick
    have hmine : (own.1 == s.owner (.resume i online tick)) = true := by
      rw [hsame, beq_self_eq_true]
    cases h with
    | answered reply finished answers correlation =>
        rw [suspendedFor, List.map_eq_nil_iff, List.filter_eq_nil_iff] at finished
        exact absurd hmine (finished own (List.mem_of_getElem? hown))
    | waiting k suspended of_sender of_request unanswered =>
        rw [suspendedFor, List.map_eq_singleton_iff] at suspended
        obtain ⟨_, hfilter, rfl⟩ := suspended
        obtain ⟨rfl, halone⟩ := (filter_eraseIdx hown).2 _ hfilter hmine
        have hresume : s.node.resume cfg own.2 i online tick = n := by
          rw [Node.step, hk, Option.map_some, Option.some.injEq] at hn
          exact hn
        have hmemberships : n.memberships = (continueHandler cfg.toConfig { s.node.memberships with
            suspended := s.node.memberships.suspended.eraseIdx i } online tick.reply own.2).1 := by
          rw [← hresume, Node.resume, runHandler_memberships]
        refine accounted_of_piece (s.node.resumeReply cfg own.2 i online tick) consistent hn
          halone unanswered ?_ ?_
        · rw [hmemberships, ← of_sender, ← of_request]
          exact continueHandler_piece (m := { s.node.memberships with
            suspended := s.node.memberships.suspended.eraseIdx i }) own.2 rfl online tick.reply
        · rw [← hresume, (Node.resume_handsOver cfg s.node own.2 i online tick).handedSince,
            of_sender]
  · rw [if_neg howner, List.append_nil] at hanswers hsuspended
    rw [keptOwned_filter howner, ← suspendedFor] at hsuspended
    cases h with
    | waiting k suspended of_sender of_request unanswered =>
        exact .waiting k (hsuspended.trans suspended) of_sender of_request
          (hanswers.trans unanswered)
    | answered reply finished answers correlation =>
        exact .answered reply (hsuspended.trans finished) (hanswers.trans answers) correlation

/-- What goes on for an earlier frame puts its answer on a socket that takes frames. -/
theorem reaches_of_owner (consistent : Consistent s) (earlier : s.owner e < s.events)
    (hstep : s.step cfg e = some t) : s.node.Reaches t.node := by
  rw [Dispatching.step, Option.map_eq_some_iff] at hstep
  obtain ⟨n, hn, rfl⟩ := hstep
  obtain ⟨i, online, tick, own, rfl, hown⟩ := resume_of_owner earlier
  obtain ⟨-, hk⟩ := consistent.owner_resume hown online tick
  rw [Node.step, hk, Option.map_some, Option.some.injEq] at hn
  rw [advance, ← hn]
  exact (Node.resume_handsOver cfg s.node own.2 i online tick).reaches

/-- From a frame on, whatever is handed over for it reaches the sockets that take frames. -/
theorem everyStep_reaches (consistent : Consistent s) {connectionId : ConnectionId}
    {sender : Connection} (registered : s.node.getConnection connectionId = some sender)
    (raw : Option Json) (tick : Tick) (behind : List NodeEvent) :
    EveryStep (step cfg) (fun u e v => u.owner e = s.events → u.node.Reaches v.node) s
      (.frame connectionId raw tick :: behind) := by
  intro u hu
  have hnext := consistent.step hu
  rw [step, Option.map_eq_some_iff] at hu
  obtain ⟨n, hn, rfl⟩ := hu
  rw [Node.step, registered, Option.map_some, Option.some.injEq] at hn
  refine ⟨fun _ => ?_, ?_⟩
  · rw [advance, ← hn]
    exact dispatchRawMessage_reaches cfg s.node sender raw tick
  · refine everyStep_of_invariant (I := fun u => Consistent u ∧ s.events < u.events) ?_ ?_
      ⟨hnext, Nat.lt_succ_self _⟩ behind
    · rintro u e v ⟨hconsistent, hearlier⟩ hstep
      refine ⟨hconsistent.step hstep, ?_⟩
      rw [step, Option.map_eq_some_iff] at hstep
      obtain ⟨n, -, rfl⟩ := hstep
      exact Nat.lt_succ_of_lt hearlier
    · rintro u e v ⟨hconsistent, hearlier⟩ hstep howner
      exact reaches_of_owner hconsistent (howner ▸ hearlier) hstep

/-- In every run, whatever comes in between: a request that passes the limiter has no answer as
long as its handler is suspended, and in the end exactly one, which goes to its sender and
names the request. A socket that takes frames gains what is handed over for the request. -/
theorem one_request_one_answer {redis : Option Bool} {presence : Bool}
    {before behind : List NodeEvent} {connectionId : ConnectionId} {raw : Option Json} {tick : Tick}
    {sender : Connection} {request : String}
    (hbefore : run (step cfg) (initial redis presence) before = some s)
    (registered : s.node.getConnection connectionId = some sender)
    (granted : Granted s.node sender tick) (requests : Requests raw request)
    (hrun : run (step cfg) s (.frame connectionId raw tick :: behind) = some t) :
    (t.suspendedFor s.events ≠ [] → t.answersTo s.events = []) ∧
      (t.suspendedFor s.events = [] → ∃ reply,
        t.answersTo s.events = [(sender, reply)] ∧ reply.correlationId = some request) ∧
      EveryStep (step cfg) (fun u e v => u.owner e = s.events → u.node.Reaches v.node) s
        (.frame connectionId raw tick :: behind) := by
  have hconsistent : Consistent s := invariant (fun _ _ _ h hstep => Consistent.step h hstep)
    (consistent_initial redis presence) hbefore
  have hreaches : EveryStep (step cfg) (fun u e v => u.owner e = s.events →
      u.node.Reaches v.node) s (.frame connectionId raw tick :: behind) :=
    everyStep_reaches hconsistent registered raw tick behind
  rw [run_cons, Option.bind_eq_some_iff] at hrun
  obtain ⟨u, hu, hrest⟩ := hrun
  have hnext := hconsistent.step hu
  rw [step, Option.map_eq_some_iff] at hu
  obtain ⟨n, hn, rfl⟩ := hu
  have hframe := accounted_frame hconsistent registered granted requests hn
  have haccounted : Consistent t ∧ s.events < t.events ∧ Accounted s.events request sender t := by
    refine invariant (I := fun t => Consistent t ∧ s.events < t.events ∧
      Accounted s.events request sender t) ?_ ⟨hnext, Nat.lt_succ_self _, hframe⟩ hrest
    rintro u e v ⟨hconsistent, hearlier, haccounted⟩ hstep
    refine ⟨hconsistent.step hstep, ?_, haccounted.step hconsistent hearlier hstep⟩
    rw [step, Option.map_eq_some_iff] at hstep
    obtain ⟨n, -, rfl⟩ := hstep
    exact Nat.lt_succ_of_lt hearlier
  obtain ⟨-, -, haccounted⟩ := haccounted
  cases haccounted with
  | waiting k suspended of_sender of_request unanswered =>
      refine ⟨fun _ => unanswered, fun hnone => ?_, hreaches⟩
      rw [hnone] at suspended
      cases suspended
  | answered reply finished answers correlation =>
      exact ⟨fun hsome => absurd finished hsome, fun _ => ⟨reply, answers, correlation⟩, hreaches⟩

/-- A request to join a room, with a correlation id. -/
def joinRequest : Json :=
  .obj [("type", .str "ROOM_JOIN"), ("correlationId", .str "c1"),
    ("target", .obj [("roomId", .str "r")])]

/-- On a node with presence the handler of a join suspends twice; the answer is on the socket. -/
theorem one_request_one_answer_join :
    ∃ (s t : Dispatching) (sender : Connection) (reply : PulseEventEnvelope),
      t.answersTo s.events = [(sender, reply)] ∧ reply.correlationId = some "c1" ∧
        ((t.node.sockets "c-alice").sent.filter fun f => f.type.isAnswer).length = 1 := by
  let cfg : ServerConfig := { instanceId := "node-a", idempotency := { digest := id } }
  let tick : Tick := { now := 0, frameId := "f", replyId := "r" }
  let alice : Connection := { connectionId := "c-alice", userId := "alice" }
  have hruns : (run (step cfg) (initial none true) [.connect alice tick]).any (fun s =>
      (s.node.getConnection "c-alice").any (fun sender => decide (Granted s.node sender tick)) &&
        (run (step cfg) s [.frame "c-alice" (some joinRequest) tick, .resume 0 none tick,
          .resume 0 none tick]).any fun t => (t.suspendedFor s.events).isEmpty &&
            ((t.node.sockets "c-alice").sent.filter fun f => f.type.isAnswer).length == 1) =
      true := by
    decide +kernel
  obtain ⟨s, hbefore, hs⟩ := (Option.any_eq_true _ _).mp hruns
  rw [Bool.and_eq_true] at hs
  obtain ⟨sender, registered, granted⟩ := (Option.any_eq_true _ _).mp hs.1
  obtain ⟨t, hrun, ht⟩ := (Option.any_eq_true _ _).mp hs.2
  rw [Bool.and_eq_true, beq_iff_eq] at ht
  have hrequests : Requests (some joinRequest) "c1" :=
    ⟨_, rfl, ⟨.roomJoin, by decide, rfl⟩, rfl, by decide⟩
  obtain ⟨-, hfinished, -⟩ := one_request_one_answer hbefore registered
    (of_decide_eq_true granted) hrequests hrun
  obtain ⟨reply, hanswers, hcorrelation⟩ := hfinished (List.isEmpty_iff.mp ht.1)
  exact ⟨s, t, sender, reply, hanswers, hcorrelation, ht.2⟩

end Dispatching

end Pulse
