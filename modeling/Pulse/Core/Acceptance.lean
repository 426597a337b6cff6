import Pulse.Core.Effects
import Pulse.Core.IdempotencyWindow

/-!
# Accepted messages

A message which passes the checks of `judge` and the membership check of its
handler is fanned out, and its acknowledgement recorded. `cacheUse` tells for each
event of a node which use it makes of the idempotency cache: a frame that is
received as a message makes one, and so does a valid event of another node.
-/

namespace Pulse

open Collections Js

namespace MessageDispatcher

/-- The frame is a message, and its handler goes through with it: a direct message, or a
message to a room of the sender. -/
def Deliverable (m : Memberships) (sender : Connection) (envelope : PulseEventEnvelope) : Prop :=
  envelope.type = .directMessage ∨
    envelope.type = .roomMessage ∧
      envelope.targetRoomId.getD "" ∈ m.rooms sender.connectionId

instance (m : Memberships) (sender : Connection) (envelope : PulseEventEnvelope) :
    Decidable (Deliverable m sender envelope) :=
  inferInstanceAs (Decidable (_ ∨ _ ∧ _))

/-- The message which a frame gets accepted: past the checks of `judge`, so no replay, and
past the membership check of its handler. -/
def acceptedMessage (cfg : ServerConfig) (n : Node) (sender : Connection) (raw : Option Json)
    (tick : Tick) : Option PulseEventEnvelope :=
  (judge cfg n sender raw tick).2.accepted?.filter fun envelope =>
    Deliverable n.memberships sender envelope

theorem acceptedMessage_eq_some {cfg : ServerConfig} {n : Node} {sender : Connection}
    {raw : Option Json} {tick : Tick} {envelope : PulseEventEnvelope} :
    acceptedMessage cfg n sender raw tick = some envelope ↔
      (judge cfg n sender raw tick).2 = .accepted envelope ∧
        Deliverable n.memberships sender envelope := by
  rw [acceptedMessage, Option.filter_eq_some_iff, Verdict.accepted?_eq_some, decide_eq_true_eq]

/-- The acknowledgement which the handler of an accepted message records and sends. -/
def messageAck (n : Node) (sender : Connection) (envelope : PulseEventEnvelope) (tick : Tick) :
    PulseEventEnvelope :=
  let n := { n with memberships := n.memberships.updateSeq sender.connectionId envelope }
  match envelope.type with
  | .directMessage => (fanOutDirectMessage n envelope tick).2
  | _ => (fanOutRoomMessage n sender envelope tick).2

/-- The message which a frame is, if it passes the rate limit and the validation. -/
def receivedMessage (n : Node) (sender : Connection) (raw : Option Json) (tick : Tick) :
    Option PulseEventEnvelope :=
  (receive n sender raw tick).2.toOption.filter fun envelope => envelope.type.isMessage

/-- The use of the cache by a frame. -/
def frameUse (cfg : ServerConfig) (n : Node) (sender : Connection) (raw : Option Json)
    (tick : Tick) : Option IdempotencyUse :=
  (receivedMessage n sender raw tick).map fun envelope =>
    { envelope
      now := tick.now
      recorded := (acceptedMessage cfg n sender raw tick).map fun accepted =>
        messageAck (judge cfg n sender raw tick).1 sender accepted tick }

/-- The event on a Pub/Sub channel which another instance published. -/
def foreignEvent (cfg : ServerConfig) (raw : Option Json) (tick : Tick) :
    Option PulseEventEnvelope :=
  (raw.bind fun parsed => (EventValidator.validateDistributed parsed tick.frame).toOption).filter
    fun envelope => envelope.originInstanceId ≠ some cfg.instanceId

/-- The use of the cache by an event from a Pub/Sub channel. -/
def redisUse (cfg : ServerConfig) (n : Node) (raw : Option Json) (tick : Tick) :
    Option IdempotencyUse :=
  (foreignEvent cfg raw tick).map fun envelope =>
    { envelope
      now := tick.now
      recorded :=
        if (n.idempotencyManager.check cfg.idempotency envelope.eventId envelope.payload
          tick.now).2.isDuplicate then none
        else some (distributedAck envelope tick.reply) }

end MessageDispatcher

namespace Node

open MessageDispatcher

def cacheUse (cfg : ServerConfig) (n : Node) : NodeEvent → Option IdempotencyUse
  | .frame connectionId raw tick =>
      (n.getConnection connectionId).bind fun sender => frameUse cfg n sender raw tick
  | .redisMessage _ raw tick => redisUse cfg n raw tick
  | _ => none

/-- What is logged of an event's use of the cache. -/
def touches (cfg : ServerConfig) (n : Node) (e : NodeEvent) : List CacheTouch :=
  match n.cacheUse cfg e with
  | some u => u.touch cfg.idempotency n.idempotencyManager
  | none => []

end Node

namespace MessageDispatcher

variable {cfg : ServerConfig} {n : Node} {sender : Connection} {raw : Option Json} {tick : Tick}
variable {envelope : PulseEventEnvelope}

@[simp] theorem receive_idempotencyManager (n : Node) (sender : Connection) (raw : Option Json)
    (tick : Tick) : (receive n sender raw tick).1.idempotencyManager = n.idempotencyManager := by
  simp only [receive]
  split
  · rfl
  · split <;> rfl

@[simp] theorem receive_sockets (n : Node) (sender : Connection) (raw : Option Json)
    (tick : Tick) : (receive n sender raw tick).1.sockets = n.sockets := by
  simp only [receive]
  split
  · rfl
  · split <;> rfl

@[simp] theorem receive_handed (n : Node) (sender : Connection) (raw : Option Json)
    (tick : Tick) : (receive n sender raw tick).1.handed = n.handed := by
  simp only [receive]
  split
  · rfl
  · split <;> rfl

/-- The rate limiter lets the next frame of the connection pass. -/
def Granted (n : Node) (sender : Connection) (tick : Tick) : Prop :=
  ((n.tokenBuckets sender.connectionId).tryConsume tick.now).2 = true

instance (n : Node) (sender : Connection) (tick : Tick) : Decidable (Granted n sender tick) :=
  inferInstanceAs (Decidable (_ = true))

theorem receive_of_granted (granted : Granted n sender tick)
    (h : EventValidator.validateIncoming raw sender.userId tick.frame = .ok envelope) :
    (receive n sender raw tick).2 = .ok envelope := by
  rw [Granted] at granted
  simp only [receive, granted, Bool.not_true, Bool.false_eq_true, if_false, h]

/-- A request in order is accepted. -/
theorem judge_of_request (received : (receive n sender raw tick).2 = .ok envelope)
    (request : envelope.type.isMessage = false) (inOrder : n.memberships.InOrder sender envelope) :
    (judge cfg n sender raw tick).2 = .accepted envelope := by
  have hpair : receive n sender raw tick = ((receive n sender raw tick).1, .ok envelope) :=
    Prod.ext rfl received
  rw [judge, hpair, checkReceived, checkMessage, request, if_neg Bool.false_ne_true]
  simp only [checkSequence, receive_memberships]
  split
  · rfl
  · rename_i seq hseq
    rw [if_neg (Nat.not_lt.mpr (inOrder seq hseq))]

/-- Checking a message changes the cache only. -/
theorem checkMessage_node (cfg : ServerConfig) (n : Node) (sender : Connection)
    (envelope : PulseEventEnvelope) (now : Int) :
    (checkMessage cfg n sender envelope now).1 =
      if envelope.type.isMessage then
        { n with
          idempotencyManager := (n.idempotencyManager.check cfg.idempotency envelope.eventId
            envelope.payload now).1 }
      else n := by
  simp only [checkMessage]
  split
  · split
    · rfl
    · split <;> rfl
  · rfl

/-- A message that is accepted is not in the cache. -/
theorem not_hits_of_accepted {envelope' : PulseEventEnvelope} {now : Int}
    (h : (checkMessage cfg n sender envelope now).2 = .accepted envelope')
    (hmessage : envelope.type.isMessage) :
    ¬ n.idempotencyManager.Hits cfg.idempotency envelope.eventId now := by
  rintro ⟨entry, hentry, hfresh⟩
  have hcheck := IdempotencyManager.check_of_hit envelope.payload hentry hfresh
  simp only [checkMessage, hmessage, if_true, hcheck] at h
  by_cases hconflict : entry.payloadHash ≠
      IdempotencyManager.hashPayload cfg.idempotency envelope.payload
  · simp [hconflict] at h
  · simp [hconflict] at h

@[simp] theorem publish_idempotencyManager (cfg : ServerConfig) (n : Node) (channel : Channel)
    (envelope : PulseEventEnvelope) (now : Int) :
    (n.publish cfg channel envelope now).idempotencyManager = n.idempotencyManager := by
  rw [Node.publish]
  split
  · rfl
  · split
    · split <;> rfl
    · rfl

theorem acknowledge_idempotencyManager (cfg : ServerConfig) (n : Node) (sender : Connection)
    (envelope ack : PulseEventEnvelope) (channel : Channel) (now : Int) :
    (acknowledge cfg n sender envelope ack channel now).idempotencyManager =
      n.idempotencyManager.recordAck cfg.idempotency envelope.eventId ack envelope.payload now := by
  rw [acknowledge, publish_idempotencyManager, Node.sendReply_idempotencyManager]
  rfl

@[simp] theorem runHandler_idempotencyManager (n : Node) (sender : Connection)
    (result : Memberships × Option PulseEventEnvelope) :
    (runHandler n sender result).idempotencyManager = n.idempotencyManager := by
  rw [runHandler, Node.sendReply_idempotencyManager]

/-- Only the handlers of messages write to the cache. -/
theorem route_idempotencyManager (cfg : ServerConfig) (n : Node) (sender : Connection)
    (envelope : PulseEventEnvelope) (tick : Tick) :
    (route cfg n sender envelope tick).idempotencyManager =
      if Deliverable n.memberships sender envelope then
        n.idempotencyManager.recordAck cfg.idempotency envelope.eventId
          (messageAck n sender envelope tick) envelope.payload tick.now
      else n.idempotencyManager := by
  cases htype : envelope.type with
  | roomMessage =>
      by_cases member : envelope.targetRoomId.getD "" ∈ n.memberships.rooms sender.connectionId
      · have hdeliverable : Deliverable n.memberships sender envelope := Or.inr ⟨htype, member⟩
        simp only [route, htype, handleRoomMessage, member, not_true_eq_false, if_false,
          if_pos hdeliverable, acknowledge_idempotencyManager, messageAck]
        simp [fanOutRoomMessage]
      · have hdeliverable : ¬ Deliverable n.memberships sender envelope := by
          simp [Deliverable, htype, member]
        simp [route, htype, handleRoomMessage, member, hdeliverable]
  | directMessage =>
      have hdeliverable : Deliverable n.memberships sender envelope := Or.inl htype
      simp only [route, htype, handleDirectMessage, if_pos hdeliverable,
        acknowledge_idempotencyManager, messageAck]
      simp [fanOutDirectMessage]
  | _ => simp [route, htype, Deliverable, handlePing, handlePong]

/-- Of an admitted frame only an accepted message writes to the cache. -/
theorem answer_idempotencyManager (cfg : ServerConfig) (sender : Connection) (tick : Tick)
    (admitted : Node × Verdict) :
    (answer cfg sender tick admitted).idempotencyManager =
      (admitted.2.accepted?.filter fun envelope =>
        Deliverable admitted.1.memberships sender envelope).elim admitted.1.idempotencyManager
          fun envelope => admitted.1.idempotencyManager.recordAck cfg.idempotency envelope.eventId
            (messageAck admitted.1 sender envelope tick) envelope.payload tick.now := by
  obtain ⟨n, verdict⟩ := admitted
  cases verdict with
  | refused reason =>
      cases reason with
      | rateLimited abusive =>
          simp only [answer]
          split <;> simp [Verdict.accepted?]
      | invalid error => simp [answer, Verdict.accepted?]
  | accepted envelope =>
      rw [answer, route_idempotencyManager]
      by_cases hdeliverable : Deliverable n.memberships sender envelope
      · simp [Verdict.accepted?, Option.filter, hdeliverable]
      · simp [Verdict.accepted?, Option.filter, hdeliverable]
  | _ => simp [answer, Verdict.accepted?]

theorem receivedMessage_eq_some :
    receivedMessage n sender raw tick = some envelope ↔
      (receive n sender raw tick).2 = .ok envelope ∧ envelope.type.isMessage = true := by
  rw [receivedMessage, Option.filter_eq_some_iff]
  refine and_congr_left fun _ => ?_
  cases (receive n sender raw tick).2 <;> simp [Except.toOption]

/-- A received message is checked against the cache. -/
theorem judge_of_message (h : receivedMessage n sender raw tick = some envelope) :
    judge cfg n sender raw tick =
      checkMessage cfg (receive n sender raw tick).1 sender envelope tick.now := by
  obtain ⟨hok, -⟩ := receivedMessage_eq_some.mp h
  have hpair : receive n sender raw tick = ((receive n sender raw tick).1, .ok envelope) :=
    Prod.ext rfl hok
  rw [judge, hpair, checkReceived]

theorem judge_idempotencyManager (h : receivedMessage n sender raw tick = some envelope) :
    (judge cfg n sender raw tick).1.idempotencyManager =
      (n.idempotencyManager.check cfg.idempotency envelope.eventId envelope.payload
        tick.now).1 := by
  rw [judge_of_message h, checkMessage_node, if_pos (receivedMessage_eq_some.mp h).2]
  rw [receive_idempotencyManager]

/-- Any other frame leaves the cache alone. -/
theorem judge_idempotencyManager_of_none (h : receivedMessage n sender raw tick = none) :
    (judge cfg n sender raw tick).1.idempotencyManager = n.idempotencyManager := by
  rw [judge]
  cases hreceive : receive n sender raw tick with
  | mk n₁ received =>
      have hmanager : n₁.idempotencyManager = n.idempotencyManager := by
        rw [← receive_idempotencyManager n sender raw tick, hreceive]
      cases received with
      | error reason => exact hmanager
      | ok envelope =>
          have hmessage : ¬ envelope.type.isMessage = true := by
            intro hmessage
            have hsome := receivedMessage_eq_some.mpr ⟨by rw [hreceive], hmessage⟩
            rw [h] at hsome
            cases hsome
          rw [checkReceived, checkMessage_node, if_neg hmessage]
          exact hmanager

theorem Deliverable.isMessage {m : Memberships} (h : Deliverable m sender envelope) :
    envelope.type.isMessage = true := by
  rcases h with h | ⟨h, -⟩ <;> rw [h] <;> rfl

/-- An accepted message was received, and is not in the cache. -/
theorem acceptedMessage_received (h : acceptedMessage cfg n sender raw tick = some envelope) :
    receivedMessage n sender raw tick = some envelope ∧
      ¬ n.idempotencyManager.Hits cfg.idempotency envelope.eventId tick.now := by
  obtain ⟨hverdict, hdeliverable⟩ := acceptedMessage_eq_some.mp h
  have hreceived := receivedMessage_eq_some.mpr
    ⟨(judge_accepted hverdict).1, hdeliverable.isMessage⟩
  refine ⟨hreceived, ?_⟩
  rw [judge_of_message hreceived] at hverdict
  have hmiss := not_hits_of_accepted hverdict hdeliverable.isMessage
  rwa [receive_idempotencyManager] at hmiss

theorem dispatchRawMessage_idempotencyManager (cfg : ServerConfig) (n : Node)
    (sender : Connection) (raw : Option Json) (tick : Tick) :
    (dispatchRawMessage cfg n sender raw tick).idempotencyManager =
      (frameUse cfg n sender raw tick).elim n.idempotencyManager
        fun u => u.apply cfg.idempotency n.idempotencyManager := by
  rw [dispatchRawMessage, answer_idempotencyManager]
  simp only [judge_memberships]
  rw [← acceptedMessage, frameUse]
  cases hreceived : receivedMessage n sender raw tick with
  | none =>
      cases haccepted : acceptedMessage cfg n sender raw tick with
      | none => exact judge_idempotencyManager_of_none hreceived
      | some envelope =>
          have hsome := (acceptedMessage_received haccepted).1
          rw [hreceived] at hsome
          cases hsome
  | some envelope =>
      simp only [Option.map_some, Option.elim_some, IdempotencyUse.apply]
      have hchecked : (judge cfg n sender raw tick).1.idempotencyManager = _ :=
        judge_idempotencyManager hreceived
      rw [← hchecked]
      cases haccepted : acceptedMessage cfg n sender raw tick with
      | none => rfl
      | some accepted =>
          have hsome := (acceptedMessage_received haccepted).1
          rw [hreceived, Option.some.injEq] at hsome
          rw [hsome]
          rfl

theorem frameUse_legal {u : IdempotencyUse} (h : frameUse cfg n sender raw tick = some u) :
    u.Legal cfg.idempotency n.idempotencyManager := by
  rw [frameUse, Option.map_eq_some_iff] at h
  obtain ⟨envelope, hreceived, rfl⟩ := h
  intro hrecorded
  rw [Option.isSome_map] at hrecorded
  obtain ⟨accepted, haccepted⟩ := Option.isSome_iff_exists.mp hrecorded
  obtain ⟨hsome, hmiss⟩ := acceptedMessage_received haccepted
  rw [hreceived, Option.some.injEq] at hsome
  rw [hsome]
  exact hmiss

theorem redisUse_legal {u : IdempotencyUse} (h : redisUse cfg n raw tick = some u) :
    u.Legal cfg.idempotency n.idempotencyManager := by
  rw [redisUse, Option.map_eq_some_iff] at h
  obtain ⟨envelope, -, rfl⟩ := h
  intro hrecorded hhits
  rw [← IdempotencyManager.check_isDuplicate_iff envelope.payload] at hhits
  simp [hhits] at hrecorded

@[simp] theorem deliverInbound_idempotencyManager (n : Node) (channel : Channel)
    (envelope : PulseEventEnvelope) :
    (deliverInbound n channel envelope).1.idempotencyManager = n.idempotencyManager := by
  rw [deliverInbound]
  split
  · split
    · rfl
    · split
      · rfl
      · exact Node.deliver_idempotencyManager _ _ _
  · split
    · rfl
    · split
      · rfl
      · exact Node.deliver_idempotencyManager _ _ _
  · rw [handleInboundPresence]
    split
    · split
      · rfl
      · split
        · rfl
        · simp only [deliverRoomScopedPresence, Node.deliver_idempotencyManager]
          split <;> rfl
    · rfl
  · rfl

theorem handleInboundRedisEvent_of_none (h : foreignEvent cfg raw tick = none)
    (channel : Channel) : handleInboundRedisEvent cfg n channel raw tick = (n, false) := by
  cases raw with
  | none => rfl
  | some parsed =>
      simp only [handleInboundRedisEvent]
      split
      · rfl
      · rename_i envelope hvalid
        split
        · rfl
        · rename_i hforeign
          have hevent : foreignEvent cfg (some parsed) tick = some envelope := by
            simp [foreignEvent, hvalid, Except.toOption, hforeign]
          rw [h] at hevent
          cases hevent

/-- An event of another instance is checked, and recorded and delivered if it is new. -/
theorem handleInboundRedisEvent_of_some (h : foreignEvent cfg raw tick = some envelope)
    (channel : Channel) :
    handleInboundRedisEvent cfg n channel raw tick =
      let checked := n.idempotencyManager.check cfg.idempotency envelope.eventId envelope.payload
        tick.now
      let n := { n with idempotencyManager := checked.1 }
      if checked.2.isDuplicate then (n, false)
      else deliverInbound (n.recordAck cfg envelope (distributedAck envelope tick.reply) tick.now)
        channel envelope := by
  rw [foreignEvent, Option.filter_eq_some_iff, Option.bind_eq_some_iff] at h
  obtain ⟨⟨parsed, rfl, hvalid⟩, hforeign⟩ := h
  cases hvalidated : EventValidator.validateDistributed parsed tick.frame with
  | error e => simp [hvalidated, Except.toOption] at hvalid
  | ok found =>
      simp only [hvalidated, Except.toOption, Option.some.injEq] at hvalid
      subst hvalid
      simp only [ne_eq, decide_not, Bool.not_eq_eq_eq_not, Bool.not_true,
        decide_eq_false_iff_not] at hforeign
      simp only [handleInboundRedisEvent, hvalidated, hforeign, if_false]

theorem handleInboundRedisEvent_idempotencyManager (cfg : ServerConfig) (n : Node)
    (channel : Channel) (raw : Option Json) (tick : Tick) :
    (handleInboundRedisEvent cfg n channel raw tick).1.idempotencyManager =
      (redisUse cfg n raw tick).elim n.idempotencyManager
        fun u => u.apply cfg.idempotency n.idempotencyManager := by
  rw [redisUse]
  cases hevent : foreignEvent cfg raw tick with
  | none => rw [handleInboundRedisEvent_of_none hevent, Option.map_none, Option.elim_none]
  | some envelope =>
      rw [handleInboundRedisEvent_of_some hevent]
      simp only [Option.map_some, Option.elim_some, IdempotencyUse.apply]
      split
      · rfl
      · rw [deliverInbound_idempotencyManager]
        rfl

end MessageDispatcher

namespace Node

open MessageDispatcher

variable {cfg : ServerConfig} {n n' : Node} {e : NodeEvent}

/-- The inversion lemma of the event loop, for the idempotency cache. -/
theorem step_idempotencyManager (h : n.step cfg e = some n') :
    n'.idempotencyManager =
      (n.cacheUse cfg e).elim n.idempotencyManager
        fun u => u.apply cfg.idempotency n.idempotencyManager := by
  cases e with
  | connect connection tick =>
      simp only [step] at h
      split at h
      · cases h
      · cases h
        rw [connect, sendReply_idempotencyManager]
        rfl
  | frame connectionId raw tick =>
      rw [step, Option.map_eq_some_iff] at h
      obtain ⟨sender, hsender, rfl⟩ := h
      rw [dispatchRawMessage_idempotencyManager, cacheUse, hsender, Option.bind_some]
  | resume i online tick =>
      rw [step, Option.map_eq_some_iff] at h
      obtain ⟨k, -, rfl⟩ := h
      exact runHandler_idempotencyManager _ _ _
  | close connectionId =>
      rw [step, Option.map_eq_some_iff] at h
      obtain ⟨connection, -, rfl⟩ := h
      rfl
  | redisMessage channel raw tick =>
      cases h
      exact handleInboundRedisEvent_idempotencyManager cfg n channel raw tick
  | subscriptionSettled i accepted =>
      simp only [step, Option.bind_eq_bind, Option.bind_eq_some_iff, Option.pure_def,
        Option.some.injEq] at h
      obtain ⟨s, -, s', -, rfl⟩ := h
      rfl
  | publishSettled =>
      cases h
      rfl
  | link connected =>
      cases h
      rfl
  | setPresenceManager =>
      simp only [step] at h
      split at h
      · cases h
      · cases h
        rfl
  | transport connectionId readyState bufferedAmount sendFails =>
      simp only [step, transport] at h
      split at h
      · cases h
        rfl
      · cases h

theorem cacheUse_legal {u : IdempotencyUse} (h : n.cacheUse cfg e = some u) :
    u.Legal cfg.idempotency n.idempotencyManager := by
  cases e with
  | frame connectionId raw tick =>
      rw [cacheUse, Option.bind_eq_some_iff] at h
      obtain ⟨sender, -, huse⟩ := h
      exact frameUse_legal huse
  | redisMessage channel raw tick => exact redisUse_legal h
  | _ => cases h

/-- The event's use of the cache comes within the window of its event. -/
def InWindow (cfg : ServerConfig) (n : Node) (log : List CacheTouch) (e : NodeEvent) : Prop :=
  ∀ u ∈ n.cacheUse cfg e, u.InWindow cfg.idempotency log

instance (cfg : ServerConfig) (n : Node) (log : List CacheTouch) (e : NodeEvent) :
    Decidable (n.InWindow cfg log e) :=
  inferInstanceAs (Decidable (∀ u ∈ n.cacheUse cfg e, u.InWindow cfg.idempotency log))

theorem sourced_step {log : List CacheTouch}
    (h : Sourced cfg.idempotency n.idempotencyManager log) (hstep : n.step cfg e = some n') :
    Sourced cfg.idempotency n'.idempotencyManager (log ++ n.touches cfg e) := by
  rw [step_idempotencyManager hstep, touches]
  cases huse : n.cacheUse cfg e with
  | none =>
      simp only [Option.elim_none, List.append_nil]
      exact h
  | some u => exact h.apply (cacheUse_legal huse)

theorem tracked_step {watched : EventId → Prop} {log : List CacheTouch}
    (h : Tracked cfg.idempotency watched n.idempotencyManager log) (hstep : n.step cfg e = some n')
    (window : ∀ u ∈ n.cacheUse cfg e, watched u.envelope.eventId →
      u.InWindow cfg.idempotency log) :
    Tracked cfg.idempotency watched n'.idempotencyManager (log ++ n.touches cfg e) := by
  rw [step_idempotencyManager hstep, touches]
  cases huse : n.cacheUse cfg e with
  | none =>
      simp only [Option.elim_none, List.append_nil]
      exact h
  | some u => exact h.apply (cacheUse_legal huse) (window u huse)

end Node

end Pulse
