import Pulse.Core.BatchJoin
import Pulse.Core.Delivery

/-!
# Acknowledgements of a node

A connection gets an acknowledgement for its own frames only, right away or from a
room handler which was suspended for one of them. If the frame is a message, it
was fanned out just now, or the idempotency cache has its event.
-/

namespace Pulse

open Collections Js Transition MessageDispatcher Socket

/-- The acknowledgement names the request by its correlation id. -/
def Answers (ack request : PulseEventEnvelope) : Prop :=
  ∀ c, request.correlationId = some c → c ≠ "" → ack.correlationId = some c

theorem answers_of_reply {ack request : PulseEventEnvelope}
    (h : ack.correlationId = some request.replyCorrelationId) : Answers ack request := by
  intro c hc hne
  rw [h, PulseEventEnvelope.replyCorrelationId, hc]
  exact congrArg some (if_neg hne)

theorem answers_of_replay (request cachedAck : PulseEventEnvelope) :
    Answers (replayAck request cachedAck) request := by
  intro c hc hne
  simp only [replayAck, hc, if_neg hne]

namespace MessageDispatcher

theorem messageAck_correlationId (n : Node) (sender : Connection) (envelope : PulseEventEnvelope)
    (tick : Tick) :
    (messageAck n sender envelope tick).correlationId = some envelope.replyCorrelationId := by
  simp only [messageAck]
  split <;> rfl

end MessageDispatcher

namespace Node

/-- The messages which an event fans out. -/
def fanOuts (cfg : ServerConfig) (n : Node) : NodeEvent → List PulseEventEnvelope
  | .frame connectionId raw tick =>
      ((n.getConnection connectionId).bind fun sender =>
        acceptedMessage cfg n sender raw tick).toList
  | _ => []

/-- The event acknowledges a request of connection `c` with the frame `ack`. -/
inductive Acknowledges (cfg : ServerConfig) (n : Node) (c : ConnectionId)
    (ack : PulseEventEnvelope) : NodeEvent → Prop
  | frame {sender : Connection} {raw : Option Json} {tick : Tick} {envelope : PulseEventEnvelope}
      (registered : n.getConnection c = some sender)
      (received : (receive n sender raw tick).2 = .ok envelope) (answers : Answers ack envelope)
      (processed : envelope.type.isMessage = true →
        acceptedMessage cfg n sender raw tick = some envelope ∨
          n.idempotencyManager.Hits cfg.idempotency envelope.eventId tick.now) :
      Acknowledges cfg n c ack (.frame c raw tick)
  | resume {i : Nat} {online : Option (List UserId)} {tick : Tick} {k : Suspended}
      (suspended : n.memberships.suspended[i]? = some k) (sender : k.sender.connectionId = c)
      (answers : Answers ack k.envelope) : Acknowledges cfg n c ack (.resume i online tick)

/-- The event suspends a handler for a request which is no message, or suspends it again. -/
inductive Suspends (cfg : ServerConfig) (n : Node) (k : Suspended) : NodeEvent → Prop
  | frame {c : ConnectionId} {raw : Option Json} {tick : Tick}
      (registered : n.getConnection c = some k.sender)
      (received : (receive n k.sender raw tick).2 = .ok k.envelope)
      (request : k.envelope.type.isMessage = false) : Suspends cfg n k (.frame c raw tick)
  | resume {i : Nat} {online : Option (List UserId)} {tick : Tick} {k₀ : Suspended}
      (suspended : n.memberships.suspended[i]? = some k₀) (sender : k.sender = k₀.sender)
      (envelope : k.envelope = k₀.envelope) : Suspends cfg n k (.resume i online tick)

variable {cfg : ServerConfig} {n n' : Node} {e : NodeEvent}

/-- A message is recorded when it is fanned out. -/
theorem fanOuts_sublist (cfg : ServerConfig) (n : Node) (e : NodeEvent) :
    ((n.fanOuts cfg e).map (·.eventId)).Sublist (recordedIds (n.touches cfg e)) := by
  cases e with
  | frame connectionId raw tick =>
      rw [fanOuts]
      cases hmessage : (n.getConnection connectionId).bind fun sender =>
          acceptedMessage cfg n sender raw tick with
      | none => exact List.nil_sublist _
      | some envelope =>
          obtain ⟨sender, registered, message⟩ := Option.bind_eq_some_iff.mp hmessage
          rw [touches_of_accepted registered message]
          exact List.Sublist.refl _
  | _ => exact List.nil_sublist _

/-- What a frame records is fanned out. -/
theorem fanOuts_of_recorded {connectionId : ConnectionId} {raw : Option Json} {tick : Tick}
    {id : EventId} (h : id ∈ recordedIds (n.touches cfg (.frame connectionId raw tick))) :
    id ∈ (n.fanOuts cfg (.frame connectionId raw tick)).map (·.eventId) := by
  rw [touches] at h
  cases huse : n.cacheUse cfg (.frame connectionId raw tick) with
  | none =>
      rw [huse] at h
      exact absurd h List.not_mem_nil
  | some u =>
      rw [huse] at h
      obtain ⟨hrecorded, rfl⟩ := recorded_of_touch h
      rw [cacheUse, Option.bind_eq_some_iff] at huse
      obtain ⟨sender, registered, huse⟩ := huse
      rw [frameUse, Option.map_eq_some_iff] at huse
      obtain ⟨envelope, hreceived, rfl⟩ := huse
      rw [Option.isSome_map, Option.isSome_iff_exists] at hrecorded
      obtain ⟨accepted, hmessage⟩ := hrecorded
      have hsame := (acceptedMessage_received hmessage).1
      rw [hreceived, Option.some.injEq] at hsame
      rw [fanOuts, registered, Option.bind_some, hmessage, hsame]
      exact List.mem_singleton_self _

/-- The messages which a node sends are no acknowledgements. -/
theorem not_isAck_of_isMessage {type : EventType} (h : type.isMessage = true) :
    type.isAck ≠ true := by
  cases type <;> simp_all [EventType.isMessage, EventType.isAck]

theorem Reply.acknowledges {c : ConnectionId} {sender : Connection} {raw : Option Json}
    {tick : Tick} {f : PulseEventEnvelope} (registered : n.getConnection c = some sender)
    (h : Reply cfg n sender raw tick f) (hack : f.type.isAck = true) :
    Acknowledges cfg n c f (.frame c raw tick) := by
  cases h with
  | system reply type =>
      rcases type with htype | htype <;> rw [htype] at hack <;> cases hack
  | replayed envelope cachedAck verdict =>
      obtain ⟨hreceived, entry, hentry, hfresh, -, -⟩ := replayed_entry verdict
      refine .frame registered (receivedMessage_eq_some.mp hreceived).1
        (answers_of_replay envelope cachedAck) fun _ => ?_
      exact Or.inr ⟨entry, hentry, hfresh⟩
  | room reply envelope verdict request type correlation =>
      refine .frame registered (judge_accepted verdict).1 (answers_of_reply correlation) ?_
      intro hmessage
      rw [request] at hmessage
      cases hmessage

/-- Whoever gets an acknowledgement asked for it. -/
theorem Outgoing.acknowledges {frames : ConnectionId → List PulseEventEnvelope}
    (h : Outgoing cfg n e frames) {c : ConnectionId} {f : PulseEventEnvelope}
    (hf : f ∈ frames c) (hack : f.type.isAck = true) : Acknowledges cfg n c f e := by
  cases h with
  | silent => exact absurd hf List.not_mem_nil
  | greeting connection tick =>
      rw [(mem_framesTo.mp hf).2] at hack
      cases hack
  | accepted registered message distinct =>
      rename_i envelope recipients
      have hmessage := (acceptedMessage_eq_some.mp message).2.isMessage
      rcases List.mem_append.mp hf with hf | hf
      · rw [(mem_framesToAll.mp hf).2] at hack
        exact absurd hack (not_isAck_of_isMessage hmessage)
      · obtain ⟨rfl, rfl⟩ := mem_framesTo.mp hf
        have hreceived := (acceptedMessage_received message).1
        refine .frame registered (receivedMessage_eq_some.mp hreceived).1 ?_ fun _ => Or.inl message
        exact answers_of_reply (messageAck_correlationId _ _ envelope _)
  | replied registered isReply =>
      obtain ⟨rfl, rfl⟩ := mem_framesTo.mp hf
      exact Reply.acknowledges registered isReply hack
  | resumed suspended type correlation =>
      obtain ⟨rfl, rfl⟩ := mem_framesTo.mp hf
      exact .resume suspended rfl (answers_of_reply correlation)
  | inbound event new type distinct =>
      rw [(mem_framesToAll.mp hf).2] at hack
      have hquiet : ∀ t ∈ inboundTypes, t.isAck = false := by decide
      rw [hquiet _ type] at hack
      cases hack

end Node

namespace MessageDispatcher

/-- The pieces of a handler suspend its own rest only. -/
theorem kept_suspended (cfg : Config) (sender : Connection) (envelope : PulseEventEnvelope)
    (m₀ : Memberships) : Memberships.Kept cfg sender envelope fun m =>
      ∀ k ∈ m.suspended, k ∈ m₀.suspended ∨ k.sender = sender ∧ k.envelope = envelope where
  join := fun _ _ _ h => h
  leave := fun _ _ h => h
  updateSeq := by
    intro m h
    rw [Memberships.updateSeq]
    split <;> exact h
  suspend := by
    intro m k hsender henvelope _ h k' hk'
    rcases List.mem_append.mp hk' with hk' | hk'
    · exact h k' hk'
    · rw [List.mem_singleton.mp hk']
      exact Or.inr ⟨hsender, henvelope⟩

theorem updateSeq_suspended (m : Memberships) (c : ConnectionId) (envelope : PulseEventEnvelope) :
    (m.updateSeq c envelope).suspended = m.suspended := by
  rw [Memberships.updateSeq]
  split <;> rfl

/-- Only the room handlers suspend. -/
theorem route_suspended {cfg : ServerConfig} {n : Node} {sender : Connection}
    {envelope : PulseEventEnvelope} {tick : Tick} {k : Suspended}
    (h : k ∈ (route cfg n sender envelope tick).memberships.suspended) :
    k ∈ n.memberships.suspended ∨
      (k.sender = sender ∧ k.envelope = envelope) ∧ envelope.type.isMessage = false := by
  have hkept := kept_suspended cfg.toConfig sender envelope n.memberships
  have hold : ∀ k ∈ n.memberships.suspended,
      k ∈ n.memberships.suspended ∨ k.sender = sender ∧ k.envelope = envelope :=
    fun k hk => Or.inl hk
  have hroom : ∀ (_ : envelope.type.isMessage = false), (k ∈ n.memberships.suspended ∨
      k.sender = sender ∧ k.envelope = envelope) → k ∈ n.memberships.suspended ∨
        (k.sender = sender ∧ k.envelope = envelope) ∧ envelope.type.isMessage = false :=
    fun hrequest => Or.imp_right fun hnew => ⟨hnew, hrequest⟩
  cases htype : envelope.type with
  | roomJoin =>
      simp only [route, htype, runHandler_memberships] at h
      rw [htype] at hroom
      exact hroom rfl (hkept.handleRoomJoin hold _ k h)
  | roomBatchJoin =>
      simp only [route, htype, runHandler_memberships] at h
      rw [htype] at hroom
      exact hroom rfl (hkept.handleRoomBatchJoin hold _ k h)
  | roomLeave =>
      simp only [route, htype, runHandler_memberships] at h
      rw [htype] at hroom
      exact hroom rfl (hkept.handleRoomLeave hold _ k h)
  | roomMessage =>
      simp only [route, htype] at h
      by_cases member : envelope.targetRoomId.getD "" ∈ n.memberships.rooms sender.connectionId
      · obtain ⟨f, -, hf⟩ := handleRoomMessage_accepted cfg n sender envelope tick member
        rw [hf, Memberships.updateRegistry, updateSeq_suspended] at h
        exact Or.inl h
      · simp only [handleRoomMessage, member, not_false_eq_true, if_true,
          Node.sendReply_memberships] at h
        exact Or.inl h
  | directMessage =>
      simp only [route, htype] at h
      obtain ⟨f, -, hf⟩ := handleDirectMessage_accepted cfg n sender envelope tick
      rw [hf, Memberships.updateRegistry, updateSeq_suspended] at h
      exact Or.inl h
  | sysPing =>
      simp only [route, htype, handlePing, Node.sendReply_memberships, updateSeq_suspended] at h
      exact Or.inl h
  | sysPong =>
      simp only [route, htype, handlePong, updateSeq_suspended] at h
      exact Or.inl h
  | _ =>
      simp only [route, htype] at h
      exact Or.inl h

theorem dispatchRawMessage_suspended {cfg : ServerConfig} {n : Node} {sender : Connection}
    {raw : Option Json} {tick : Tick} {k : Suspended}
    (h : k ∈ (dispatchRawMessage cfg n sender raw tick).memberships.suspended) :
    k ∈ n.memberships.suspended ∨ k.sender = sender ∧
      (receive n sender raw tick).2 = .ok k.envelope ∧ k.envelope.type.isMessage = false := by
  refine answer_induction (P := fun m => k ∈ m.suspended → k ∈ n.memberships.suspended ∨
    k.sender = sender ∧ (receive n sender raw tick).2 = .ok k.envelope ∧
      k.envelope.type.isMessage = false) ?_ ?_ h
  · rw [judge_memberships]
    exact Or.inl
  · intro envelope hverdict h
    rcases route_suspended h with hold | ⟨⟨hsender, rfl⟩, hrequest⟩
    · rw [judge_memberships] at hold
      exact Or.inl hold
    · exact Or.inr ⟨hsender, (judge_accepted hverdict).1, hrequest⟩

end MessageDispatcher

namespace Node

variable {cfg : ServerConfig} {n n' : Node} {e : NodeEvent}

/-- The inversion lemma of the event loop, for the suspended handlers. -/
theorem step_suspended (h : n.step cfg e = some n') {k : Suspended}
    (hk : k ∈ n'.memberships.suspended) :
    k ∈ n.memberships.suspended ∨ Suspends cfg n k e := by
  have heffect := step_effect h
  cases e with
  | frame connectionId raw tick =>
      rw [step, Option.map_eq_some_iff] at h
      obtain ⟨sender, registered, rfl⟩ := h
      refine (dispatchRawMessage_suspended hk).imp_right ?_
      rintro ⟨rfl, received, request⟩
      exact .frame registered received request
  | resume i online tick =>
      obtain ⟨k₀, hk₀, heq⟩ := heffect
      rw [heq] at hk
      have hkept := kept_suspended cfg.toConfig k₀.sender k₀.envelope n.memberships
      have hold : ∀ k ∈ n.memberships.suspended.eraseIdx i,
          k ∈ n.memberships.suspended ∨ k.sender = k₀.sender ∧ k.envelope = k₀.envelope :=
        fun k hk => Or.inl (List.eraseIdx_subset hk)
      have hnew := hkept.continueHandler (m := { n.memberships with
        suspended := n.memberships.suspended.eraseIdx i }) hold online tick.reply k hk
      exact hnew.imp_right fun hsame => .resume hk₀ hsame.1 hsame.2
  | connect connection tick =>
      rw [heffect.2] at hk
      exact Or.inl hk
  | close connectionId =>
      rw [heffect.2] at hk
      exact Or.inl hk
  | redisMessage channel raw tick =>
      rw [heffect] at hk
      exact Or.inl hk
  | subscriptionSettled i accepted =>
      obtain ⟨s, s', -, -, heq⟩ := heffect
      rw [heq] at hk
      exact Or.inl hk
  | publishSettled =>
      obtain ⟨f, -, heq⟩ := heffect
      rw [heq] at hk
      exact Or.inl hk
  | link connected =>
      obtain ⟨f, -, heq⟩ := heffect
      rw [heq] at hk
      exact Or.inl hk
  | setPresenceManager =>
      rw [heffect] at hk
      exact Or.inl hk
  | transport connectionId readyState bufferedAmount sendFails =>
      rw [heffect] at hk
      exact Or.inl hk

/-- The inversion lemma of the event loop, for the acknowledgements on a socket. -/
theorem step_acknowledges (wf : n.memberships.WellFormed) (h : n.step cfg e = some n')
    {c : ConnectionId} {f : PulseEventEnvelope} (hf : f ∈ (n'.sockets c).sent)
    (hack : f.type.isAck = true) :
    f ∈ (n.socketsAt e c).sent ∨ Acknowledges cfg n c f e := by
  obtain ⟨frames, houtgoing, hsends⟩ := step_sends wf h
  obtain ⟨l, hl, hsent⟩ := hsends c
  rw [hsent] at hf
  rcases List.mem_append.mp hf with hold | hnew
  · exact Or.inl hold
  · exact Or.inr (houtgoing.acknowledges (hl.subset hnew) hack)

/-- What is fanned out was checked against the cache. -/
theorem cacheUse_of_fanOut {envelope : PulseEventEnvelope} (h : envelope ∈ n.fanOuts cfg e) :
    ∃ u ∈ n.cacheUse cfg e, u.envelope = envelope := by
  cases e with
  | frame connectionId raw tick =>
      rw [fanOuts, Option.mem_toList, Option.bind_eq_some_iff] at h
      obtain ⟨sender, registered, message⟩ := h
      rw [cacheUse, registered, Option.bind_some, frameUse, (acceptedMessage_received message).1]
      exact ⟨_, rfl, rfl⟩
  | _ => exact absurd h List.not_mem_nil

theorem touches_of_use {touch : CacheTouch} (h : touch ∈ n.touches cfg e) :
    ∃ u ∈ n.cacheUse cfg e, touch.eventId = u.envelope.eventId := by
  rw [touches] at h
  cases huse : n.cacheUse cfg e with
  | none =>
      rw [huse] at h
      exact absurd h List.not_mem_nil
  | some u =>
      rw [huse] at h
      exact ⟨u, rfl, IdempotencyUse.touch_eventId h⟩

end Node

end Pulse
