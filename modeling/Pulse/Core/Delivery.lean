import Pulse.Core.Sending

/-!
# Deliveries of a node

The messages on a node's sockets against the log of its idempotency cache. Both
ways to a socket, the fan-out of a client frame and the delivery of an event of
another node, record the event in the cache in the same piece of work. As long as
the cache is used within its window an event is recorded once, and so it is sent
at most once to each connection.
-/

namespace Pulse

open Collections Js Transition MessageDispatcher Socket

/-- The ids of the messages among some frames. -/
def messageIds (frames : List PulseEventEnvelope) : List EventId :=
  (frames.filter fun envelope => envelope.type.isMessage).map (·.eventId)

@[simp] theorem messageIds_append (frames frames' : List PulseEventEnvelope) :
    messageIds (frames ++ frames') = messageIds frames ++ messageIds frames' := by
  simp [messageIds]

theorem messageIds_eq_nil {frames : List PulseEventEnvelope}
    (h : ∀ f ∈ frames, f.type.isMessage = false) : messageIds frames = [] := by
  rw [messageIds, List.map_eq_nil_iff, List.filter_eq_nil_iff]
  intro f hf
  rw [h f hf]
  exact Bool.false_ne_true

theorem messageIds_sublist_singleton (envelope : PulseEventEnvelope) :
    (messageIds [envelope]).Sublist [envelope.eventId] :=
  List.Sublist.map PulseEventEnvelope.eventId List.filter_sublist

/-- The recorded acknowledgements are acknowledgements of deliveries. -/
def AcksLogged (log : List CacheTouch) : Prop :=
  ∀ envelope ack now, .recorded envelope ack now ∈ log → ack.type = .deliveryAck

namespace MessageDispatcher

variable {cfg : ServerConfig} {n : Node} {sender : Connection} {raw : Option Json} {tick : Tick}
variable {envelope : PulseEventEnvelope}

theorem messageAck_type (n : Node) (sender : Connection) (envelope : PulseEventEnvelope)
    (tick : Tick) : (messageAck n sender envelope tick).type = .deliveryAck := by
  simp only [messageAck]
  split <;> rfl

theorem checkSequence_ne_replayed {envelope' cachedAck : PulseEventEnvelope} :
    checkSequence n sender envelope ≠ .replayed envelope' cachedAck := by
  rw [checkSequence]
  split
  · exact Verdict.noConfusion
  · split <;> exact Verdict.noConfusion

theorem checkMessage_replayed {envelope' cachedAck : PulseEventEnvelope} {now : Int}
    (h : (checkMessage cfg n sender envelope now).2 = .replayed envelope' cachedAck) :
    envelope' = envelope ∧ envelope.type.isMessage = true ∧
      ∃ entry, n.idempotencyManager.cache.get? envelope.eventId = some entry ∧
        now - entry.timestamp ≤ cfg.idempotency.ttlMs ∧
        entry.payloadHash = IdempotencyManager.hashPayload cfg.idempotency envelope.payload ∧
        entry.ackEnvelope = cachedAck := by
  by_cases hmessage : envelope.type.isMessage = true
  · by_cases hhits : n.idempotencyManager.Hits cfg.idempotency envelope.eventId now
    · obtain ⟨entry, hentry, hfresh⟩ := hhits
      have hcheck := IdempotencyManager.check_of_hit envelope.payload hentry hfresh
      simp only [checkMessage, hmessage, if_true, hcheck] at h
      by_cases hconflict : entry.payloadHash ≠
          IdempotencyManager.hashPayload cfg.idempotency envelope.payload
      · simp [hconflict] at h
      · simp only [hconflict, if_false, Bool.and_false, Bool.false_eq_true] at h
        cases h
        exact ⟨rfl, hmessage, entry, hentry, hfresh, not_not.mp hconflict, rfl⟩
    · have hcheck := IdempotencyManager.check_of_miss envelope.payload hhits
      simp only [checkMessage, hmessage, if_true, hcheck, Bool.false_and, Bool.false_eq_true,
        if_false] at h
      exact absurd h checkSequence_ne_replayed
  · simp only [checkMessage, hmessage, Bool.false_eq_true, if_false] at h
    exact absurd h checkSequence_ne_replayed

/-- A replayed acknowledgement is that of an unexpired entry for the same event with the
same payload digest. -/
theorem replayed_entry {cachedAck : PulseEventEnvelope}
    (h : (judge cfg n sender raw tick).2 = .replayed envelope cachedAck) :
    receivedMessage n sender raw tick = some envelope ∧
      ∃ entry, n.idempotencyManager.cache.get? envelope.eventId = some entry ∧
        tick.now - entry.timestamp ≤ cfg.idempotency.ttlMs ∧
        entry.payloadHash = IdempotencyManager.hashPayload cfg.idempotency envelope.payload ∧
        entry.ackEnvelope = cachedAck := by
  rw [judge] at h
  cases hreceive : receive n sender raw tick with
  | mk n₁ received =>
      have hmanager : n₁.idempotencyManager = n.idempotencyManager := by
        rw [← receive_idempotencyManager n sender raw tick, hreceive]
      rw [hreceive] at h
      cases received with
      | error reason => cases h
      | ok found =>
          obtain ⟨rfl, hmessage, hentry⟩ := checkMessage_replayed h
          rw [hmanager] at hentry
          exact ⟨receivedMessage_eq_some.mpr ⟨by rw [hreceive], hmessage⟩, hentry⟩

end MessageDispatcher

namespace Node

variable {cfg : ServerConfig} {n n' : Node} {e : NodeEvent} {log : List CacheTouch}

/-- The ids of the messages which a connection was sent. -/
def messagesTo (n : Node) (c : ConnectionId) : List EventId := messageIds (n.sockets c).sent

/-- The log entry of an accepted message. -/
theorem touches_of_accepted {connectionId : ConnectionId} {sender : Connection}
    {raw : Option Json} {tick : Tick} {envelope : PulseEventEnvelope}
    (registered : n.getConnection connectionId = some sender)
    (message : acceptedMessage cfg n sender raw tick = some envelope) :
    n.touches cfg (.frame connectionId raw tick) =
      [.recorded envelope (messageAck (judge cfg n sender raw tick).1 sender envelope tick)
        tick.now] := by
  obtain ⟨hreceived, hmiss⟩ := acceptedMessage_received message
  rw [touches, cacheUse, registered, Option.bind_some, frameUse, hreceived, Option.map_some,
    message]
  exact IdempotencyUse.touch_of_miss hmiss

theorem touches_of_inbound {channel : Channel} {raw : Option Json} {tick : Tick}
    {envelope : PulseEventEnvelope} (event : foreignEvent cfg raw tick = some envelope)
    (new : ¬ n.idempotencyManager.Hits cfg.idempotency envelope.eventId tick.now) :
    n.touches cfg (.redisMessage channel raw tick) =
      [.recorded envelope (distributedAck envelope tick.reply) tick.now] := by
  have hmiss : (n.idempotencyManager.check cfg.idempotency envelope.eventId envelope.payload
      tick.now).2.isDuplicate ≠ true := fun hdup =>
    new ((IdempotencyManager.check_isDuplicate_iff _).mp hdup)
  rw [touches, cacheUse, redisUse, event, Option.map_some, if_neg hmiss]
  exact IdempotencyUse.touch_of_miss new

theorem cacheUse_recorded {u : IdempotencyUse} {ack : PulseEventEnvelope}
    (huse : n.cacheUse cfg e = some u) (hrecorded : u.recorded = some ack) :
    ack.type = .deliveryAck := by
  cases e with
  | frame connectionId raw tick =>
      rw [cacheUse, Option.bind_eq_some_iff] at huse
      obtain ⟨sender, -, huse⟩ := huse
      rw [frameUse, Option.map_eq_some_iff] at huse
      obtain ⟨envelope, -, rfl⟩ := huse
      rw [Option.map_eq_some_iff] at hrecorded
      obtain ⟨accepted, -, rfl⟩ := hrecorded
      exact messageAck_type _ sender accepted tick
  | redisMessage channel raw tick =>
      rw [cacheUse, redisUse, Option.map_eq_some_iff] at huse
      obtain ⟨envelope, -, rfl⟩ := huse
      simp only at hrecorded
      split at hrecorded
      · cases hrecorded
      · cases hrecorded
        rfl
  | _ => cases huse

/-- Whatever an event records is an acknowledgement of a delivery. -/
theorem touches_acks {envelope ack : PulseEventEnvelope} {now : Int}
    (h : .recorded envelope ack now ∈ n.touches cfg e) : ack.type = .deliveryAck := by
  rw [touches] at h
  cases huse : n.cacheUse cfg e with
  | none =>
      rw [huse] at h
      exact absurd h List.not_mem_nil
  | some u =>
      rw [huse] at h
      simp only [IdempotencyUse.touch] at h
      split at h
      · simp at h
      · cases hrecorded : u.recorded with
        | none => simp [hrecorded] at h
        | some recorded =>
            simp only [hrecorded, List.mem_singleton, CacheTouch.recorded.injEq] at h
            rw [h.2.1]
            exact cacheUse_recorded huse hrecorded

end Node

theorem AcksLogged.append_touches {log : List CacheTouch} (h : AcksLogged log)
    (cfg : ServerConfig) (n : Node) (e : NodeEvent) : AcksLogged (log ++ n.touches cfg e) := by
  intro envelope ack now hmem
  rcases List.mem_append.mp hmem with hmem | hmem
  · exact h envelope ack now hmem
  · exact Node.touches_acks hmem

namespace Node

variable {cfg : ServerConfig} {n n' : Node} {e : NodeEvent} {log : List CacheTouch}

/-- The messages among the frames of an event: at most the one which it records. -/
theorem Outgoing.messages {frames : ConnectionId → List PulseEventEnvelope}
    (h : Outgoing cfg n e frames)
    (sourced : Sourced cfg.idempotency n.idempotencyManager log) (acks : AcksLogged log)
    (c : ConnectionId) :
    (messageIds (frames c)).Sublist (recordedIds (n.touches cfg e)) := by
  have hquiet : ∀ {f : PulseEventEnvelope} {connectionId : ConnectionId},
      f.type.isMessage = false → messageIds (framesTo connectionId [f] c) = [] := by
    intro f connectionId hf
    refine messageIds_eq_nil fun f' hf' => ?_
    rw [framesTo] at hf'
    split at hf'
    · rw [List.mem_singleton.mp hf']
      exact hf
    · exact absurd hf' List.not_mem_nil
  have hroom : ∀ t ∈ roomReplyTypes, t.isMessage = false := by decide
  cases h with
  | silent => exact List.nil_sublist _
  | greeting connection tick =>
      rw [hquiet rfl]
      exact List.nil_sublist _
  | accepted registered message distinct =>
      rw [touches_of_accepted registered message, messageIds_append,
        hquiet (by rw [messageAck_type]; rfl), List.append_nil, framesToAll]
      split
      · exact messageIds_sublist_singleton _
      · exact List.nil_sublist _
  | replied registered isReply =>
      rw [hquiet ?_]
      · exact List.nil_sublist _
      · cases isReply with
        | system reply type => rcases type with h | h <;> rw [h] <;> rfl
        | replayed envelope cachedAck verdict =>
            -- What is replayed was recorded.
            obtain ⟨-, entry, hentry, -, -, rfl⟩ := replayed_entry verdict
            obtain ⟨original, hmem, -⟩ := sourced _ entry hentry
            show entry.ackEnvelope.type.isMessage = false
            rw [acks _ _ _ hmem]
            rfl
        | room reply envelope verdict request type correlation => exact hroom _ type
  | resumed suspended type correlation =>
      rw [hquiet (hroom _ type)]
      exact List.nil_sublist _
  | inbound event new type distinct =>
      rw [touches_of_inbound event new, framesToAll]
      split
      · exact messageIds_sublist_singleton _
      · exact List.nil_sublist _

/-- The types of the frames which answer their own connection. -/
def replyTypes : List EventType := [.sysConnectAck, .deliveryAck, .sysPong] ++ roomReplyTypes

theorem reply_type_mem {sender : Connection} {raw : Option Json} {tick : Tick}
    {reply : PulseEventEnvelope} (h : Reply cfg n sender raw tick reply)
    (sourced : Sourced cfg.idempotency n.idempotencyManager log) (acks : AcksLogged log) :
    reply.type ∈ replyTypes := by
  cases h with
  | system reply type => rcases type with h | h <;> rw [h] <;> decide
  | replayed envelope cachedAck verdict =>
      obtain ⟨-, entry, hentry, -, -, rfl⟩ := replayed_entry verdict
      obtain ⟨original, hmem, -⟩ := sourced _ entry hentry
      show entry.ackEnvelope.type ∈ replyTypes
      rw [acks _ _ _ hmem]
      decide
  | room reply envelope verdict request type correlation => exact List.mem_append_right _ type

/-- Where a frame comes from: it answers its connection, or is the message that was
accepted, or the new event of another node. -/
theorem Outgoing.origin {frames : ConnectionId → List PulseEventEnvelope}
    (h : Outgoing cfg n e frames)
    (sourced : Sourced cfg.idempotency n.idempotencyManager log) (acks : AcksLogged log)
    {c : ConnectionId} {f : PulseEventEnvelope} (hf : f ∈ frames c) :
    f.type ∈ replyTypes ∨
      (∃ connectionId sender raw tick, e = .frame connectionId raw tick ∧
        n.getConnection connectionId = some sender ∧
        acceptedMessage cfg n sender raw tick = some f) ∨
      ∃ channel raw tick, e = .redisMessage channel raw tick ∧
        foreignEvent cfg raw tick = some f ∧
        ¬ n.idempotencyManager.Hits cfg.idempotency f.eventId tick.now := by
  have hto : ∀ {connectionId : ConnectionId} {f' : PulseEventEnvelope},
      f ∈ framesTo connectionId [f'] c → f = f' := by
    intro connectionId f' hmem
    rw [framesTo] at hmem
    split at hmem
    · exact List.mem_singleton.mp hmem
    · cases hmem
  have hall : ∀ {recipients : List ConnectionId} {f' : PulseEventEnvelope},
      f ∈ framesToAll recipients f' c → f = f' := by
    intro recipients f' hmem
    rw [framesToAll] at hmem
    split at hmem
    · exact List.mem_singleton.mp hmem
    · cases hmem
  cases h with
  | silent => cases hf
  | greeting connection tick =>
      rw [hto hf]
      exact Or.inl (List.mem_cons_self)
  | @accepted connectionId sender raw tick envelope recipients registered message distinct =>
      rcases List.mem_append.mp hf with hf | hf
      · exact Or.inr (Or.inl ⟨connectionId, sender, raw, tick, rfl, registered, hall hf ▸ message⟩)
      · rw [hto hf, messageAck_type]
        exact Or.inl (by decide)
  | replied registered isReply =>
      rw [hto hf]
      exact Or.inl (reply_type_mem isReply sourced acks)
  | resumed suspended type correlation =>
      rw [hto hf]
      exact Or.inl (List.mem_append_right _ type)
  | @inbound channel raw tick envelope recipients event new type distinct =>
      have heq := hall hf
      exact Or.inr (Or.inr ⟨channel, raw, tick, rfl, heq ▸ event, heq ▸ new⟩)

/-- The invariant behind single delivery: the cache is tracked by the log, and a connection
was sent only events in the log, each once. -/
structure DeliversOnce (cfg : ServerConfig) (n : Node) (log : List CacheTouch) : Prop where
  wellFormed : n.memberships.WellFormed
  tracked : Tracked cfg.idempotency (fun _ => True) n.idempotencyManager log
  acks : AcksLogged log
  nodup : ∀ c, (n.messagesTo c).Nodup
  recorded : ∀ c, ∀ id ∈ n.messagesTo c, id ∈ recordedIds log

theorem deliversOnce_initial (cfg : ServerConfig) (redis : Option Bool) (presence : Bool) :
    DeliversOnce cfg (.initial redis presence) [] where
  wellFormed := wellFormed_initial redis presence
  tracked := tracked_initial cfg.idempotency _
  acks := by
    intro envelope ack now h
    exact absurd h List.not_mem_nil
  nodup := fun _ => List.nodup_nil
  recorded := fun _ _ h => absurd h List.not_mem_nil

theorem socketsAt_sent (n : Node) (e : NodeEvent) (c : ConnectionId) :
    ((n.socketsAt e c).sent).Sublist (n.sockets c).sent := by
  cases e with
  | connect connection tick =>
      by_cases hc : c = connection.connectionId <;> simp [socketsAt, hc]
  | _ => exact List.Sublist.refl _

theorem DeliversOnce.step (h : DeliversOnce cfg n log) (hstep : n.step cfg e = some n')
    (window : n.InWindow cfg log e) : DeliversOnce cfg n' (log ++ n.touches cfg e) := by
  have htracked := tracked_step h.tracked hstep fun u hu _ => window u hu
  have honce := List.nodup_iff_count_le_one.mpr fun id => htracked.once id trivial
  rw [recordedIds_append] at honce
  have hmessages : ∀ c,
      (n'.messagesTo c).Sublist (n.messagesTo c ++ recordedIds (n.touches cfg e)) := by
    intro c
    obtain ⟨frames, houtgoing, hsends⟩ := step_sends h.wellFormed hstep
    obtain ⟨l, hl, hsent⟩ := hsends c
    have hnew : (messageIds l).Sublist (recordedIds (n.touches cfg e)) :=
      ((hl.filter _).map _).trans (houtgoing.messages h.tracked.sourced h.acks c)
    rw [messagesTo, hsent, messageIds_append]
    exact ((((socketsAt_sent n e c).filter _).map _)).append hnew
  refine ⟨wellFormed_step cfg n e n' h.wellFormed hstep, htracked,
    h.acks.append_touches cfg n e, ?_, ?_⟩
  · intro c
    refine List.Nodup.sublist (hmessages c) (List.nodup_append.mpr ⟨h.nodup c, ?_, ?_⟩)
    · exact (List.nodup_append.mp honce).2.1
    · intro id hid id' hid'
      exact (List.nodup_append.mp honce).2.2 id (h.recorded c id hid) id' hid'
  · intro c id hid
    rw [recordedIds_append, List.mem_append]
    rcases List.mem_append.mp ((hmessages c).subset hid) with hold | hnew
    · exact Or.inl (h.recorded c id hold)
    · exact Or.inr hnew

end Node

end Pulse
