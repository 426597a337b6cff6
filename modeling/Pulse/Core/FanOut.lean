import Pulse.Core.OneAnswer

/-!
# Fan-outs

A node hands a message over when its handler accepts it, to every recipient once, or when
another node published it. Whatever else a node hands over is no message.
-/

namespace Pulse

open Collections Js MessageDispatcher

namespace Node

/-- The messages among the frames which were handed over on the way to a later node. -/
def messagesSince (n n' : Node) : List (Connection × PulseEventEnvelope) :=
  (n.handedSince n').filter fun f => f.2.type.isMessage

theorem messagesSince_of_handed {n n' : Node} (h : n'.handed = n.handed) :
    n.messagesSince n' = [] := by
  rw [messagesSince, handedSince, h, List.drop_length, List.filter_nil]

/-- A reply that is no message. -/
theorem messagesSince_of_reply {n n' : Node} {sender : Connection}
    {reply : Option PulseEventEnvelope} (h : n'.handed = n.handed ++ replyTo sender reply)
    (quiet : ∀ r, reply = some r → r.type.isMessage = false) : n.messagesSince n' = [] := by
  rw [messagesSince, handedSince, h, List.drop_left, List.filter_eq_nil_iff]
  intro f hf
  obtain ⟨r, hr, rfl⟩ := List.mem_map.mp hf
  rw [quiet r (Option.mem_toList.mp hr)]
  exact Bool.false_ne_true

end Node

namespace MessageDispatcher

open Node

variable {cfg : ServerConfig} {n : Node} {sender : Connection} {raw : Option Json} {tick : Tick}
variable {envelope reply : PulseEventEnvelope}

theorem roomReply_not_message {type : EventType} (h : type ∈ roomReplyTypes) :
    type.isMessage = false := by
  revert type
  decide

theorem messageAck_not_message (n : Node) (sender : Connection) (envelope : PulseEventEnvelope)
    (tick : Tick) : (messageAck n sender envelope tick).type.isMessage = false := by
  rw [messageAck_type]
  rfl

theorem routeReply_not_message (h : routeReply cfg n sender envelope tick = some reply) :
    reply.type.isMessage = false := by
  have hroom : ∀ {result : Memberships × Option PulseEventEnvelope}, RepliesTo envelope result →
      result.2 = some reply → reply.type.isMessage = false :=
    fun replies hreply => roomReply_not_message (replies reply hreply).1
  cases htype : envelope.type with
  | roomJoin =>
      simp only [routeReply, htype] at h
      exact hroom (handleRoomJoin_replies cfg.toConfig n.memberships sender envelope tick.reply) h
  | roomBatchJoin =>
      simp only [routeReply, htype] at h
      exact hroom
        (handleRoomBatchJoin_replies cfg.toConfig n.memberships sender envelope tick.reply) h
  | roomLeave =>
      simp only [routeReply, htype] at h
      exact hroom (handleRoomLeave_replies n.memberships sender envelope tick.reply) h
  | roomMessage =>
      simp only [routeReply, htype] at h
      split at h
      · cases h
        rfl
      · cases h
        exact messageAck_not_message ..
  | directMessage =>
      simp only [routeReply, htype] at h
      cases h
      exact messageAck_not_message ..
  | sysPing =>
      simp only [routeReply, htype] at h
      cases h
      rfl
  | _ =>
      simp only [routeReply, htype] at h
      cases h

theorem verdictReply_not_message (acks : CachesAcks n)
    (h : verdictReply cfg sender tick (judge cfg n sender raw tick) = some reply) :
    reply.type.isMessage = false := by
  cases hjudged : judge cfg n sender raw tick with
  | mk n₁ verdict =>
      rw [hjudged] at h
      cases verdict with
      | refused reason =>
          cases h
          cases reason <;> rfl
      | replayed envelope cachedAck =>
          obtain ⟨-, entry, hentry, -, -, rfl⟩ := replayed_entry (congrArg Prod.snd hjudged)
          cases h
          show entry.ackEnvelope.type.isMessage = false
          rw [acks _ entry hentry]
          rfl
      | accepted envelope => exact routeReply_not_message h
      | _ =>
          cases h
          rfl

/-- What a frame hands over: the message which it gets accepted, to each of its recipients, and
then the reply. -/
theorem frameHandover_eq_append (cfg : ServerConfig) (n : Node) (sender : Connection)
    (raw : Option Json) (tick : Tick) :
    frameHandover cfg n sender raw tick =
      ((acceptedMessage cfg n sender raw tick).elim [] fun envelope =>
        (messageRecipients n sender envelope).map fun r => (r, envelope)) ++
      replyTo sender (verdictReply cfg sender tick (judge cfg n sender raw tick)) := by
  have hmemberships := judge_memberships cfg n sender raw tick
  rw [frameHandover_eq, verdictHandover, verdictFanOut, hmemberships, ← acceptedMessage]
  cases acceptedMessage cfg n sender raw tick with
  | none => rfl
  | some envelope =>
      rw [Option.elim_some,
        ← messageRecipients_congr (congrArg Memberships.hub hmemberships) sender envelope]

theorem dispatchRawMessage_messages (cfg : ServerConfig) (acks : CachesAcks n)
    (sender : Connection) (raw : Option Json) (tick : Tick) :
    n.messagesSince (dispatchRawMessage cfg n sender raw tick) =
      (acceptedMessage cfg n sender raw tick).elim [] fun envelope =>
        (messageRecipients n sender envelope).map fun r => (r, envelope) := by
  have hreply : (replyTo sender (verdictReply cfg sender tick
      (judge cfg n sender raw tick))).filter (fun f => f.2.type.isMessage) = [] := by
    rw [List.filter_eq_nil_iff]
    intro f hf
    obtain ⟨reply, hreply, rfl⟩ := List.mem_map.mp hf
    rw [verdictReply_not_message acks (Option.mem_toList.mp hreply)]
    exact Bool.false_ne_true
  rw [messagesSince, ← frameHandover, frameHandover_eq_append, List.filter_append, hreply,
    List.append_nil, List.filter_eq_self]
  cases hmessage : acceptedMessage cfg n sender raw tick with
  | none => exact fun f hf => absurd hf List.not_mem_nil
  | some envelope =>
      intro f hf
      obtain ⟨r, -, rfl⟩ := List.mem_map.mp hf
      exact (acceptedMessage_eq_some.mp hmessage).2.isMessage

theorem framesFor_replyTo {c : ConnectionId} (h : sender.connectionId ≠ c)
    (reply : Option PulseEventEnvelope) : framesFor c (replyTo sender reply) = [] := by
  cases reply with
  | none => rfl
  | some reply => simp [framesFor, replyTo, h]

/-- One of several recipients with different connections. -/
theorem framesFor_map {recipients : List Connection}
    (distinct : (recipients.map (·.connectionId)).Nodup) {recipient : Connection}
    (mem : recipient ∈ recipients) (envelope : PulseEventEnvelope) :
    framesFor recipient.connectionId (recipients.map fun r => (r, envelope)) = [envelope] := by
  induction recipients with
  | nil => cases mem
  | cons r rs ih =>
      rw [List.map_cons, List.nodup_cons] at distinct
      rcases List.mem_cons.mp mem with rfl | hmem
      · have hrest : framesFor recipient.connectionId (rs.map fun r => (r, envelope)) = [] := by
          rw [framesFor, List.map_eq_nil_iff, List.filter_eq_nil_iff]
          intro f hf
          obtain ⟨r, hr, rfl⟩ := List.mem_map.mp hf
          rw [decide_eq_true_eq]
          exact fun heq => distinct.1 (heq ▸ List.mem_map_of_mem hr)
        rw [framesFor] at hrest ⊢
        rw [List.map_cons, List.filter_cons_of_pos (by simp), List.map_cons, hrest]
      · have hne : r.connectionId ≠ recipient.connectionId :=
          fun heq => distinct.1 (heq ▸ List.mem_map_of_mem hmem)
        have hrest := ih distinct.2 hmem
        rw [framesFor] at hrest ⊢
        rw [List.map_cons, List.filter_cons_of_neg (by simpa using hne), hrest]

/-- The socket of a recipient gains the accepted message, if it takes frames. -/
theorem dispatchRawMessage_gains (wf : n.memberships.WellFormed)
    (message : acceptedMessage cfg n sender raw tick = some envelope) {recipient : Connection}
    (mem : recipient ∈ messageRecipients n sender envelope)
    (other : recipient.connectionId ≠ sender.connectionId)
    (writable : (n.sockets recipient.connectionId).Writable recipient.maxBufferedAmountBytes) :
    ((dispatchRawMessage cfg n sender raw tick).sockets recipient.connectionId).sent =
      (n.sockets recipient.connectionId).sent ++ [envelope] := by
  have distinct := messageRecipients_distinct wf sender envelope
  have hreaches := dispatchRawMessage_reaches cfg n sender raw tick recipient.connectionId
  rw [← frameHandover, frameHandover_eq_append, message, Option.elim_some] at hreaches
  refine (hreaches ?_).trans ?_
  · intro f hf hid
    rcases List.mem_append.mp hf with hmessage | hreply
    · obtain ⟨r, hr, rfl⟩ := List.mem_map.mp hmessage
      rwa [List.inj_on_of_nodup_map distinct hr mem hid]
    · obtain ⟨reply, -, rfl⟩ := List.mem_map.mp hreply
      exact absurd hid.symm other
  · rw [framesFor, List.filter_append, List.map_append, ← framesFor, ← framesFor,
      framesFor_map distinct mem, framesFor_replyTo (Ne.symm other), List.append_nil]

/-- The other members of a room are its recipients. -/
theorem mem_roomRecipients {connection : Connection} {roomId : RoomId} {c : ConnectionId}
    (registered : n.getConnection connection.connectionId = some connection)
    (member : connection.connectionId ∈ n.memberships.hub.roomManager.members roomId)
    (other : connection.connectionId ≠ c) : connection ∈ roomRecipients n roomId c :=
  List.mem_filterMap.mpr
    ⟨_, List.mem_filter.mpr ⟨member, decide_eq_true other⟩, registered⟩

/-- An event of another node is handed over as it is. -/
theorem deliverInbound_handsOver (n : Node) (channel : Channel) (envelope : PulseEventEnvelope) :
    ∃ recipients : List Connection,
      HandsOver n (recipients.map fun r => (r, envelope))
        (deliverInbound n channel envelope).1 := by
  have hnobody : ∃ recipients : List Connection,
      HandsOver n (recipients.map fun r => (r, envelope)) n := ⟨[], .refl n⟩
  rw [deliverInbound]
  split
  · split
    · exact hnobody
    · split
      · exact hnobody
      · exact ⟨_, .deliver ..⟩
  · split
    · exact hnobody
    · split
      · exact hnobody
      · exact ⟨_, .deliver ..⟩
  · rw [handleInboundPresence]
    split
    · split
      · exact hnobody
      · split
        · exact hnobody
        · simp only [deliverRoomScopedPresence]
          refine ⟨_, (HandsOver.deliver _ _ envelope).of_same ?_ ?_⟩ <;> split <;> rfl
    · exact hnobody
  · exact hnobody

theorem handleInboundRedisEvent_handed (cfg : ServerConfig) (n : Node) (channel : Channel)
    (raw : Option Json) (tick : Tick) {f : Connection × PulseEventEnvelope}
    (hf : f ∈ n.handedSince (handleInboundRedisEvent cfg n channel raw tick).1) :
    foreignEvent cfg raw tick = some f.2 ∧
      ¬ n.idempotencyManager.Hits cfg.idempotency f.2.eventId tick.now := by
  cases hevent : foreignEvent cfg raw tick with
  | none =>
      rw [handleInboundRedisEvent_of_none hevent, handedSince, List.drop_length] at hf
      cases hf
  | some envelope =>
      rw [handleInboundRedisEvent_of_some hevent] at hf
      simp only at hf
      split at hf
      · rw [handedSince, List.drop_length] at hf
        cases hf
      · rename_i hnew
        obtain ⟨recipients, hhands⟩ := deliverInbound_handsOver (({ n with
          idempotencyManager := (n.idempotencyManager.check cfg.idempotency envelope.eventId
            envelope.payload tick.now).1 } : Node).recordAck cfg envelope
              (distributedAck envelope tick.reply) tick.now) channel envelope
        rw [(hhands.of_same (n := n) rfl rfl).handedSince] at hf
        obtain ⟨recipient, -, rfl⟩ := List.mem_map.mp hf
        exact ⟨rfl, fun hits => hnew ((IdempotencyManager.check_isDuplicate_iff _).mpr hits)⟩

end MessageDispatcher

namespace Node

variable {cfg : ServerConfig} {n n' : Node} {e : NodeEvent}

/-- A frame that is accepted as a message fans it out to its recipients; no other does. -/
theorem frame_messages (acks : CachesAcks n) {connectionId : ConnectionId} {raw : Option Json}
    {tick : Tick} (hstep : n.step cfg (.frame connectionId raw tick) = some n') :
    ∃ sender, n.getConnection connectionId = some sender ∧
      n' = dispatchRawMessage cfg n sender raw tick ∧
      n.messagesSince n' = (acceptedMessage cfg n sender raw tick).elim [] fun envelope =>
        (messageRecipients n sender envelope).map fun r => (r, envelope) := by
  rw [step, Option.map_eq_some_iff] at hstep
  obtain ⟨sender, registered, rfl⟩ := hstep
  exact ⟨sender, registered, rfl, dispatchRawMessage_messages cfg acks sender raw tick⟩

/-- The messages which come in by other events are those of other nodes. -/
theorem step_messages (hstep : n.step cfg e = some n')
    (other : ∀ connectionId raw tick, e ≠ .frame connectionId raw tick)
    {f : Connection × PulseEventEnvelope} (hf : f ∈ n.messagesSince n') :
    f.2.eventId ∈ touchedIds (n.touches cfg e) ∧ ∃ u ∈ n.cacheUse cfg e, u.envelope = f.2 := by
  have hsilent : n'.handed = n.handed → f.2.eventId ∈ touchedIds (n.touches cfg e) ∧
      ∃ u ∈ n.cacheUse cfg e, u.envelope = f.2 := by
    intro hsame
    rw [messagesSince_of_handed hsame] at hf
    cases hf
  cases e with
  | frame connectionId raw tick => exact absurd rfl (other connectionId raw tick)
  | redisMessage channel raw tick =>
      cases hstep
      obtain ⟨hevent, hnew⟩ :=
        handleInboundRedisEvent_handed cfg n channel raw tick (List.mem_filter.mp hf).1
      rw [touches_of_inbound hevent hnew, cacheUse, redisUse, hevent]
      exact ⟨List.mem_singleton_self _, _, rfl, rfl⟩
  | connect connection tick =>
      rw [step] at hstep
      split at hstep
      · cases hstep
      · cases hstep
        have hhanded : (n.connect cfg connection tick).handed =
            n.handed ++ replyTo connection (some (connectAck cfg connection tick)) :=
          (HandsOver.sendReply _ connection _).handed
        rw [messagesSince_of_reply hhanded] at hf
        · cases hf
        · intro r hr
          cases hr
          rfl
  | resume i online tick =>
      rw [step, Option.map_eq_some_iff] at hstep
      obtain ⟨k, -, rfl⟩ := hstep
      rw [messagesSince_of_reply (resume_handsOver cfg n k i online tick).handed] at hf
      · cases hf
      · intro r hr
        exact roomReply_not_message (continueHandler_replies cfg.toConfig _ tick.reply online k r
          hr).1
  | close connectionId =>
      rw [step, Option.map_eq_some_iff] at hstep
      obtain ⟨connection, -, rfl⟩ := hstep
      exact hsilent rfl
  | subscriptionSettled i accepted =>
      simp only [step, Option.bind_eq_bind, Option.bind_eq_some_iff] at hstep
      obtain ⟨s, -, s', -, heq⟩ := hstep
      cases heq
      exact hsilent rfl
  | publishSettled =>
      cases hstep
      exact hsilent rfl
  | link connected =>
      cases hstep
      exact hsilent rfl
  | setPresenceManager =>
      rw [step] at hstep
      split at hstep
      · cases hstep
      · cases hstep
        exact hsilent rfl
  | transport connectionId readyState bufferedAmount sendFails =>
      rw [step, transport] at hstep
      split at hstep
      · cases hstep
        exact hsilent rfl
      · cases hstep

end Node

end Pulse
