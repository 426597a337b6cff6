import Pulse.Core.Server

/-!
# What an event does to the memberships

Sending, rate limiting, the idempotency cache and the presence tracker never
touch the memberships. `Effect` lists for each kind of event what is left: the
change to the memberships, with the guards under which it happens. The
properties of rooms and sequence numbers are proved from it.
-/

namespace Pulse

open Collections Js MessageDispatcher

namespace Memberships

/-- The sequence check lets the frame pass. -/
def InOrder (m : Memberships) (sender : Connection) (envelope : PulseEventEnvelope) : Prop :=
  ∀ seq, envelope.seq = some seq → m.lastSeenSeq sender.connectionId ≤ seq

/-- The changes a frame can make. -/
inductive FrameChange (cfg : Config) (sender : Connection) (m : Memberships) :
    Memberships → Prop
  | rejected : FrameChange cfg sender m m
  | seq (envelope : PulseEventEnvelope) (inOrder : m.InOrder sender envelope)
      (f : Subscriptions → Subscriptions) (keeps : Subscriptions.KeepsChannels f) :
      FrameChange cfg sender m ((m.updateSeq sender.connectionId envelope).updateRegistry f)
  | join (envelope : PulseEventEnvelope) (inOrder : m.InOrder sender envelope) (fresh : Fresh) :
      FrameChange cfg sender m (handleRoomJoin cfg m sender envelope fresh).1
  | batchJoin (envelope : PulseEventEnvelope) (inOrder : m.InOrder sender envelope)
      (fresh : Fresh) :
      FrameChange cfg sender m (handleRoomBatchJoin cfg m sender envelope fresh).1
  | leave (envelope : PulseEventEnvelope) (inOrder : m.InOrder sender envelope) (fresh : Fresh) :
      FrameChange cfg sender m (handleRoomLeave m sender envelope fresh).1

/-- The memberships before and after an event. -/
def Effect (cfg : Config) (m m' : Memberships) : NodeEvent → Prop
  | .connect connection _ =>
      connection.connectionId ∉ m.known ∧ m' = m.connect connection
  | .frame connectionId _ _ =>
      ∃ sender, m.hub.connectionManager.getConnection connectionId = some sender ∧
        FrameChange cfg sender m m'
  | .resume i online tick =>
      ∃ k, m.suspended[i]? = some k ∧
        m' = (continueHandler cfg { m with suspended := m.suspended.eraseIdx i } online
          tick.reply k).1
  | .close connectionId =>
      (∃ connection, m.hub.connectionManager.getConnection connectionId = some connection) ∧
        m' = m.close connectionId
  | .redisMessage .. => m' = m
  | .subscriptionSettled i accepted =>
      ∃ s s', m.hub.channelRegistry = some s ∧ s.settle i accepted = some s' ∧
        m' = m.updateRegistry fun _ => s'
  | .publishSettled | .link _ =>
      ∃ f : Subscriptions → Subscriptions, Subscriptions.KeepsChannels f ∧
        m' = m.updateRegistry f
  | .setPresenceManager => m' = { m with presence := true }
  | .transport .. => m' = m

theorem updateRegistry_id (m : Memberships) : m.updateRegistry (fun s => s) = m := by
  simp [updateRegistry]

end Memberships

namespace Node

open Memberships

@[simp] theorem recordAck_memberships (cfg : ServerConfig) (n : Node)
    (envelope ack : PulseEventEnvelope) (now : Int) :
    (n.recordAck cfg envelope ack now).memberships = n.memberships := rfl

theorem publish_memberships (cfg : ServerConfig) (n : Node) (channel : Channel)
    (envelope : PulseEventEnvelope) (now : Int) :
    ∃ f : Subscriptions → Subscriptions, Subscriptions.KeepsChannels f ∧
      (n.publish cfg channel envelope now).memberships = n.memberships.updateRegistry f := by
  rw [publish]
  split
  · exact ⟨fun s => s, Subscriptions.keepsChannels_id, (updateRegistry_id _).symm⟩
  · rename_i s hs
    split
    · split
      · exact ⟨fun s => s, Subscriptions.keepsChannels_id, (updateRegistry_id _).symm⟩
      · rename_i pubSub hpub
        refine ⟨fun s => (s.pubSub.publish channel (EventValidator.stampForDistribution envelope
          cfg.instanceId (.ofInt now))).toOption.elim s fun pubSub => { s with pubSub }, ?_, ?_⟩
        · intro s
          dsimp only
          cases hok : s.pubSub.publish channel (EventValidator.stampForDistribution envelope
              cfg.instanceId (.ofInt now)) with
          | error _ => exact ⟨rfl, rfl⟩
          | ok pubSub => exact ⟨rfl, RedisPubSubManager.publish_subscribedChannels hok⟩
        · simp [updateRegistry, hs, hpub, Except.toOption]
    · exact ⟨fun s => s, Subscriptions.keepsChannels_id, (updateRegistry_id _).symm⟩

end Node

namespace MessageDispatcher

open Memberships

@[simp] theorem receive_memberships (n : Node) (sender : Connection) (raw : Option Json)
    (tick : Tick) : (receive n sender raw tick).1.memberships = n.memberships := by
  simp only [receive]
  split
  · rfl
  · split <;> rfl

theorem receive_ok {n : Node} {sender : Connection} {raw : Option Json} {tick : Tick}
    {envelope : PulseEventEnvelope} (h : (receive n sender raw tick).2 = .ok envelope) :
    EventValidator.validateIncoming raw sender.userId tick.frame = .ok envelope := by
  simp only [receive] at h
  split at h
  · cases h
  · split at h
    · cases h
    · rename_i hvalid
      cases h
      exact hvalid

theorem checkReceived_memberships (cfg : ServerConfig) (sender : Connection) (now : Int)
    (received : Node × Except Refusal PulseEventEnvelope) :
    (checkReceived cfg sender now received).1.memberships = received.1.memberships := by
  obtain ⟨n, received⟩ := received
  cases received with
  | error reason => rfl
  | ok envelope =>
      simp only [checkReceived, checkMessage]
      split
      · split
        · rfl
        · split <;> rfl
      · rfl

@[simp] theorem judge_memberships (cfg : ServerConfig) (n : Node) (sender : Connection)
    (raw : Option Json) (tick : Tick) :
    (judge cfg n sender raw tick).1.memberships = n.memberships :=
  (checkReceived_memberships cfg sender tick.now _).trans (receive_memberships n sender raw tick)

theorem checkSequence_accepted {n : Node} {sender : Connection}
    {envelope envelope' : PulseEventEnvelope}
    (h : checkSequence n sender envelope = .accepted envelope') :
    envelope' = envelope ∧ n.memberships.InOrder sender envelope := by
  rw [checkSequence] at h
  split at h
  · rename_i hseq
    cases h
    refine ⟨rfl, ?_⟩
    intro seq hsome
    rw [hseq] at hsome
    cases hsome
  · rename_i seq hseq
    split at h
    · cases h
    · rename_i hlt
      cases h
      refine ⟨rfl, ?_⟩
      intro seq' hsome
      rw [hseq, Option.some.injEq] at hsome
      rw [← hsome]
      exact Nat.le_of_not_lt hlt

theorem checkMessage_accepted {cfg : ServerConfig} {n : Node} {sender : Connection}
    {envelope envelope' : PulseEventEnvelope} {now : Int}
    (h : (checkMessage cfg n sender envelope now).2 = .accepted envelope') :
    envelope' = envelope ∧ n.memberships.InOrder sender envelope := by
  simp only [checkMessage] at h
  split at h
  · split at h
    · cases h
    · split at h
      · cases h
      · exact checkSequence_accepted h
  · exact checkSequence_accepted h

theorem checkReceived_accepted {cfg : ServerConfig} {sender : Connection} {now : Int}
    {received : Node × Except Refusal PulseEventEnvelope} {envelope : PulseEventEnvelope}
    (h : (checkReceived cfg sender now received).2 = .accepted envelope) :
    received.2 = .ok envelope ∧ received.1.memberships.InOrder sender envelope := by
  obtain ⟨n, received⟩ := received
  cases received with
  | error reason => cases h
  | ok found =>
      obtain ⟨rfl, hord⟩ := checkMessage_accepted h
      exact ⟨rfl, hord⟩

/-- An accepted frame is valid and in order. -/
theorem judge_accepted {cfg : ServerConfig} {n : Node} {sender : Connection}
    {raw : Option Json} {tick : Tick} {envelope : PulseEventEnvelope}
    (h : (judge cfg n sender raw tick).2 = .accepted envelope) :
    (receive n sender raw tick).2 = .ok envelope ∧
      n.memberships.InOrder sender envelope := by
  obtain ⟨hok, hord⟩ := checkReceived_accepted h
  rw [receive_memberships] at hord
  exact ⟨hok, hord⟩

@[simp] theorem runHandler_memberships (n : Node) (sender : Connection)
    (result : Memberships × Option PulseEventEnvelope) :
    (runHandler n sender result).memberships = result.1 := by
  rw [runHandler, Node.sendReply_memberships]

@[simp] theorem fanOutRoomMessage_memberships (n : Node) (sender : Connection)
    (envelope : PulseEventEnvelope) (tick : Tick) :
    (fanOutRoomMessage n sender envelope tick).1.memberships = n.memberships := by
  simp only [fanOutRoomMessage, Node.deliver_memberships]

@[simp] theorem fanOutDirectMessage_memberships (n : Node) (envelope : PulseEventEnvelope)
    (tick : Tick) : (fanOutDirectMessage n envelope tick).1.memberships = n.memberships := by
  simp only [fanOutDirectMessage, Node.deliver_memberships]

theorem acknowledge_memberships (cfg : ServerConfig) (n : Node) (sender : Connection)
    (envelope ack : PulseEventEnvelope) (channel : Channel) (now : Int) :
    ∃ f : Subscriptions → Subscriptions, Subscriptions.KeepsChannels f ∧
      (acknowledge cfg n sender envelope ack channel now).memberships =
        n.memberships.updateRegistry f := by
  obtain ⟨f, hkeeps, hf⟩ := Node.publish_memberships cfg
    ((n.recordAck cfg envelope ack now).sendReply sender (some ack)) channel envelope now
  refine ⟨f, hkeeps, hf.trans ?_⟩
  rw [Node.sendReply_memberships, Node.recordAck_memberships]

/-- A room message of a member writes its number, and may be published. -/
theorem handleRoomMessage_accepted (cfg : ServerConfig) (n : Node) (sender : Connection)
    (envelope : PulseEventEnvelope) (tick : Tick)
    (member : envelope.targetRoomId.getD "" ∈ n.memberships.rooms sender.connectionId) :
    ∃ f : Subscriptions → Subscriptions, Subscriptions.KeepsChannels f ∧
      (handleRoomMessage cfg n sender envelope tick).memberships =
        (n.memberships.updateSeq sender.connectionId envelope).updateRegistry f := by
  have hack := acknowledge_memberships cfg (fanOutRoomMessage { n with
    memberships := n.memberships.updateSeq sender.connectionId envelope } sender envelope
      tick).1 sender envelope (fanOutRoomMessage { n with
    memberships := n.memberships.updateSeq sender.connectionId envelope } sender envelope
      tick).2 (CHANNEL_PREFIX_ROOM ++ envelope.targetRoomId.getD "") tick.now
  rw [fanOutRoomMessage_memberships] at hack
  simp only [handleRoomMessage, member, not_true_eq_false, if_false]
  exact hack

theorem handleDirectMessage_accepted (cfg : ServerConfig) (n : Node) (sender : Connection)
    (envelope : PulseEventEnvelope) (tick : Tick) :
    ∃ f : Subscriptions → Subscriptions, Subscriptions.KeepsChannels f ∧
      (handleDirectMessage cfg n sender envelope tick).memberships =
        (n.memberships.updateSeq sender.connectionId envelope).updateRegistry f := by
  have hack := acknowledge_memberships cfg (fanOutDirectMessage { n with
    memberships := n.memberships.updateSeq sender.connectionId envelope } envelope tick).1
      sender envelope (fanOutDirectMessage { n with
    memberships := n.memberships.updateSeq sender.connectionId envelope } envelope tick).2
      (CHANNEL_PREFIX_USER ++ envelope.targetRecipientId.getD "") tick.now
  rw [fanOutDirectMessage_memberships] at hack
  simp only [handleDirectMessage]
  exact hack

theorem handleRoomMessage_memberships (cfg : ServerConfig) (n : Node) (sender : Connection)
    (envelope : PulseEventEnvelope) (tick : Tick)
    (inOrder : n.memberships.InOrder sender envelope) :
    FrameChange cfg.toConfig sender n.memberships
      (handleRoomMessage cfg n sender envelope tick).memberships := by
  by_cases member : envelope.targetRoomId.getD "" ∈ n.memberships.rooms sender.connectionId
  · obtain ⟨f, hkeeps, hf⟩ := handleRoomMessage_accepted cfg n sender envelope tick member
    rw [hf]
    exact .seq envelope inOrder f hkeeps
  · simp only [handleRoomMessage, member, not_false_eq_true, if_true,
      Node.sendReply_memberships]
    exact .rejected

theorem handleDirectMessage_memberships (cfg : ServerConfig) (n : Node) (sender : Connection)
    (envelope : PulseEventEnvelope) (tick : Tick)
    (inOrder : n.memberships.InOrder sender envelope) :
    FrameChange cfg.toConfig sender n.memberships
      (handleDirectMessage cfg n sender envelope tick).memberships := by
  obtain ⟨f, hkeeps, hf⟩ := handleDirectMessage_accepted cfg n sender envelope tick
  rw [hf]
  exact .seq envelope inOrder f hkeeps

theorem route_memberships (cfg : ServerConfig) (n : Node) (sender : Connection)
    (envelope : PulseEventEnvelope) (tick : Tick)
    (inOrder : n.memberships.InOrder sender envelope) :
    FrameChange cfg.toConfig sender n.memberships
      (route cfg n sender envelope tick).memberships := by
  have hseq : FrameChange cfg.toConfig sender n.memberships
      (n.memberships.updateSeq sender.connectionId envelope) := by
    rw [← updateRegistry_id (n.memberships.updateSeq sender.connectionId envelope)]
    exact .seq envelope inOrder (fun s => s) Subscriptions.keepsChannels_id
  rw [route]
  split
  · rw [runHandler_memberships]
    exact .join envelope inOrder _
  · rw [runHandler_memberships]
    exact .batchJoin envelope inOrder _
  · rw [runHandler_memberships]
    exact .leave envelope inOrder _
  · exact handleRoomMessage_memberships cfg n sender envelope tick inOrder
  · exact handleDirectMessage_memberships cfg n sender envelope tick inOrder
  · rw [handlePing, Node.sendReply_memberships]
    exact hseq
  · exact hseq
  · exact .rejected

theorem dispatchRawMessage_accepted {cfg : ServerConfig} {n : Node} {sender : Connection}
    {raw : Option Json} {tick : Tick} {envelope : PulseEventEnvelope}
    (h : (judge cfg n sender raw tick).2 = .accepted envelope) :
    dispatchRawMessage cfg n sender raw tick =
      route cfg (judge cfg n sender raw tick).1 sender envelope tick := by
  have hpair : judge cfg n sender raw tick =
      ((judge cfg n sender raw tick).1, .accepted envelope) :=
    Prod.ext rfl h
  rw [dispatchRawMessage, hpair, answer]

/-- Only an accepted frame changes the memberships. -/
theorem answer_induction {P : Memberships → Prop} {cfg : ServerConfig} {sender : Connection}
    {tick : Tick} {admitted : Node × Verdict} (stopped : P admitted.1.memberships)
    (accepted : ∀ envelope, admitted.2 = .accepted envelope →
      P (route cfg admitted.1 sender envelope tick).memberships) :
    P (answer cfg sender tick admitted).memberships := by
  obtain ⟨n, verdict⟩ := admitted
  cases verdict with
  | refused reason =>
      cases reason with
      | rateLimited abusive =>
          simp only [answer]
          split
          · rw [Node.closeSocket_memberships, Node.sendReply_memberships]
            exact stopped
          · rw [Node.sendReply_memberships]
            exact stopped
      | invalid error =>
          rw [answer, Node.sendReply_memberships]
          exact stopped
  | conflict envelope =>
      rw [answer, Node.sendReply_memberships]
      exact stopped
  | replayed envelope cachedAck =>
      rw [answer, Node.sendReply_memberships]
      exact stopped
  | outOfOrder envelope seq =>
      rw [answer, Node.sendReply_memberships]
      exact stopped
  | accepted envelope => exact accepted envelope rfl

theorem answer_memberships (cfg : ServerConfig) (sender : Connection) (tick : Tick)
    (admitted : Node × Verdict)
    (inOrder : ∀ envelope, admitted.2 = .accepted envelope →
      admitted.1.memberships.InOrder sender envelope) :
    FrameChange cfg.toConfig sender admitted.1.memberships
      (answer cfg sender tick admitted).memberships := by
  apply answer_induction
  · exact .rejected
  · intro envelope hverdict
    exact route_memberships cfg admitted.1 sender envelope tick (inOrder envelope hverdict)

theorem dispatchRawMessage_memberships (cfg : ServerConfig) (n : Node) (sender : Connection)
    (raw : Option Json) (tick : Tick) :
    FrameChange cfg.toConfig sender n.memberships
      (dispatchRawMessage cfg n sender raw tick).memberships := by
  have hanswer := answer_memberships cfg sender tick (judge cfg n sender raw tick)
  rw [judge_memberships] at hanswer
  exact hanswer fun envelope h => (judge_accepted h).2

theorem deliverInbound_memberships (n : Node) (channel : Channel)
    (envelope : PulseEventEnvelope) :
    (deliverInbound n channel envelope).1.memberships = n.memberships := by
  rw [deliverInbound]
  split
  · split
    · rfl
    · split
      · rfl
      · exact Node.deliver_memberships _ _ _
  · split
    · rfl
    · split
      · rfl
      · exact Node.deliver_memberships _ _ _
  · rw [handleInboundPresence]
    split
    · split
      · rfl
      · split
        · rfl
        · simp only [deliverRoomScopedPresence, Node.deliver_memberships]
          split <;> rfl
    · rfl
  · rfl

theorem handleInboundRedisEvent_memberships (cfg : ServerConfig) (n : Node) (channel : Channel)
    (raw : Option Json) (tick : Tick) :
    (handleInboundRedisEvent cfg n channel raw tick).1.memberships = n.memberships := by
  simp only [handleInboundRedisEvent]
  split
  · rfl
  · split
    · rfl
    · split
      · rfl
      · split
        · rfl
        · rw [deliverInbound_memberships]
          rfl

end MessageDispatcher

namespace Node

open Memberships

theorem link_keepsChannels (connected : Bool) : Subscriptions.KeepsChannels (link connected) := by
  intro s
  cases connected with
  | false => exact ⟨rfl, rfl⟩
  | true =>
      refine ⟨rfl, ?_⟩
      simp only [link, if_true, RedisPubSubManager.restoreSubscriptions]
      split <;> rfl

/-- The inversion lemma of the event loop, for the memberships. -/
theorem step_effect {cfg : ServerConfig} {n n' : Node} {e : NodeEvent}
    (h : n.step cfg e = some n') :
    Effect cfg.toConfig n.memberships n'.memberships e := by
  cases e with
  | connect connection tick =>
      simp only [step] at h
      split at h
      · cases h
      · rename_i hfresh
        cases h
        exact ⟨hfresh, by rw [connect, sendReply_memberships]⟩
  | frame connectionId raw tick =>
      rw [step, Option.map_eq_some_iff] at h
      obtain ⟨sender, hsender, rfl⟩ := h
      exact ⟨sender, hsender, dispatchRawMessage_memberships cfg n sender raw tick⟩
  | resume i online tick =>
      rw [step, Option.map_eq_some_iff] at h
      obtain ⟨k, hk, rfl⟩ := h
      exact ⟨k, hk, runHandler_memberships _ _ _⟩
  | close connectionId =>
      rw [step, Option.map_eq_some_iff] at h
      obtain ⟨connection, hc, rfl⟩ := h
      exact ⟨⟨connection, hc⟩, rfl⟩
  | redisMessage channel raw tick =>
      cases h
      exact handleInboundRedisEvent_memberships cfg n channel raw tick
  | subscriptionSettled i accepted =>
      simp only [step, Option.bind_eq_bind, Option.bind_eq_some_iff, Option.pure_def,
        Option.some.injEq] at h
      obtain ⟨s, hs, s', hs', rfl⟩ := h
      exact ⟨s, s', hs, hs', rfl⟩
  | publishSettled =>
      cases h
      exact ⟨fun s => { s with pubSub := s.pubSub.publishSettled }, fun _ => ⟨rfl, rfl⟩, rfl⟩
  | link connected =>
      cases h
      exact ⟨link connected, link_keepsChannels connected, rfl⟩
  | setPresenceManager =>
      simp only [step] at h
      split at h
      · cases h
      · cases h
        rfl
  | transport connectionId readyState bufferedAmount sendFails =>
      simp only [step, transport] at h
      split at h
      · cases h
        rfl
      · cases h

end Node

end Pulse
