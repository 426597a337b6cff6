import Pulse.Core.Sending

/-!
# Frames handed to connections

A `send` may be refused, so the frames on a socket tell less than the calls in the
log. A client frame makes a node hand over the fan-out of an accepted message and
then the reply; a handler that goes on hands over its reply. The sockets are what
these calls leave behind, and those which take frames have gained all of them.
-/

namespace Pulse

open Collections Js

namespace Node

/-- One `send` after the other. -/
def handOver (n : Node) (frames : List (Connection × PulseEventEnvelope)) : Node :=
  frames.foldl (fun n f => (n.send f.1 f.2).1) n

theorem handOver_append (n : Node) (frames frames' : List (Connection × PulseEventEnvelope)) :
    n.handOver (frames ++ frames') = (n.handOver frames).handOver frames' :=
  List.foldl_append

@[simp] theorem handOver_handed (n : Node) (frames : List (Connection × PulseEventEnvelope)) :
    (n.handOver frames).handed = n.handed ++ frames := by
  induction frames generalizing n with
  | nil => exact (List.append_nil _).symm
  | cons f frames ih =>
      rw [handOver, List.foldl_cons, ← handOver, ih, send_handed, List.append_assoc]
      rfl

/-- The calls of `send` on the way from a node to a later one. -/
def handedSince (n n' : Node) : List (Connection × PulseEventEnvelope) :=
  n'.handed.drop n.handed.length

/-- The sockets alone decide on what becomes of a frame. -/
theorem send_sockets_congr {n m : Node} (h : m.sockets = n.sockets) (recipient : Connection)
    (envelope : PulseEventEnvelope) :
    (m.send recipient envelope).1.sockets = (n.send recipient envelope).1.sockets := by
  simp only [send, closeSocket, h]
  split_ifs <;> simp

theorem closeSocket_sockets_congr {n m : Node} (h : m.sockets = n.sockets)
    (connection : Connection) (code : Nat) (reason : String) :
    (m.closeSocket connection code reason).sockets =
      (n.closeSocket connection code reason).sockets := by
  simp only [closeSocket, h]
  split_ifs <;> simp [h]

theorem handOver_sockets_congr {n m : Node} (h : m.sockets = n.sockets)
    (frames : List (Connection × PulseEventEnvelope)) :
    (m.handOver frames).sockets = (n.handOver frames).sockets := by
  induction frames generalizing n m with
  | nil => exact h
  | cons f frames ih => exact ih (send_sockets_congr h f.1 f.2)

theorem deliver_eq_handOver (n : Node) (recipients : List Connection)
    (envelope : PulseEventEnvelope) :
    (n.deliver recipients envelope).1 = n.handOver (recipients.map fun r => (r, envelope)) := by
  rw [deliver_eq_foldl, handOver, List.foldl_map]

/-- A reply is handed to its connection. -/
def replyTo (sender : Connection) (reply : Option PulseEventEnvelope) :
    List (Connection × PulseEventEnvelope) :=
  reply.toList.map fun envelope => (sender, envelope)

@[simp] theorem handOver_replyTo_none (n : Node) (sender : Connection) :
    n.handOver (replyTo sender none) = n := rfl

theorem sendReply_eq_handOver (n : Node) (sender : Connection)
    (reply : Option PulseEventEnvelope) :
    n.sendReply sender reply = n.handOver (replyTo sender reply) := by
  cases reply <;> rfl

/-- A piece of work hands over these frames, and does nothing else to the sockets. -/
structure HandsOver (n : Node) (frames : List (Connection × PulseEventEnvelope)) (n' : Node) :
    Prop where
  handed : n'.handed = n.handed ++ frames
  sockets : n'.sockets = (n.handOver frames).sockets

namespace HandsOver

variable {n m n' n'' : Node} {frames frames' : List (Connection × PulseEventEnvelope)}

theorem refl (n : Node) : HandsOver n [] n := ⟨(List.append_nil _).symm, rfl⟩

theorem handedSince (h : HandsOver n frames n') : n.handedSince n' = frames := by
  rw [Node.handedSince, h.handed, List.drop_left]

/-- What else a node keeps does not matter. -/
theorem of_same (h : HandsOver m frames n') (sockets : m.sockets = n.sockets)
    (handed : m.handed = n.handed) : HandsOver n frames n' where
  handed := by rw [h.handed, handed]
  sockets := h.sockets.trans (handOver_sockets_congr sockets frames)

theorem to_same (h : HandsOver n frames n') (sockets : n''.sockets = n'.sockets)
    (handed : n''.handed = n'.handed) : HandsOver n frames n'' where
  handed := handed.trans h.handed
  sockets := sockets.trans h.sockets

theorem append (h : HandsOver n frames n') (h' : HandsOver n' frames' n'') :
    HandsOver n (frames ++ frames') n'' where
  handed := by rw [h'.handed, h.handed, List.append_assoc]
  sockets := by
    rw [h'.sockets, handOver_sockets_congr h.sockets, handOver_append]

theorem sendReply (n : Node) (sender : Connection) (reply : Option PulseEventEnvelope) :
    HandsOver n (replyTo sender reply) (n.sendReply sender reply) := by
  rw [sendReply_eq_handOver]
  exact ⟨handOver_handed n _, rfl⟩

theorem deliver (n : Node) (recipients : List Connection) (envelope : PulseEventEnvelope) :
    HandsOver n (recipients.map fun r => (r, envelope)) (n.deliver recipients envelope).1 := by
  rw [deliver_eq_handOver]
  exact ⟨handOver_handed n _, rfl⟩

end HandsOver

/-- A socket that takes frames gains the frame, and takes further ones. -/
theorem send_writable {n : Node} {recipient : Connection} (envelope : PulseEventEnvelope)
    (writable : (n.sockets recipient.connectionId).Writable recipient.maxBufferedAmountBytes) :
    (n.send recipient envelope).1.sockets recipient.connectionId =
      { n.sockets recipient.connectionId with
        sent := (n.sockets recipient.connectionId).sent ++ [envelope] } := by
  obtain ⟨hopen, hroom, hsends⟩ := writable
  simp [send, hopen, Nat.not_lt.mpr hroom, hsends]

/-- The frames among these which are for a connection. -/
def framesFor (c : ConnectionId) (frames : List (Connection × PulseEventEnvelope)) :
    List PulseEventEnvelope :=
  (frames.filter fun f => f.1.connectionId = c).map Prod.snd

/-- The sockets that take frames have gained what was handed to their connections. -/
def Reaches (n n' : Node) : Prop :=
  ∀ c, (∀ f ∈ n.handedSince n', f.1.connectionId = c →
      (n.sockets c).Writable f.1.maxBufferedAmountBytes) →
    (n'.sockets c).sent = (n.sockets c).sent ++ framesFor c (n.handedSince n')

theorem handOver_reaches {n : Node} {c : ConnectionId}
    {frames : List (Connection × PulseEventEnvelope)}
    (writable : ∀ f ∈ frames, f.1.connectionId = c →
      (n.sockets c).Writable f.1.maxBufferedAmountBytes) :
    ((n.handOver frames).sockets c).sent = (n.sockets c).sent ++ framesFor c frames := by
  induction frames generalizing n with
  | nil => exact (List.append_nil _).symm
  | cons f frames ih =>
      rw [handOver, List.foldl_cons, ← handOver]
      by_cases hc : f.1.connectionId = c
      · subst hc
        have hsent := send_writable f.2 (writable f List.mem_cons_self rfl)
        rw [ih, hsent, framesFor, framesFor, List.filter_cons_of_pos (by simp), List.map_cons,
          List.append_assoc, List.singleton_append]
        intro f' hf' hc'
        rw [hsent]
        exact writable f' (.tail f hf') hc'
      · have hsame := n.send_socket_other f.2 (Ne.symm hc)
        rw [ih, hsame, framesFor, framesFor, List.filter_cons_of_neg (by simpa using hc)]
        intro f' hf' hc'
        rw [hsame]
        exact writable f' (.tail f hf') hc'

theorem HandsOver.reaches {n n' : Node} {frames : List (Connection × PulseEventEnvelope)}
    (h : HandsOver n frames n') : Reaches n n' := by
  intro c writable
  rw [h.handedSince] at writable ⊢
  rw [h.sockets, handOver_reaches writable]

/-- Closing a socket takes nothing from it. -/
theorem Reaches.closeSocket {n n' : Node} (h : Reaches n n') (connection : Connection)
    (code : Nat) (reason : String) : Reaches n (n'.closeSocket connection code reason) := by
  intro c writable
  rw [handedSince, closeSocket_handed] at writable ⊢
  rw [closeSocket_sent]
  exact h c writable

/-- A reply leaves the sockets of the other connections alone. -/
theorem sendReply_socket_other (n : Node) {sender : Connection}
    (reply : Option PulseEventEnvelope) {c : ConnectionId} (h : c ≠ sender.connectionId) :
    (n.sendReply sender reply).sockets c = n.sockets c := by
  cases reply with
  | none => rfl
  | some envelope => exact send_socket_other n envelope h

theorem closeSocket_socket_other (n : Node) {connection : Connection} (code : Nat)
    (reason : String) {c : ConnectionId} (h : c ≠ connection.connectionId) :
    (n.closeSocket connection code reason).sockets c = n.sockets c := by
  rw [closeSocket]
  split
  · exact Function.update_of_ne h _ _
  · rfl

end Node

/-- Whether the connection is closed behind the reply. -/
def Verdict.isAbusive : Verdict → Bool
  | .refused (.rateLimited abusive) => abusive
  | _ => false

namespace MessageDispatcher

open Node

/-- The reply of the handler for the type of an accepted frame, or of its first piece. -/
def routeReply (cfg : ServerConfig) (n : Node) (sender : Connection)
    (envelope : PulseEventEnvelope) (tick : Tick) : Option PulseEventEnvelope :=
  match envelope.type with
  | .roomJoin => (handleRoomJoin cfg.toConfig n.memberships sender envelope tick.reply).2
  | .roomBatchJoin => (handleRoomBatchJoin cfg.toConfig n.memberships sender envelope tick.reply).2
  | .roomLeave => (handleRoomLeave n.memberships sender envelope tick.reply).2
  | .roomMessage =>
      if envelope.targetRoomId.getD "" ∉ n.memberships.rooms sender.connectionId then
        some (unauthorizedReply envelope tick)
      else some (messageAck n sender envelope tick)
  | .directMessage => some (messageAck n sender envelope tick)
  | .sysPing => some (pongReply cfg envelope tick)
  | _ => none

/-- The reply to a frame with this verdict. -/
def verdictReply (cfg : ServerConfig) (sender : Connection) (tick : Tick) :
    Node × Verdict → Option PulseEventEnvelope
  | (_, .refused reason) => some (refusalReply tick reason)
  | (_, .conflict envelope) => some (conflictReply envelope tick)
  | (_, .replayed envelope cachedAck) => some (replayAck envelope cachedAck)
  | (n, .outOfOrder envelope seq) => some (outOfOrderReply n sender envelope seq tick)
  | (n, .accepted envelope) => routeReply cfg n sender envelope tick

/-- The fan-out of a frame: of the message which it gets accepted. -/
def verdictFanOut (sender : Connection) (admitted : Node × Verdict) :
    List (Connection × PulseEventEnvelope) :=
  match admitted.2.accepted?.filter fun envelope =>
      Deliverable admitted.1.memberships sender envelope with
  | some envelope => (messageRecipients admitted.1 sender envelope).map fun r => (r, envelope)
  | none => []

/-- What is handed over for a frame with this verdict. -/
def verdictHandover (cfg : ServerConfig) (sender : Connection) (tick : Tick)
    (admitted : Node × Verdict) : List (Connection × PulseEventEnvelope) :=
  verdictFanOut sender admitted ++ replyTo sender (verdictReply cfg sender tick admitted)

variable {cfg : ServerConfig} {n : Node} {sender : Connection} {raw : Option Json} {tick : Tick}
variable {envelope : PulseEventEnvelope}

/-- What is fanned out is a message. -/
theorem isMessage_of_mem_fanOut {admitted : Node × Verdict}
    {f : Connection × PulseEventEnvelope} (h : f ∈ verdictFanOut sender admitted) :
    f.2.type.isMessage = true := by
  rw [verdictFanOut] at h
  split at h
  · rename_i envelope haccepted
    obtain ⟨r, -, rfl⟩ := List.mem_map.mp h
    have hdeliverable := (Option.filter_eq_some_iff.mp haccepted).2
    exact (of_decide_eq_true hdeliverable).isMessage
  · cases h

theorem runHandler_handsOver (n : Node) (sender : Connection)
    (result : Memberships × Option PulseEventEnvelope) :
    HandsOver n (replyTo sender result.2) (runHandler n sender result) := by
  rw [runHandler]
  exact (HandsOver.sendReply { n with memberships := result.1 } sender result.2).of_same rfl rfl

/-- Both message handlers end alike. -/
theorem acknowledge_handsOver (cfg : ServerConfig) (n : Node) (recipients : List Connection)
    (sender : Connection) (envelope ack : PulseEventEnvelope) (channel : Channel) (now : Int) :
    HandsOver n ((recipients.map fun r => (r, envelope)) ++ replyTo sender (some ack))
      (acknowledge cfg (n.deliver recipients envelope).1 sender envelope ack channel now) := by
  refine (HandsOver.deliver n recipients envelope).append ?_
  have hreply : HandsOver (n.deliver recipients envelope).1 (replyTo sender (some ack))
      (((n.deliver recipients envelope).1.recordAck cfg envelope ack now).sendReply sender
        (some ack)) :=
    (HandsOver.sendReply _ sender (some ack)).of_same rfl rfl
  exact hreply.to_same (publish_sockets ..) (publish_handed ..)

theorem route_handsOver (cfg : ServerConfig) (n : Node) (sender : Connection)
    (envelope : PulseEventEnvelope) (tick : Tick) :
    HandsOver n ((if Deliverable n.memberships sender envelope then
          (messageRecipients n sender envelope).map fun r => (r, envelope) else []) ++
        replyTo sender (routeReply cfg n sender envelope tick))
      (route cfg n sender envelope tick) := by
  have hhub : (n.memberships.updateSeq sender.connectionId envelope).hub = n.memberships.hub := by
    rw [Memberships.updateSeq]
    split <;> rfl
  let updated : Node :=
    { n with memberships := n.memberships.updateSeq sender.connectionId envelope }
  cases htype : envelope.type with
  | roomMessage =>
      by_cases member : envelope.targetRoomId.getD "" ∈ n.memberships.rooms sender.connectionId
      · have hdeliverable : Deliverable n.memberships sender envelope := Or.inr ⟨htype, member⟩
        simp only [route, htype, handleRoomMessage, member, not_true_eq_false, if_false,
          if_pos hdeliverable, routeReply, messageAck, messageRecipients]
        rw [← roomRecipients_congr (m := updated) hhub]
        exact (acknowledge_handsOver cfg updated _ sender envelope _ _ tick.now).of_same rfl rfl
      · have hdeliverable : ¬ Deliverable n.memberships sender envelope := by
          simp [Deliverable, htype, member]
        simp only [route, htype, handleRoomMessage, member, not_false_eq_true, if_true,
          if_neg hdeliverable, routeReply, List.nil_append]
        exact .sendReply ..
  | directMessage =>
      have hdeliverable : Deliverable n.memberships sender envelope := Or.inl htype
      simp only [route, htype, handleDirectMessage, if_pos hdeliverable, routeReply, messageAck,
        messageRecipients]
      rw [← hhub]
      exact (acknowledge_handsOver cfg updated _ sender envelope _ _ tick.now).of_same rfl rfl
  | sysPing =>
      have hdeliverable : ¬ Deliverable n.memberships sender envelope := by
        simp [Deliverable, htype]
      simp only [route, htype, handlePing, if_neg hdeliverable, routeReply, List.nil_append]
      exact (HandsOver.sendReply updated sender _).of_same rfl rfl
  | roomJoin | roomBatchJoin | roomLeave =>
      have hdeliverable : ¬ Deliverable n.memberships sender envelope := by
        simp [Deliverable, htype]
      simp only [route, htype, if_neg hdeliverable, routeReply, List.nil_append]
      exact runHandler_handsOver ..
  | _ =>
      have hdeliverable : ¬ Deliverable n.memberships sender envelope := by
        simp [Deliverable, htype]
      simp only [route, htype, if_neg hdeliverable, routeReply, List.nil_append]
      exact (HandsOver.refl n).to_same rfl rfl

/-- An admitted frame: what it hands over, and then the closing of an abusive sender. -/
theorem answer_handsOver (cfg : ServerConfig) (sender : Connection) (tick : Tick)
    (admitted : Node × Verdict) :
    ∃ n', HandsOver admitted.1 (verdictHandover cfg sender tick admitted) n' ∧
      answer cfg sender tick admitted =
        if admitted.2.isAbusive then
          n'.closeSocket sender 1008 "Rate limit abuse threshold exceeded"
        else n' := by
  obtain ⟨n, verdict⟩ := admitted
  cases verdict with
  | refused reason =>
      cases reason with
      | rateLimited abusive => exact ⟨_, .sendReply .., rfl⟩
      | invalid error => exact ⟨_, .sendReply .., rfl⟩
  | accepted envelope =>
      refine ⟨_, ?_, rfl⟩
      have hroute := route_handsOver cfg n sender envelope tick
      simp only [verdictHandover, verdictFanOut, Verdict.accepted?, verdictReply]
      by_cases hdeliverable : Deliverable n.memberships sender envelope
      · rw [if_pos hdeliverable] at hroute
        rwa [Option.filter_some_pos (by simpa using hdeliverable)]
      · rw [if_neg hdeliverable] at hroute
        rwa [Option.filter_some_neg (by simpa using hdeliverable)]
  | _ => exact ⟨_, .sendReply .., rfl⟩

/-- What a client frame makes the node hand over. -/
theorem dispatchRawMessage_handsOver (cfg : ServerConfig) (n : Node) (sender : Connection)
    (raw : Option Json) (tick : Tick) :
    ∃ n', HandsOver n (verdictHandover cfg sender tick (judge cfg n sender raw tick)) n' ∧
      dispatchRawMessage cfg n sender raw tick =
        if (judge cfg n sender raw tick).2.isAbusive then
          n'.closeSocket sender 1008 "Rate limit abuse threshold exceeded"
        else n' := by
  obtain ⟨n', hhands, hanswer⟩ := answer_handsOver cfg sender tick (judge cfg n sender raw tick)
  exact ⟨n', hhands.of_same (judge_sockets ..) (judge_handed ..), hanswer⟩

/-- The frames which a client frame makes the node hand over. -/
def frameHandover (cfg : ServerConfig) (n : Node) (sender : Connection) (raw : Option Json)
    (tick : Tick) : List (Connection × PulseEventEnvelope) :=
  n.handedSince (dispatchRawMessage cfg n sender raw tick)

theorem frameHandover_eq (cfg : ServerConfig) (n : Node) (sender : Connection)
    (raw : Option Json) (tick : Tick) :
    frameHandover cfg n sender raw tick =
      verdictHandover cfg sender tick (judge cfg n sender raw tick) := by
  obtain ⟨n', hhands, hdispatch⟩ := dispatchRawMessage_handsOver cfg n sender raw tick
  rw [frameHandover, hdispatch]
  split
  · rw [handedSince, closeSocket_handed]
    exact hhands.handedSince
  · exact hhands.handedSince

theorem dispatchRawMessage_sockets (cfg : ServerConfig) (n : Node) (sender : Connection)
    (raw : Option Json) (tick : Tick) :
    (dispatchRawMessage cfg n sender raw tick).sockets =
      (if (judge cfg n sender raw tick).2.isAbusive then
        (n.handOver (frameHandover cfg n sender raw tick)).closeSocket sender 1008
          "Rate limit abuse threshold exceeded"
      else n.handOver (frameHandover cfg n sender raw tick)).sockets := by
  obtain ⟨n', hhands, hdispatch⟩ := dispatchRawMessage_handsOver cfg n sender raw tick
  rw [frameHandover_eq, hdispatch]
  split
  · exact closeSocket_sockets_congr hhands.sockets sender _ _
  · exact hhands.sockets

theorem dispatchRawMessage_reaches (cfg : ServerConfig) (n : Node) (sender : Connection)
    (raw : Option Json) (tick : Tick) :
    Reaches n (dispatchRawMessage cfg n sender raw tick) := by
  obtain ⟨n', hhands, hdispatch⟩ := dispatchRawMessage_handsOver cfg n sender raw tick
  rw [hdispatch]
  split
  · exact hhands.reaches.closeSocket sender _ _
  · exact hhands.reaches

end MessageDispatcher

namespace Node

open MessageDispatcher

/-- The reply of a handler that goes on. -/
def resumeReply (cfg : ServerConfig) (n : Node) (k : Suspended) (i : Nat)
    (online : Option (List UserId)) (tick : Tick) : Option PulseEventEnvelope :=
  (continueHandler cfg.toConfig { n.memberships with
    suspended := n.memberships.suspended.eraseIdx i } online tick.reply k).2

theorem resume_handsOver (cfg : ServerConfig) (n : Node) (k : Suspended) (i : Nat)
    (online : Option (List UserId)) (tick : Tick) :
    HandsOver n (replyTo k.sender (n.resumeReply cfg k i online tick))
      (n.resume cfg k i online tick) :=
  runHandler_handsOver n k.sender _

/-- The frames which an event makes the node hand over. -/
def handover (cfg : ServerConfig) (n : Node) (e : NodeEvent) :
    List (Connection × PulseEventEnvelope) :=
  (n.step cfg e).elim [] n.handedSince

end Node

end Pulse
