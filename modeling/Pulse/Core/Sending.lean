import Pulse.Core.Acceptance
import Pulse.Core.Agreement

/-!
# What an event sends

An accepted message goes to its recipients, each once, and is acknowledged to its
sender. Whatever else a frame sends is a reply to its own connection; `Reply` lists
them. An event of another node goes to local recipients only. A send can fail, so
each connection gets a selection of the frames meant for it.
-/

namespace Pulse

open Collections Js

namespace Socket

/-- The sockets of `s'` were sent a selection of the frames for their connection since `s`. -/
def Sends (frames : ConnectionId → List PulseEventEnvelope) (s s' : ConnectionId → Socket) :
    Prop :=
  ∀ c, ∃ l, l.Sublist (frames c) ∧ (s' c).sent = (s c).sent ++ l

/-- The socket takes frames. -/
def Writable (s : Socket) (maxBufferedAmountBytes : Nat) : Prop :=
  s.readyState = .open ∧ s.bufferedAmount ≤ maxBufferedAmountBytes ∧ s.sendFails = false

instance (s : Socket) (maxBufferedAmountBytes : Nat) :
    Decidable (s.Writable maxBufferedAmountBytes) :=
  inferInstanceAs (Decidable (_ ∧ _ ∧ _))

/-- Frames for one connection. -/
def framesTo (connectionId : ConnectionId) (frames : List PulseEventEnvelope) :
    ConnectionId → List PulseEventEnvelope :=
  fun c => if c = connectionId then frames else []

/-- One frame for each of several connections. -/
def framesToAll (connectionIds : List ConnectionId) (envelope : PulseEventEnvelope) :
    ConnectionId → List PulseEventEnvelope :=
  fun c => if c ∈ connectionIds then [envelope] else []

variable {frames frames' : ConnectionId → List PulseEventEnvelope}
variable {s s' s'' : ConnectionId → Socket}

theorem mem_framesTo {connectionId c : ConnectionId} {f f' : PulseEventEnvelope} :
    f ∈ framesTo connectionId [f'] c ↔ c = connectionId ∧ f = f' := by
  rw [framesTo]
  split
  · rename_i hc
    simp [hc]
  · rename_i hc
    simp [hc]

theorem mem_framesToAll {recipients : List ConnectionId} {c : ConnectionId}
    {f f' : PulseEventEnvelope} :
    f ∈ framesToAll recipients f' c ↔ c ∈ recipients ∧ f = f' := by
  rw [framesToAll]
  split
  · rename_i hc
    simp [hc]
  · rename_i hc
    simp [hc]

theorem Sends.refl (frames : ConnectionId → List PulseEventEnvelope)
    (s : ConnectionId → Socket) : Sends frames s s :=
  fun _ => ⟨[], List.nil_sublist _, (List.append_nil _).symm⟩

theorem Sends.trans (h : Sends frames s s') (h' : Sends frames' s' s'') :
    Sends (fun c => frames c ++ frames' c) s s'' := by
  intro c
  obtain ⟨l, hl, hsent⟩ := h c
  obtain ⟨l', hl', hsent'⟩ := h' c
  exact ⟨l ++ l', hl.append hl', by rw [hsent', hsent, List.append_assoc]⟩

theorem Sends.mono (h : Sends frames s s') (le : ∀ c, (frames c).Sublist (frames' c)) :
    Sends frames' s s' := by
  intro c
  obtain ⟨l, hl, hsent⟩ := h c
  exact ⟨l, hl.trans (le c), hsent⟩

theorem Sends.of_sent_eq (h : ∀ c, (s' c).sent = (s c).sent) : Sends frames s s' :=
  fun c => ⟨[], List.nil_sublist _, by rw [h c, List.append_nil]⟩

/-- Frames that are sent before and after, the second time to nobody. -/
theorem Sends.trans_of_sent_eq (h : Sends frames s s') (h' : ∀ c, (s'' c).sent = (s' c).sent) :
    Sends frames s s'' := by
  intro c
  obtain ⟨l, hl, hsent⟩ := h c
  exact ⟨l, hl, (h' c).trans hsent⟩

end Socket

namespace Node

open Socket

theorem closeSocket_sent (n : Node) (connection : Connection) (code : Nat) (reason : String)
    (c : ConnectionId) :
    ((n.closeSocket connection code reason).sockets c).sent = (n.sockets c).sent := by
  rw [closeSocket]
  split
  · by_cases hc : c = connection.connectionId <;> simp [hc]
  · rfl

theorem send_sends (n : Node) (recipient : Connection) (envelope : PulseEventEnvelope) :
    Sends (framesTo recipient.connectionId [envelope]) n.sockets
      (n.send recipient envelope).1.sockets := by
  simp only [send]
  split_ifs
  · exact .refl _ _
  · exact .of_sent_eq fun c => closeSocket_sent _ recipient _ _ c
  · exact .refl _ _
  · intro c
    by_cases hc : c = recipient.connectionId
    · exact ⟨[envelope], by simp [framesTo, hc], by simp [hc]⟩
    · exact ⟨[], List.nil_sublist _, by simp [hc]⟩

theorem deliver_eq_foldl (n : Node) (recipients : List Connection)
    (envelope : PulseEventEnvelope) :
    (n.deliver recipients envelope).1 =
      recipients.foldl (fun n recipient => (n.send recipient envelope).1) n := by
  have hfold : ∀ (rs : List Connection) (acc : Node × Nat),
      (rs.foldl (fun acc recipient => ((acc.1.send recipient envelope).1,
        if (acc.1.send recipient envelope).2 then acc.2 + 1 else acc.2)) acc).1 =
        rs.foldl (fun n recipient => (n.send recipient envelope).1) acc.1 := by
    intro rs
    induction rs with
    | nil => exact fun _ => rfl
    | cons r rs ih => exact fun acc => ih _
  exact hfold recipients (n, 0)

/-- Recipients with distinct ids are sent the envelope at most once each. -/
theorem deliver_sends {recipients : List Connection}
    (distinct : (recipients.map (·.connectionId)).Nodup) (n : Node)
    (envelope : PulseEventEnvelope) :
    Sends (framesToAll (recipients.map (·.connectionId)) envelope) n.sockets
      (n.deliver recipients envelope).1.sockets := by
  rw [deliver_eq_foldl]
  induction recipients generalizing n with
  | nil => exact .refl _ _
  | cons r rs ih =>
      rw [List.map_cons, List.nodup_cons] at distinct
      refine ((send_sends n r envelope).trans (ih distinct.2 _)).mono ?_
      intro c
      by_cases hc : c = r.connectionId
      · subst hc
        simp [framesTo, framesToAll, distinct.1]
      · simp [framesTo, framesToAll, hc]

/-- Sending to one connection leaves the sockets of the others as they are. -/
theorem send_socket_other (n : Node) {recipient : Connection} (envelope : PulseEventEnvelope)
    {c : ConnectionId} (h : c ≠ recipient.connectionId) :
    (n.send recipient envelope).1.sockets c = n.sockets c := by
  simp only [send, closeSocket]
  split_ifs <;> simp [h]

theorem deliver_socket_other {recipients : List Connection} {envelope : PulseEventEnvelope}
    {c : ConnectionId} (h : ∀ r ∈ recipients, c ≠ r.connectionId) (n : Node) :
    (n.deliver recipients envelope).1.sockets c = n.sockets c := by
  refine (deliver_eq_foldl n recipients envelope).symm ▸ ?_
  induction recipients generalizing n with
  | nil => rfl
  | cons r rs ih =>
      rw [List.foldl_cons, ih (fun r' hr' => h r' (.tail r hr')),
        send_socket_other _ _ (h r List.mem_cons_self)]

/-- A recipient whose socket takes frames is sent the envelope. -/
theorem deliver_reaches {recipients : List Connection}
    (distinct : (recipients.map (·.connectionId)).Nodup) {recipient : Connection}
    (mem : recipient ∈ recipients) {n : Node} (envelope : PulseEventEnvelope)
    (writable : (n.sockets recipient.connectionId).Writable recipient.maxBufferedAmountBytes) :
    ((n.deliver recipients envelope).1.sockets recipient.connectionId).sent =
      (n.sockets recipient.connectionId).sent ++ [envelope] := by
  rw [deliver_eq_foldl]
  induction recipients generalizing n with
  | nil => cases mem
  | cons r rs ih =>
      rw [List.map_cons, List.nodup_cons] at distinct
      rw [List.foldl_cons]
      rcases List.mem_cons.mp mem with rfl | hmem
      · have hrest : ∀ r ∈ rs, recipient.connectionId ≠ r.connectionId := fun r hr heq =>
          distinct.1 (heq ▸ List.mem_map_of_mem hr)
        rw [← deliver_eq_foldl, deliver_socket_other hrest]
        obtain ⟨hopen, hroom, hsends⟩ := writable
        simp [send, hopen, Nat.not_lt.mpr hroom, hsends]
      · have hne : recipient.connectionId ≠ r.connectionId := fun heq =>
          distinct.1 (heq ▸ List.mem_map_of_mem hmem)
        have hsame := n.send_socket_other envelope hne
        rw [ih distinct.2 hmem (by rw [hsame]; exact writable), hsame]

theorem sendReply_sends (n : Node) (sender : Connection) (reply : Option PulseEventEnvelope) :
    Sends (framesTo sender.connectionId reply.toList) n.sockets
      (n.sendReply sender reply).sockets := by
  cases reply with
  | none => exact .refl _ _
  | some envelope => exact send_sends n sender envelope

@[simp] theorem recordAck_sockets (cfg : ServerConfig) (n : Node)
    (envelope ack : PulseEventEnvelope) (now : Int) :
    (n.recordAck cfg envelope ack now).sockets = n.sockets := rfl

@[simp] theorem publish_sockets (cfg : ServerConfig) (n : Node) (channel : Channel)
    (envelope : PulseEventEnvelope) (now : Int) :
    (n.publish cfg channel envelope now).sockets = n.sockets := by
  rw [publish]
  split
  · rfl
  · split
    · split <;> rfl
    · rfl

@[simp] theorem publish_handed (cfg : ServerConfig) (n : Node) (channel : Channel)
    (envelope : PulseEventEnvelope) (now : Int) :
    (n.publish cfg channel envelope now).handed = n.handed := by
  rw [publish]
  split
  · rfl
  · split
    · split <;> rfl
    · rfl

end Node

namespace Memberships.WellFormed

variable {m : Memberships}

/-- Registered connections found under distinct ids are distinct. -/
theorem nodup_registered (h : m.WellFormed) {ids : List ConnectionId} (nodup : ids.Nodup) :
    ((ids.filterMap m.hub.connectionManager.getConnection).map (·.connectionId)).Nodup := by
  have hsublist : ∀ l : List ConnectionId,
      ((l.filterMap m.hub.connectionManager.getConnection).map (·.connectionId)).Sublist l := by
    intro l
    induction l with
    | nil => exact List.Sublist.slnil
    | cons c l ih =>
        cases hc : m.hub.connectionManager.getConnection c with
        | none =>
            rw [List.filterMap_cons_none hc]
            exact ih.cons c
        | some connection =>
            rw [List.filterMap_cons_some hc, List.map_cons, h.indexed.id_eq c connection hc]
            exact ih.cons_cons c
  exact nodup.sublist (hsublist ids)

end Memberships.WellFormed

namespace MessageDispatcher

open Socket

/-- The types of the frames with which the room handlers reply. -/
def roomReplyTypes : List EventType := [.sysError, .roomJoinAck, .roomBatchJoinAck, .roomLeaveAck]

/-- A piece of a room handler replies to the handler's own request, if at all. -/
def RepliesTo (envelope : PulseEventEnvelope)
    (result : Memberships × Option PulseEventEnvelope) : Prop :=
  ∀ reply, result.2 = some reply →
    reply.type ∈ roomReplyTypes ∧ reply.correlationId = some envelope.replyCorrelationId

section room

variable (cfg : Config) (m : Memberships) (sender : Connection) (envelope : PulseEventEnvelope)
variable (fresh : Fresh)

theorem repliesTo_none (m : Memberships) : RepliesTo envelope (m, none) := by
  intro reply h
  cases h

theorem repliesTo_systemReply {type : EventType} (htype : type ∈ roomReplyTypes)
    (target : Option EventTarget) (payload : Fields) :
    RepliesTo envelope (m, some (systemReply envelope type target payload fresh)) := by
  intro reply h
  cases h
  exact ⟨htype, rfl⟩

theorem roomJoinAdded_replies (roomId : RoomId) :
    RepliesTo envelope (roomJoinAdded m sender envelope roomId fresh) := by
  simp only [roomJoinAdded]
  split
  · exact repliesTo_none envelope _
  · exact repliesTo_systemReply _ envelope fresh (by decide) _ _

theorem handleRoomJoin_replies :
    RepliesTo envelope (handleRoomJoin cfg m sender envelope fresh) := by
  simp only [handleRoomJoin]
  split
  · exact repliesTo_systemReply _ envelope fresh (by decide) _ _
  · split
    · exact repliesTo_systemReply _ envelope fresh (by decide) _ _
    · split
      · exact repliesTo_none envelope _
      · exact roomJoinAdded_replies _ sender envelope fresh _

theorem batchJoinDone_replies (joinedRooms : List RoomId) :
    RepliesTo envelope (batchJoinDone m sender envelope joinedRooms fresh) :=
  repliesTo_systemReply _ envelope fresh (by decide) _ _

theorem batchJoinLoop_replies (currentCount : Nat) (entries : List Json)
    (joinedRooms : List RoomId) (newlyAdded : Nat) :
    RepliesTo envelope (batchJoinLoop cfg sender envelope currentCount fresh entries m joinedRooms
      newlyAdded) := by
  induction entries generalizing m joinedRooms newlyAdded with
  | nil => exact batchJoinDone_replies m sender envelope fresh joinedRooms
  | cons entry rest ih =>
      simp only [batchJoinLoop]
      split
      · exact ih m joinedRooms newlyAdded
      · split
        · exact batchJoinDone_replies m sender envelope fresh joinedRooms
        · split
          · exact repliesTo_none envelope _
          · exact ih _ _ _

theorem handleRoomBatchJoin_replies :
    RepliesTo envelope (handleRoomBatchJoin cfg m sender envelope fresh) := by
  simp only [handleRoomBatchJoin]
  split
  · split
    · exact repliesTo_systemReply _ envelope fresh (by decide) _ _
    · exact batchJoinLoop_replies cfg m sender envelope fresh _ _ _ _
  · exact repliesTo_none envelope m

theorem handleRoomLeave_replies :
    RepliesTo envelope (handleRoomLeave m sender envelope fresh) := by
  simp only [handleRoomLeave]
  split
  · exact repliesTo_none envelope _
  · exact repliesTo_systemReply _ envelope fresh (by decide) _ _

theorem continueHandler_replies (online : Option (List UserId)) (k : Suspended) :
    RepliesTo k.envelope (continueHandler cfg m online fresh k) := by
  cases k with
  | addRoomMember sender envelope roomId =>
      exact roomJoinAdded_replies m sender envelope fresh roomId
  | getRoomRoster sender envelope roomId =>
      exact repliesTo_systemReply m envelope fresh (by decide) _ _
  | batchAddRoomMember sender envelope batch =>
      exact batchJoinLoop_replies cfg m sender envelope fresh _ _ _ _
  | removeRoomMember sender envelope roomId =>
      exact repliesTo_systemReply _ envelope fresh (by decide) _ _

end room

/-- The reply to a frame which is no accepted message. -/
inductive Reply (cfg : ServerConfig) (n : Node) (sender : Connection) (raw : Option Json)
    (tick : Tick) : PulseEventEnvelope → Prop
  | system (reply : PulseEventEnvelope) (type : reply.type = .sysError ∨ reply.type = .sysPong) :
      Reply cfg n sender raw tick reply
  | replayed (envelope cachedAck : PulseEventEnvelope)
      (verdict : (judge cfg n sender raw tick).2 = .replayed envelope cachedAck) :
      Reply cfg n sender raw tick (replayAck envelope cachedAck)
  | room (reply envelope : PulseEventEnvelope)
      (verdict : (judge cfg n sender raw tick).2 = .accepted envelope)
      (request : envelope.type.isMessage = false) (type : reply.type ∈ roomReplyTypes)
      (correlation : reply.correlationId = some envelope.replyCorrelationId) :
      Reply cfg n sender raw tick reply

theorem reply_of_runHandler {cfg : ServerConfig} {n₀ n : Node} {sender : Connection}
    {raw : Option Json} {tick : Tick} {envelope : PulseEventEnvelope}
    (verdict : (judge cfg n₀ sender raw tick).2 = .accepted envelope)
    (request : envelope.type.isMessage = false)
    {result : Memberships × Option PulseEventEnvelope} (replies : RepliesTo envelope result) :
    ∃ reply : Option PulseEventEnvelope,
      (∀ r, reply = some r → Reply cfg n₀ sender raw tick r) ∧
        Sends (framesTo sender.connectionId reply.toList) n.sockets
          (runHandler n sender result).sockets := by
  refine ⟨result.2, ?_, ?_⟩
  · intro r hr
    obtain ⟨htype, hcorrelation⟩ := replies r hr
    exact .room r envelope verdict request htype hcorrelation
  · exact Node.sendReply_sends { n with memberships := result.1 } sender result.2

/-- An accepted message goes to distinct recipients, and its acknowledgement to the sender. -/
theorem acknowledge_sends (cfg : ServerConfig) (n : Node) (recipients : List Connection)
    (distinct : (recipients.map (·.connectionId)).Nodup) (sender : Connection)
    (envelope ack : PulseEventEnvelope) (channel : Channel) (now : Int) :
    Sends (fun c => framesToAll (recipients.map (·.connectionId)) envelope c ++
        framesTo sender.connectionId [ack] c) n.sockets
      (acknowledge cfg (n.deliver recipients envelope).1 sender envelope ack channel
        now).sockets := by
  refine (Node.deliver_sends distinct n envelope).trans ?_
  simp only [acknowledge, Node.publish_sockets]
  exact Node.sendReply_sends _ sender (some ack)

variable {cfg : ServerConfig} {n : Node} {sender : Connection} {raw : Option Json} {tick : Tick}
variable {envelope : PulseEventEnvelope}

theorem roomRecipients_congr {n m : Node} (h : m.memberships.hub = n.memberships.hub)
    (roomId : RoomId) (c : ConnectionId) :
    roomRecipients m roomId c = roomRecipients n roomId c := by
  have hget : m.getConnection = n.getConnection := by
    funext c'
    rw [Node.getConnection, h]
    rfl
  rw [roomRecipients, roomRecipients, h, hget]

theorem roomRecipients_distinct (wf : n.memberships.WellFormed) (roomId : RoomId)
    (c : ConnectionId) :
    ((roomRecipients n roomId c).map (·.connectionId)).Nodup :=
  wf.nodup_registered
    ((n.memberships.hub.roomManager.members roomId).nodup.filter fun c' => decide (c' ≠ c))

/-- The connections to which a node sends an accepted message. -/
def messageRecipients (n : Node) (sender : Connection) (envelope : PulseEventEnvelope) :
    List Connection :=
  match envelope.type with
  | .directMessage =>
      n.memberships.hub.connectionManager.getConnectionsByUserId
        (envelope.targetRecipientId.getD "")
  | _ => roomRecipients n (envelope.targetRoomId.getD "") sender.connectionId

theorem messageRecipients_distinct (wf : n.memberships.WellFormed) (sender : Connection)
    (envelope : PulseEventEnvelope) :
    ((messageRecipients n sender envelope).map (·.connectionId)).Nodup := by
  rw [messageRecipients]
  split
  · exact wf.nodup_registered
      (n.memberships.hub.connectionManager.userConns (envelope.targetRecipientId.getD "")).nodup
  · exact roomRecipients_distinct wf _ _

theorem messageRecipients_congr {n n' : Node} (h : n'.memberships.hub = n.memberships.hub)
    (sender : Connection) (envelope : PulseEventEnvelope) :
    messageRecipients n' sender envelope = messageRecipients n sender envelope := by
  rw [messageRecipients, messageRecipients, h, roomRecipients_congr h]

theorem fanOut_sends (cfg : ServerConfig) (tick : Tick) (wf : n.memberships.WellFormed)
    (deliverable : Deliverable n.memberships sender envelope) :
    Sends (fun c => framesToAll ((messageRecipients n sender envelope).map (·.connectionId))
          envelope c ++
        framesTo sender.connectionId [messageAck n sender envelope tick] c) n.sockets
      (route cfg n sender envelope tick).sockets := by
  have distinct := messageRecipients_distinct wf sender envelope
  have hhub : (n.memberships.updateSeq sender.connectionId envelope).hub = n.memberships.hub := by
    rw [Memberships.updateSeq]
    split <;> rfl
  have hsends := fun recipients distinct ack channel => acknowledge_sends cfg
    { n with memberships := n.memberships.updateSeq sender.connectionId envelope } recipients
    distinct sender envelope ack channel tick.now
  rcases deliverable with htype | ⟨htype, member⟩
  · simp only [messageRecipients, htype] at distinct ⊢
    rw [← hhub] at distinct ⊢
    simp only [route, htype, handleDirectMessage, messageAck, fanOutDirectMessage]
    exact hsends _ distinct _ _
  · simp only [messageRecipients, htype] at distinct ⊢
    rw [← roomRecipients_congr (m := { n with
      memberships := n.memberships.updateSeq sender.connectionId envelope }) hhub] at distinct ⊢
    simp only [route, htype, handleRoomMessage, member, not_true_eq_false, if_false, messageAck,
      fanOutRoomMessage]
    exact hsends _ distinct _ _

/-- An accepted frame that is no accepted message is answered on its own connection. -/
theorem route_replies {n₀ : Node}
    (verdict : (judge cfg n₀ sender raw tick).2 = .accepted envelope)
    (refused : ¬ Deliverable n.memberships sender envelope) :
    ∃ reply : Option PulseEventEnvelope,
      (∀ r, reply = some r → Reply cfg n₀ sender raw tick r) ∧
        Sends (framesTo sender.connectionId reply.toList) n.sockets
          (route cfg n sender envelope tick).sockets := by
  have hsilent : ∃ reply : Option PulseEventEnvelope,
      (∀ r, reply = some r → Reply cfg n₀ sender raw tick r) ∧
        Sends (framesTo sender.connectionId reply.toList) n.sockets n.sockets :=
    ⟨none, fun r hr => (by cases hr), .refl _ _⟩
  cases htype : envelope.type with
  | roomJoin =>
      simp only [route, htype]
      exact reply_of_runHandler verdict (by rw [htype]; rfl)
        (handleRoomJoin_replies cfg.toConfig n.memberships sender envelope tick.reply)
  | roomBatchJoin =>
      simp only [route, htype]
      exact reply_of_runHandler verdict (by rw [htype]; rfl)
        (handleRoomBatchJoin_replies cfg.toConfig n.memberships sender envelope tick.reply)
  | roomLeave =>
      simp only [route, htype]
      exact reply_of_runHandler verdict (by rw [htype]; rfl)
        (handleRoomLeave_replies n.memberships sender envelope tick.reply)
  | roomMessage =>
      have member : envelope.targetRoomId.getD "" ∉ n.memberships.rooms sender.connectionId :=
        fun member => refused (Or.inr ⟨htype, member⟩)
      simp only [route, htype, handleRoomMessage, member, not_false_eq_true, if_true]
      refine ⟨_, ?_, Node.sendReply_sends n sender _⟩
      intro r hr
      cases hr
      exact .system _ (Or.inl rfl)
  | directMessage => exact absurd (Or.inl htype) refused
  | sysPing =>
      simp only [route, htype, handlePing]
      refine ⟨_, ?_, Node.sendReply_sends { n with
        memberships := n.memberships.updateSeq sender.connectionId envelope } sender _⟩
      intro r hr
      cases hr
      exact .system _ (Or.inr rfl)
  | _ =>
      simp only [route, htype]
      exact hsilent

/-- What an admitted frame sends when it is no accepted message. -/
theorem answer_replies (admitted : Node × Verdict)
    (verdict : admitted.2 = (judge cfg n sender raw tick).2)
    (refused : ∀ envelope, admitted.2 = .accepted envelope →
      ¬ Deliverable admitted.1.memberships sender envelope) :
    ∃ reply : Option PulseEventEnvelope,
      (∀ r, reply = some r → Reply cfg n sender raw tick r) ∧
        Sends (framesTo sender.connectionId reply.toList) admitted.1.sockets
          (answer cfg sender tick admitted).sockets := by
  obtain ⟨n₁, v⟩ := admitted
  have herror : ∀ reply : PulseEventEnvelope, reply.type = .sysError →
      ∀ r, some reply = some r → Reply cfg n sender raw tick r := by
    intro reply htype r hr
    cases hr
    exact .system _ (Or.inl htype)
  cases v with
  | refused reason =>
      cases reason with
      | rateLimited abusive =>
          simp only [answer]
          split
          · exact ⟨_, herror _ rfl, (Node.sendReply_sends n₁ sender _).trans_of_sent_eq
              (Node.closeSocket_sent _ sender _ _)⟩
          · exact ⟨_, herror _ rfl, Node.sendReply_sends n₁ sender _⟩
      | invalid error => exact ⟨_, herror _ rfl, Node.sendReply_sends n₁ sender _⟩
  | conflict envelope => exact ⟨_, herror _ rfl, Node.sendReply_sends n₁ sender _⟩
  | replayed envelope cachedAck =>
      refine ⟨_, ?_, Node.sendReply_sends n₁ sender _⟩
      intro r hr
      cases hr
      exact .replayed envelope cachedAck verdict.symm
  | outOfOrder envelope seq => exact ⟨_, herror _ rfl, Node.sendReply_sends n₁ sender _⟩
  | accepted envelope => exact route_replies verdict.symm (refused envelope rfl)

@[simp] theorem judge_sockets (cfg : ServerConfig) (n : Node) (sender : Connection)
    (raw : Option Json) (tick : Tick) : (judge cfg n sender raw tick).1.sockets = n.sockets := by
  rw [judge]
  cases hreceive : receive n sender raw tick with
  | mk n₁ received =>
      have hsockets : n₁.sockets = n.sockets := by
        rw [← receive_sockets n sender raw tick, hreceive]
      cases received with
      | error reason => exact hsockets
      | ok envelope =>
          rw [checkReceived, checkMessage_node]
          split <;> exact hsockets

@[simp] theorem judge_handed (cfg : ServerConfig) (n : Node) (sender : Connection)
    (raw : Option Json) (tick : Tick) : (judge cfg n sender raw tick).1.handed = n.handed := by
  rw [judge]
  cases hreceive : receive n sender raw tick with
  | mk n₁ received =>
      have hhanded : n₁.handed = n.handed := by
        rw [← receive_handed n sender raw tick, hreceive]
      cases received with
      | error reason => exact hhanded
      | ok envelope =>
          rw [checkReceived, checkMessage_node]
          split <;> exact hhanded

/-- A frame with an accepted message: its fan-out and its acknowledgement. -/
theorem dispatchRawMessage_sends (wf : n.memberships.WellFormed)
    (h : acceptedMessage cfg n sender raw tick = some envelope) :
    Sends (fun c => framesToAll ((messageRecipients n sender envelope).map (·.connectionId))
          envelope c ++
        framesTo sender.connectionId
          [messageAck (judge cfg n sender raw tick).1 sender envelope tick] c) n.sockets
      (dispatchRawMessage cfg n sender raw tick).sockets := by
  obtain ⟨hverdict, hdeliverable⟩ := acceptedMessage_eq_some.mp h
  have hmemberships := judge_memberships cfg n sender raw tick
  rw [dispatchRawMessage_accepted hverdict]
  rw [← hmemberships] at wf hdeliverable
  have hsends := fanOut_sends cfg tick wf hdeliverable
  rwa [judge_sockets, messageRecipients_congr (congrArg Memberships.hub hmemberships)] at hsends

/-- Any other frame: at most a reply. -/
theorem dispatchRawMessage_replies (h : acceptedMessage cfg n sender raw tick = none) :
    ∃ reply : Option PulseEventEnvelope,
      (∀ r, reply = some r → Reply cfg n sender raw tick r) ∧
        Sends (framesTo sender.connectionId reply.toList) n.sockets
          (dispatchRawMessage cfg n sender raw tick).sockets := by
  have hreplies := answer_replies (judge cfg n sender raw tick) rfl fun envelope hverdict => by
    rw [judge_memberships]
    intro hdeliverable
    rw [acceptedMessage_eq_some.mpr ⟨hverdict, hdeliverable⟩] at h
    cases h
  rwa [judge_sockets] at hreplies

/-- The types of the events which a node delivers for other nodes. -/
def inboundTypes : List EventType := [.roomMessage, .directMessage, .presenceUpdate]

/-- A message of another node is for the connection: in its room, or of its user. -/
def Addressed (n : Node) (channel : Channel) (envelope : PulseEventEnvelope)
    (c : ConnectionId) : Prop :=
  match envelope.type with
  | .roomMessage =>
      ∃ roomId connection, orElse envelope.targetRoomId (extractRoomId channel) = some roomId ∧
        n.getConnection c = some connection ∧ c ∈ n.memberships.hub.roomManager.members roomId
  | .directMessage =>
      ∃ recipientId connection,
        orElse envelope.targetRecipientId (extractUserId channel) = some recipientId ∧
        n.getConnection c = some connection ∧ connection.userId = recipientId
  | _ => True

/-- An event of another node goes to distinct local connections for which it is, if its type
is delivered at all. -/
theorem deliverInbound_sends (wf : n.memberships.WellFormed) (channel : Channel)
    (envelope : PulseEventEnvelope) :
    ∃ recipients : List ConnectionId, recipients.Nodup ∧
      (∀ c ∈ recipients, Addressed n channel envelope c) ∧
      (recipients = [] ∨ envelope.type ∈ inboundTypes) ∧
      Sends (framesToAll recipients envelope) n.sockets
        (deliverInbound n channel envelope).1.sockets := by
  have hnobody : ∃ recipients : List ConnectionId, recipients.Nodup ∧
      (∀ c ∈ recipients, Addressed n channel envelope c) ∧
      (recipients = [] ∨ envelope.type ∈ inboundTypes) ∧
      Sends (framesToAll recipients envelope) n.sockets n.sockets :=
    ⟨[], List.nodup_nil, fun _ h => absurd h List.not_mem_nil, Or.inl rfl, .refl _ _⟩
  rw [deliverInbound]
  split
  · rename_i htype
    split
    · exact hnobody
    · rename_i roomId hroom
      split
      · exact hnobody
      · have distinct := wf.nodup_registered (n.memberships.hub.roomManager.members roomId).nodup
        refine ⟨_, distinct, ?_, Or.inr (by rw [htype]; decide),
          Node.deliver_sends distinct n envelope⟩
        intro c hc
        obtain ⟨connection, hmem, rfl⟩ := List.mem_map.mp hc
        obtain ⟨c, hmember, hregistered⟩ := List.mem_filterMap.mp hmem
        rw [wf.indexed.id_eq c connection hregistered, Addressed, htype]
        exact ⟨roomId, connection, hroom, hregistered, hmember⟩
  · rename_i htype
    split
    · exact hnobody
    · rename_i recipientId hrecipient
      split
      · exact hnobody
      · have distinct := wf.nodup_registered
          (n.memberships.hub.connectionManager.userConns recipientId).nodup
        refine ⟨_, distinct, ?_, Or.inr (by rw [htype]; decide),
          Node.deliver_sends distinct n envelope⟩
        intro c hc
        obtain ⟨connection, hmem, rfl⟩ := List.mem_map.mp hc
        obtain ⟨hregistered, huser⟩ := wf.indexed.mem_getConnectionsByUserId.mp hmem
        rw [Addressed, htype]
        exact ⟨recipientId, connection, hrecipient, hregistered, huser⟩
  · rename_i htype
    have hdelivered : envelope.type ∈ inboundTypes := by
      rw [htype]
      decide
    have haddressed : ∀ recipients : List ConnectionId, ∀ c ∈ recipients,
        Addressed n channel envelope c := by
      intro recipients c _
      rw [Addressed, htype]
      trivial
    rw [handleInboundPresence]
    split
    · rename_i userId status _ _
      split
      · exact hnobody
      · split
        · exact hnobody
        · have distinct : ∀ hintRooms, ((((presenceTargets n.memberships userId
              hintRooms).toList.filterMap n.getConnection).filter fun c =>
                c.userId ≠ "" ∧ c.userId ≠ "anonymous").map (·.connectionId)).Nodup :=
            fun hintRooms =>
              (wf.nodup_registered (presenceTargets n.memberships userId hintRooms).nodup).sublist
                (List.filter_sublist.map Connection.connectionId)
          simp only [deliverRoomScopedPresence]
          split
          · exact ⟨_, distinct _, haddressed _, Or.inr hdelivered,
              Node.deliver_sends (distinct _) _ envelope⟩
          · exact ⟨_, distinct _, haddressed _, Or.inr hdelivered,
              Node.deliver_sends (distinct _) _ envelope⟩
    · exact hnobody
  · exact hnobody

end MessageDispatcher

namespace Node

open MessageDispatcher Socket

/-- The frames for each connection, by the kind of event. -/
inductive Outgoing (cfg : ServerConfig) (n : Node) :
    NodeEvent → (ConnectionId → List PulseEventEnvelope) → Prop
  | silent (e : NodeEvent) : Outgoing cfg n e fun _ => []
  | greeting (connection : Connection) (tick : Tick) :
      Outgoing cfg n (.connect connection tick)
        (framesTo connection.connectionId [connectAck cfg connection tick])
  | accepted {connectionId : ConnectionId} {sender : Connection} {raw : Option Json} {tick : Tick}
      {envelope : PulseEventEnvelope} {recipients : List ConnectionId}
      (registered : n.getConnection connectionId = some sender)
      (message : acceptedMessage cfg n sender raw tick = some envelope)
      (distinct : recipients.Nodup) :
      Outgoing cfg n (.frame connectionId raw tick) fun c =>
        framesToAll recipients envelope c ++ framesTo connectionId
          [messageAck (judge cfg n sender raw tick).1 sender envelope tick] c
  | replied {connectionId : ConnectionId} {sender : Connection} {raw : Option Json} {tick : Tick}
      {reply : PulseEventEnvelope} (registered : n.getConnection connectionId = some sender)
      (isReply : Reply cfg n sender raw tick reply) :
      Outgoing cfg n (.frame connectionId raw tick) (framesTo connectionId [reply])
  | resumed {i : Nat} {online : Option (List UserId)} {tick : Tick} {k : Suspended}
      {reply : PulseEventEnvelope} (suspended : n.memberships.suspended[i]? = some k)
      (type : reply.type ∈ roomReplyTypes)
      (correlation : reply.correlationId = some k.envelope.replyCorrelationId) :
      Outgoing cfg n (.resume i online tick) (framesTo k.sender.connectionId [reply])
  | inbound {channel : Channel} {raw : Option Json} {tick : Tick} {envelope : PulseEventEnvelope}
      {recipients : List ConnectionId} (event : foreignEvent cfg raw tick = some envelope)
      (new : ¬ n.idempotencyManager.Hits cfg.idempotency envelope.eventId tick.now)
      (type : envelope.type ∈ inboundTypes) (distinct : recipients.Nodup) :
      Outgoing cfg n (.redisMessage channel raw tick) (framesToAll recipients envelope)

/-- The sockets when an event begins: a new connection comes with a new one. -/
def socketsAt (n : Node) : NodeEvent → ConnectionId → Socket
  | .connect connection _ => Function.update n.sockets connection.connectionId {}
  | _ => n.sockets

variable {cfg : ServerConfig} {n n' : Node} {e : NodeEvent}

theorem frame_sends (wf : n.memberships.WellFormed) {connectionId : ConnectionId}
    {sender : Connection} (registered : n.getConnection connectionId = some sender)
    (raw : Option Json) (tick : Tick) :
    ∃ frames, Outgoing cfg n (.frame connectionId raw tick) frames ∧
      Sends frames n.sockets (dispatchRawMessage cfg n sender raw tick).sockets := by
  have hid := (wf.registered registered).1
  cases hmessage : acceptedMessage cfg n sender raw tick with
  | some envelope =>
      have hsends := dispatchRawMessage_sends wf hmessage
      rw [hid] at hsends
      exact ⟨_, .accepted registered hmessage (messageRecipients_distinct wf sender envelope),
        hsends⟩
  | none =>
      obtain ⟨reply, hreply, hsends⟩ := dispatchRawMessage_replies hmessage
      rw [hid] at hsends
      cases reply with
      | none =>
          refine ⟨_, .silent _, hsends.mono fun c => ?_⟩
          simp [framesTo]
      | some r => exact ⟨_, .replied registered (hreply r rfl), hsends⟩

theorem redisMessage_sends (wf : n.memberships.WellFormed) (channel : Channel)
    (raw : Option Json) (tick : Tick) :
    ∃ frames, Outgoing cfg n (.redisMessage channel raw tick) frames ∧
      Sends frames n.sockets (handleInboundRedisEvent cfg n channel raw tick).1.sockets := by
  cases hevent : foreignEvent cfg raw tick with
  | none =>
      rw [handleInboundRedisEvent_of_none hevent]
      exact ⟨_, .silent _, .refl _ _⟩
  | some envelope =>
      rw [handleInboundRedisEvent_of_some hevent]
      simp only
      split
      · exact ⟨_, .silent _, .refl _ _⟩
      · rename_i hnew
        rw [IdempotencyManager.check_isDuplicate_iff] at hnew
        obtain ⟨recipients, distinct, -, htype, hsends⟩ := deliverInbound_sends
          (n := ({ n with idempotencyManager := (n.idempotencyManager.check cfg.idempotency
            envelope.eventId envelope.payload tick.now).1 } : Node).recordAck cfg envelope
              (distributedAck envelope tick.reply) tick.now) wf channel envelope
        rcases htype with rfl | htype
        · exact ⟨_, .silent _, hsends⟩
        · exact ⟨_, .inbound hevent hnew htype distinct, hsends⟩

/-- The inversion lemma of the event loop, for the frames it sends. -/
theorem step_sends (wf : n.memberships.WellFormed) (h : n.step cfg e = some n') :
    ∃ frames, Outgoing cfg n e frames ∧ Sends frames (n.socketsAt e) n'.sockets := by
  cases e with
  | connect connection tick =>
      simp only [step] at h
      split at h
      · cases h
      · cases h
        exact ⟨_, .greeting connection tick,
          sendReply_sends _ connection (some (connectAck cfg connection tick))⟩
  | frame connectionId raw tick =>
      rw [step, Option.map_eq_some_iff] at h
      obtain ⟨sender, hsender, rfl⟩ := h
      exact frame_sends wf hsender raw tick
  | resume i online tick =>
      rw [step, Option.map_eq_some_iff] at h
      obtain ⟨k, hk, rfl⟩ := h
      have hreplies := continueHandler_replies cfg.toConfig
        { n.memberships with suspended := n.memberships.suspended.eraseIdx i } tick.reply online k
      have hsends := sendReply_sends { n with
        memberships := (continueHandler cfg.toConfig { n.memberships with
          suspended := n.memberships.suspended.eraseIdx i } online tick.reply k).1 } k.sender
        (continueHandler cfg.toConfig { n.memberships with
          suspended := n.memberships.suspended.eraseIdx i } online tick.reply k).2
      cases hreply : (continueHandler cfg.toConfig { n.memberships with
          suspended := n.memberships.suspended.eraseIdx i } online tick.reply k).2 with
      | none =>
          rw [hreply] at hsends
          refine ⟨_, .silent _, ?_⟩
          rw [resume, runHandler, hreply]
          exact hsends.mono fun c => by simp [framesTo]
      | some reply =>
          rw [hreply] at hsends
          obtain ⟨htype, hcorrelation⟩ := hreplies reply hreply
          refine ⟨_, .resumed hk htype hcorrelation, ?_⟩
          rw [resume, runHandler, hreply]
          exact hsends
  | close connectionId =>
      rw [step, Option.map_eq_some_iff] at h
      obtain ⟨connection, -, rfl⟩ := h
      refine ⟨_, .silent _, .of_sent_eq fun c => ?_⟩
      by_cases hc : c = connectionId <;> simp [close, socketsAt, hc]
  | redisMessage channel raw tick =>
      cases h
      exact redisMessage_sends wf channel raw tick
  | subscriptionSettled i accepted =>
      simp only [step, Option.bind_eq_bind, Option.bind_eq_some_iff, Option.pure_def,
        Option.some.injEq] at h
      obtain ⟨s, -, s', -, rfl⟩ := h
      exact ⟨_, .silent _, .refl _ _⟩
  | publishSettled =>
      cases h
      exact ⟨_, .silent _, .refl _ _⟩
  | link connected =>
      cases h
      exact ⟨_, .silent _, .refl _ _⟩
  | setPresenceManager =>
      simp only [step] at h
      split at h
      · cases h
      · cases h
        exact ⟨_, .silent _, .refl _ _⟩
  | transport connectionId readyState bufferedAmount sendFails =>
      simp only [step, transport] at h
      split at h
      · cases h
        refine ⟨_, .silent _, .of_sent_eq fun c => ?_⟩
        by_cases hc : c = connectionId <;> simp [socketsAt, hc]
      · cases h

end Node

end Pulse
