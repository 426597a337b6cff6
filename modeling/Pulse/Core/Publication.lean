import Pulse.Core.Cluster
import Pulse.Event.Frame

/-!
# What the nodes publish

A message which a node accepts is published to the other instances, unless the link is
down or too many publishes are under way. Nothing else a client does is published, so
the events which Redis relays are copies of accepted messages. The history of a cluster
keeps the accepted messages, the relayed copies and the uses of the caches.
-/

namespace Pulse

open Collections Js Transition MessageDispatcher

namespace Hub

def published (h : Hub) : List (Channel × PulseEventEnvelope) :=
  (h.channelRegistry.map (·.pubSub.published)).getD []

theorem published_of_map {h h' : Hub} {f : Subscriptions → Subscriptions}
    (keeps : ∀ s, (f s).pubSub.published = s.pubSub.published)
    (registry : h'.channelRegistry = h.channelRegistry.map f) : h'.published = h.published := by
  rw [published, published, registry, Option.map_map]
  congr 2
  funext s
  exact keeps s

@[simp] theorem joinRoom_published (h : Hub) (r : RoomId) (c : ConnectionId) :
    (h.joinRoom r c).1.published = h.published := by
  by_cases hmem : c ∈ h.roomManager.members r
  · rw [published, joinRoom_channelRegistry, if_pos hmem, published]
  · exact published_of_map (fun s => s.subscribeRoom_published r)
      ((joinRoom_channelRegistry h r c).trans (if_neg hmem))

@[simp] theorem leaveRoom_published (h : Hub) (r : RoomId) (c : ConnectionId) :
    (h.leaveRoom r c).1.published = h.published := by
  by_cases hmem : c ∈ h.roomManager.members r
  · exact published_of_map (fun s => s.unsubscribeRoom_published r)
      ((leaveRoom_channelRegistry h r c).trans (if_pos hmem))
  · rw [published, leaveRoom_channelRegistry, if_neg hmem, published]

@[simp] theorem addConnection_published (h : Hub) (connection : Connection) :
    (h.addConnection connection).published = h.published :=
  published_of_map (fun s => s.subscribeUser_published connection.userId) rfl

@[simp] theorem removeConnection_published (h : Hub) (c : ConnectionId) :
    (h.removeConnection c).1.published = h.published := by
  have hregistry := removeConnection_channelRegistry h c
  split at hregistry
  · rw [published, hregistry, published]
  · exact published_of_map (fun s => s.unsubscribeUser_published _) hregistry

@[simp] theorem removeConnectionFromAllRooms_published (h : Hub) (c : ConnectionId)
    (rooms : List RoomId) : (h.removeConnectionFromAllRooms c rooms).1.published = h.published := by
  refine removeConnectionFromAllRooms_induction (P := fun h' => h'.published = h.published) ?_ rfl
    rooms
  intro h' r heq
  rw [leaveRoom_published, heq]

end Hub

namespace Memberships

/-- Room handlers publish nothing. -/
theorem kept_published (cfg : Config) (sender : Connection) (envelope : PulseEventEnvelope)
    (published : List (Channel × PulseEventEnvelope)) :
    Kept cfg sender envelope fun m => m.hub.published = published where
  join := fun m r _ h => (m.hub.joinRoom_published r sender.connectionId).trans h
  leave := fun m r h => (m.hub.leaveRoom_published r sender.connectionId).trans h
  updateSeq := by
    intro m h
    rw [updateSeq_eq]
    exact h
  suspend := fun _ _ _ _ _ h => h

end Memberships

namespace Node

theorem published_eq (n : Node) : n.published = n.memberships.hub.published := by
  rw [published, Hub.published]
  cases n.memberships.hub.channelRegistry <;> rfl

theorem published_congr {n m : Node} (h : m.memberships = n.memberships) :
    m.published = n.published := by
  rw [published_eq, published_eq, h]

theorem publish_published (cfg : ServerConfig) (n : Node) (channel : Channel)
    (envelope : PulseEventEnvelope) (now : Int) :
    (n.publish cfg channel envelope now).published = n.published ∨
      (n.publish cfg channel envelope now).published = n.published ++
        [(channel, EventValidator.stampForDistribution envelope cfg.instanceId (.ofInt now))] := by
  rw [publish]
  split
  · exact Or.inl rfl
  · rename_i subscriptions hregistry
    split
    · split
      · exact Or.inl rfl
      · rename_i pubSub hpublish
        refine Or.inr ?_
        simp only [published, hregistry]
        exact RedisPubSubManager.publish_published hpublish
    · exact Or.inl rfl

/-- A registered connection which is in the room. -/
def IsMember (n : Node) (c : ConnectionId) (roomId : RoomId) : Prop :=
  c ∈ n.memberships.hub.connectionManager.connections.keys ∧
    c ∈ n.memberships.hub.roomManager.members roomId

instance (n : Node) (c : ConnectionId) (roomId : RoomId) : Decidable (n.IsMember c roomId) :=
  inferInstanceAs (Decidable (_ ∧ _))

end Node

namespace MessageDispatcher

variable {cfg : ServerConfig} {n : Node} {sender : Connection} {raw : Option Json} {tick : Tick}
variable {envelope : PulseEventEnvelope}

/-- The channel on which a message is published. -/
def messageChannel (envelope : PulseEventEnvelope) : Channel :=
  match envelope.type with
  | .directMessage => CHANNEL_PREFIX_USER ++ envelope.targetRecipientId.getD ""
  | _ => CHANNEL_PREFIX_ROOM ++ envelope.targetRoomId.getD ""

/-- A message as the other instances are to see it. -/
def publication (cfg : ServerConfig) (envelope : PulseEventEnvelope) (now : Int) :
    Channel × PulseEventEnvelope :=
  (messageChannel envelope,
    EventValidator.stampForDistribution envelope cfg.instanceId (.ofInt now))

/-- The handler of an accepted message publishes it, or nothing. -/
theorem route_published (deliverable : Deliverable n.memberships sender envelope) :
    (route cfg n sender envelope tick).published = n.published ∨
      (route cfg n sender envelope tick).published =
        n.published ++ [publication cfg envelope tick.now] := by
  have hseq : Node.published { n with
      memberships := n.memberships.updateSeq sender.connectionId envelope } = n.published := by
    rw [Node.published_eq, Node.published_eq, Memberships.updateSeq_eq]
  have hack : ∀ (n' : Node) (ack : PulseEventEnvelope) (channel : Channel),
      n'.published = n.published →
      (acknowledge cfg n' sender envelope ack channel tick.now).published = n.published ∨
        (acknowledge cfg n' sender envelope ack channel tick.now).published = n.published ++
          [(channel,
            EventValidator.stampForDistribution envelope cfg.instanceId (.ofInt tick.now))] := by
    intro n' ack channel hpublished
    rw [← hpublished, ← Node.published_congr (n := n')
      (m := (n'.recordAck cfg envelope ack tick.now).sendReply sender (some ack))
      (Node.sendReply_memberships _ sender (some ack)), acknowledge]
    exact Node.publish_published cfg _ channel envelope tick.now
  rcases deliverable with htype | ⟨htype, member⟩
  · simp only [route, htype, handleDirectMessage, publication, messageChannel]
    exact hack _ _ _ ((Node.published_congr (fanOutDirectMessage_memberships _ _ _)).trans hseq)
  · simp only [route, htype, handleRoomMessage, member, not_true_eq_false, if_false, publication,
      messageChannel]
    exact hack _ _ _ ((Node.published_congr (fanOutRoomMessage_memberships _ _ _ _)).trans hseq)

/-- Every other frame publishes nothing. -/
theorem route_published_of_refused (refused : ¬ Deliverable n.memberships sender envelope) :
    (route cfg n sender envelope tick).published = n.published := by
  have hkept := Memberships.kept_published cfg.toConfig sender envelope n.memberships.hub.published
  rw [Node.published_eq, Node.published_eq]
  cases htype : envelope.type with
  | roomJoin =>
      simp only [route, htype, runHandler_memberships]
      exact hkept.handleRoomJoin rfl _
  | roomBatchJoin =>
      simp only [route, htype, runHandler_memberships]
      exact hkept.handleRoomBatchJoin rfl _
  | roomLeave =>
      simp only [route, htype, runHandler_memberships]
      exact hkept.handleRoomLeave rfl _
  | roomMessage =>
      have member : envelope.targetRoomId.getD "" ∉ n.memberships.rooms sender.connectionId :=
        fun member => refused (Or.inr ⟨htype, member⟩)
      simp only [route, htype, handleRoomMessage, member, not_false_eq_true, if_true,
        Node.sendReply_memberships]
  | directMessage => exact absurd (Or.inl htype) refused
  | sysPing =>
      simp only [route, htype, handlePing, Node.sendReply_memberships]
      exact hkept.updateSeq _ rfl
  | sysPong =>
      simp only [route, htype, handlePong]
      exact hkept.updateSeq _ rfl
  | _ => simp only [route, htype]

theorem dispatchRawMessage_published (h : acceptedMessage cfg n sender raw tick = some envelope) :
    (dispatchRawMessage cfg n sender raw tick).published = n.published ∨
      (dispatchRawMessage cfg n sender raw tick).published =
        n.published ++ [publication cfg envelope tick.now] := by
  obtain ⟨hverdict, hdeliverable⟩ := acceptedMessage_eq_some.mp h
  have hmemberships := judge_memberships cfg n sender raw tick
  rw [dispatchRawMessage_accepted hverdict, ← Node.published_congr hmemberships]
  exact route_published (hmemberships ▸ hdeliverable)

theorem dispatchRawMessage_published_of_none (h : acceptedMessage cfg n sender raw tick = none) :
    (dispatchRawMessage cfg n sender raw tick).published = n.published := by
  have hmemberships := judge_memberships cfg n sender raw tick
  rw [← Node.published_congr hmemberships, Node.published_eq, dispatchRawMessage]
  refine answer_induction (P := fun m => m.hub.published = _) (Node.published_eq _).symm ?_
  intro envelope hverdict
  rw [← Node.published_eq]
  refine route_published_of_refused fun hdeliverable => ?_
  rw [acceptedMessage_eq_some.mpr ⟨hverdict, hmemberships ▸ hdeliverable⟩] at h
  cases h

end MessageDispatcher

/-- A message which a node accepted. -/
structure Acceptance where
  connectionId : ConnectionId
  envelope : PulseEventEnvelope
  /-- The connection was in the room to which the message goes. -/
  member : Bool
  /-- What was published of it, if anything. -/
  publication : Option (Channel × PulseEventEnvelope)

namespace Node

/-- The message which an event of a node gets accepted. -/
def acceptances (cfg : ServerConfig) (n : Node) : NodeEvent → List Acceptance
  | .frame connectionId raw tick =>
      (((n.getConnection connectionId).bind fun sender =>
        (acceptedMessage cfg n sender raw tick).map fun envelope =>
          { connectionId
            envelope
            member := decide (n.IsMember connectionId (envelope.targetRoomId.getD ""))
            publication := ((dispatchRawMessage cfg n sender raw tick).published.drop
              n.published.length).head? : Acceptance }).toList)
  | _ => []

end Node

/-- What is known of an accepted message: it was sent by a member of its room, and published
as it is. -/
structure Acceptance.Sound (cfg : ServerConfig) (a : Acceptance) : Prop where
  isMessage : a.envelope.type.isMessage = true
  room : a.envelope.type = .roomMessage → a.member = true ∧ ∃ roomId,
    a.envelope.targetRoomId = some roomId ∧ trim roomId = roomId ∧ roomId ≠ ""
  recipient : a.envelope.type = .directMessage → ∃ recipientId,
    a.envelope.targetRecipientId = some recipientId ∧ trim recipientId = recipientId ∧
      recipientId ≠ ""
  published : ∀ p, a.publication = some p →
    ∃ now, p = MessageDispatcher.publication cfg a.envelope now

namespace Node

variable {cfg : ServerConfig} {n n' : Node} {e : NodeEvent}

theorem acceptances_of_accepted {connectionId : ConnectionId} {sender : Connection}
    {raw : Option Json} {tick : Tick} {envelope : PulseEventEnvelope}
    (registered : n.getConnection connectionId = some sender)
    (message : acceptedMessage cfg n sender raw tick = some envelope) :
    n.acceptances cfg (.frame connectionId raw tick) =
      [{ connectionId
         envelope
         member := decide (n.IsMember connectionId (envelope.targetRoomId.getD ""))
         publication := ((dispatchRawMessage cfg n sender raw tick).published.drop
          n.published.length).head? }] := by
  rw [acceptances, registered, Option.bind_some, message]
  rfl

theorem mem_acceptances {a : Acceptance} (h : a ∈ n.acceptances cfg e) :
    ∃ connectionId sender raw tick, e = .frame connectionId raw tick ∧
      n.getConnection connectionId = some sender ∧
      acceptedMessage cfg n sender raw tick = some a.envelope ∧
      n.acceptances cfg e = [a] ∧ a.connectionId = connectionId := by
  cases e with
  | frame connectionId raw tick =>
      have hmem := h
      simp only [acceptances, Option.mem_toList, Option.bind_eq_some_iff,
        Option.map_eq_some_iff] at hmem
      obtain ⟨sender, hsender, envelope, hmessage, rfl⟩ := hmem
      exact ⟨connectionId, sender, raw, tick, rfl, hsender, hmessage,
        acceptances_of_accepted hsender hmessage, rfl⟩
  | _ => cases h

theorem acceptances_sound (wf : n.memberships.WellFormed) {a : Acceptance}
    (h : a ∈ n.acceptances cfg e) : a.Sound cfg := by
  obtain ⟨connectionId, sender, raw, tick, rfl, hsender, hmessage, hlist, -⟩ := mem_acceptances h
  obtain ⟨hverdict, hdeliverable⟩ := acceptedMessage_eq_some.mp hmessage
  obtain ⟨hroom, hrecipient⟩ :=
    EventValidator.validateIncoming_target (receive_ok (judge_accepted hverdict).1)
  obtain ⟨hid, hkey, -⟩ := wf.registered hsender
  rw [acceptances_of_accepted hsender hmessage, List.cons.injEq] at hlist
  refine ⟨hdeliverable.isMessage, fun htype => ⟨?_, hroom htype⟩, hrecipient, fun p hp => ?_⟩
  · rcases hdeliverable with hdirect | ⟨-, hmember⟩
    · rw [htype] at hdirect
      cases hdirect
    · rw [← hlist.1, decide_eq_true_eq]
      exact ⟨hkey, (wf.agree connectionId hkey _).mp (hid ▸ hmember)⟩
  · rw [← hlist.1] at hp
    rcases dispatchRawMessage_published hmessage with hpublished | hpublished
    · simp [hpublished] at hp
    · simp only [hpublished, List.drop_left, List.head?_cons, Option.some.injEq] at hp
      exact ⟨tick.now, hp.symm⟩

/-- A node publishes exactly what is noted of its accepted messages. -/
theorem step_published (h : n.step cfg e = some n') :
    n'.published = n.published ++ (n.acceptances cfg e).filterMap (·.publication) := by
  have hsame : ∀ {n' : Node}, n'.memberships.hub.published = n.memberships.hub.published →
      n'.published = n.published ++ [] := by
    intro n' hpublished
    rw [published_eq, published_eq, List.append_nil, hpublished]
  have hregistry : ∀ {f : Subscriptions → Subscriptions},
      (∀ s, (f s).pubSub.published = s.pubSub.published) →
      (n.memberships.updateRegistry f).hub.published = n.memberships.hub.published :=
    fun keeps => Hub.published_of_map keeps rfl
  cases e with
  | connect connection tick =>
      simp only [step] at h
      split at h
      · cases h
      · cases h
        refine hsame ?_
        rw [connect, sendReply_memberships]
        exact Hub.addConnection_published _ connection
  | frame connectionId raw tick =>
      rw [step, Option.map_eq_some_iff] at h
      obtain ⟨sender, hsender, rfl⟩ := h
      cases hmessage : acceptedMessage cfg n sender raw tick with
      | none =>
          rw [acceptances, hsender, Option.bind_some, hmessage]
          exact (dispatchRawMessage_published_of_none hmessage).trans (List.append_nil _).symm
      | some envelope =>
          rw [acceptances_of_accepted hsender hmessage]
          rcases dispatchRawMessage_published hmessage with hpublished | hpublished
          · simp [hpublished]
          · simp [hpublished]
  | resume i online tick =>
      rw [step, Option.map_eq_some_iff] at h
      obtain ⟨k, -, rfl⟩ := h
      refine hsame ?_
      rw [resume, runHandler_memberships]
      have hkept := Memberships.kept_published cfg.toConfig k.sender k.envelope
        n.memberships.hub.published
      exact hkept.continueHandler (m := { n.memberships with
        suspended := n.memberships.suspended.eraseIdx i }) rfl online tick.reply
  | close connectionId =>
      rw [step, Option.map_eq_some_iff] at h
      obtain ⟨connection, -, rfl⟩ := h
      refine hsame ?_
      simp only [close, Memberships.close, Hub.removeConnectionFromAllRooms_published,
        Hub.removeConnection_published]
  | redisMessage channel raw tick =>
      cases h
      refine hsame ?_
      rw [handleInboundRedisEvent_memberships]
  | subscriptionSettled i accepted =>
      simp only [step, Option.bind_eq_bind, Option.bind_eq_some_iff, Option.pure_def,
        Option.some.injEq] at h
      obtain ⟨s, hs, s', hs', rfl⟩ := h
      refine hsame ?_
      simp only [Hub.published, Memberships.updateRegistry, hs, Option.map_some, Option.getD_some]
      exact Subscriptions.settle_published s hs'
  | publishSettled =>
      cases h
      exact hsame (hregistry fun _ => rfl)
  | link connected =>
      cases h
      refine hsame (hregistry fun s => ?_)
      simp only [link, RedisPubSubManager.restoreSubscriptions]
      split
      · split <;> rfl
      · rfl
  | setPresenceManager =>
      simp only [step] at h
      split at h
      · cases h
      · cases h
        exact hsame rfl
  | transport connectionId readyState bufferedAmount sendFails =>
      simp only [step, transport] at h
      split at h
      · cases h
        exact hsame rfl
      · cases h

end Node

namespace Node

/-- A node against the uses of its cache and the messages which it accepted. -/
structure Recorded (cfg : ServerConfig) (n : Node) (touches : List CacheTouch)
    (accepted : List Acceptance) : Prop where
  wellFormed : n.memberships.WellFormed
  sourced : Sourced cfg.idempotency n.idempotencyManager touches
  acks : AcksLogged touches
  sound : ∀ a ∈ accepted, a.Sound cfg
  published : n.published = accepted.filterMap (·.publication)

theorem recorded_initial (cfg : ServerConfig) (redis : Option Bool) (presence : Bool) :
    Recorded cfg (.initial redis presence) [] [] where
  wellFormed := wellFormed_initial redis presence
  sourced := (tracked_initial cfg.idempotency fun _ => True).sourced
  acks := fun _ _ _ hmem => absurd hmem List.not_mem_nil
  sound := fun _ hmem => absurd hmem List.not_mem_nil
  published := by
    rw [published_eq, initial, Hub.published]
    cases redis <;> rfl

variable {cfg : ServerConfig} {n n' : Node} {e : NodeEvent} {touches : List CacheTouch}
variable {accepted : List Acceptance}

theorem Recorded.step (h : n.Recorded cfg touches accepted) (hstep : n.step cfg e = some n') :
    n'.Recorded cfg (touches ++ n.touches cfg e) (accepted ++ n.acceptances cfg e) where
  wellFormed := wellFormed_step cfg n e n' h.wellFormed hstep
  sourced := sourced_step h.sourced hstep
  acks := h.acks.append_touches cfg n e
  sound := by
    intro a ha
    rcases List.mem_append.mp ha with ha | ha
    · exact h.sound a ha
    · exact acceptances_sound h.wellFormed ha
  published := by rw [step_published hstep, h.published, List.filterMap_append]

end Node

/-- Redis handed a published event to a node. -/
structure RelayedCopy (ι : Type*) where
  receiver : ι
  publisher : ι
  index : Nat
  deriving DecidableEq

/-- A cluster with what happened in it. -/
structure ClusterHistory (ι : Type*) where
  nodes : ι → Node
  touches : List (ι × CacheTouch) := []
  accepted : List (ι × Acceptance) := []
  relayed : List (RelayedCopy ι) := []

namespace ClusterHistory

open Cluster

variable {ι : Type*} [DecidableEq ι]

def relays : ClusterEvent ι → List (RelayedCopy ι)
  | .relay i j k _ => [⟨i, j, k⟩]
  | .node .. => []

def step (cfg : ι → ServerConfig) (h : ClusterHistory ι) (e : ClusterEvent ι) :
    Option (ClusterHistory ι) :=
  (Cluster.step cfg h.nodes e).map fun nodes =>
    { nodes
      touches := h.touches ++ Cluster.touches cfg h.nodes e
      accepted := h.accepted ++ emitAt (fun i n e => n.acceptances (cfg i) e) h.nodes e
      relayed := h.relayed ++ relays e }

def initial (redis : ι → Option Bool) (presence : ι → Bool) : ClusterHistory ι :=
  { nodes := Cluster.initial redis presence }

/-- The messages which a node accepted. -/
def acceptedAt (h : ClusterHistory ι) (i : ι) : List Acceptance := logOf i h.accepted

/-- The uses of the cache of a node. -/
def touchesAt (h : ClusterHistory ι) (i : ι) : List CacheTouch := logOf i h.touches

variable {cfg : ι → ServerConfig} {h t : ClusterHistory ι} {e : ClusterEvent ι}

/-- The inversion lemma: an event happens at one node, and nothing changes at the others. -/
theorem step_cases (hstep : h.step cfg e = some t) :
    ∃ i e', nodeEvent h.nodes e = some (i, e') ∧
      (h.nodes i).step (cfg i) e' = some (t.nodes i) ∧
      t.touchesAt i = h.touchesAt i ++ (h.nodes i).touches (cfg i) e' ∧
      t.acceptedAt i = h.acceptedAt i ++ (h.nodes i).acceptances (cfg i) e' ∧
      (∀ j, j ≠ i → t.nodes j = h.nodes j ∧ t.touchesAt j = h.touchesAt j ∧
        t.acceptedAt j = h.acceptedAt j) ∧
      t.relayed = h.relayed ++ relays e := by
  rw [step, Option.map_eq_some_iff] at hstep
  obtain ⟨nodes, hnodes, rfl⟩ := hstep
  obtain ⟨i, e', n, hevent, hn, rfl⟩ := step_eq_some.mp hnodes
  refine ⟨i, e', hevent, ?_, ?_, ?_, fun j hj => ⟨?_, ?_, ?_⟩, rfl⟩
  · exact hn.trans (congrArg some (Function.update_self i n h.nodes).symm)
  · rw [touchesAt, logOf_append, Cluster.touches, logOf_emitAt hevent, if_pos rfl, touchesAt]
  · rw [acceptedAt, logOf_append, logOf_emitAt hevent, if_pos rfl, acceptedAt]
  · exact Function.update_of_ne hj n h.nodes
  · rw [touchesAt, logOf_append, Cluster.touches, logOf_emitAt hevent, if_neg hj, List.append_nil,
      touchesAt]
  · rw [acceptedAt, logOf_append, logOf_emitAt hevent, if_neg hj, List.append_nil, acceptedAt]

/-- A property of a node and its logs which its events keep is kept in the cluster. -/
theorem forall_step {P : ι → Node → List CacheTouch → List Acceptance → Prop}
    (hstep : h.step cfg e = some t)
    (preserved : ∀ i e', nodeEvent h.nodes e = some (i, e') →
      (h.nodes i).step (cfg i) e' = some (t.nodes i) →
      P i (h.nodes i) (h.touchesAt i) (h.acceptedAt i) →
      P i (t.nodes i) (h.touchesAt i ++ (h.nodes i).touches (cfg i) e')
        (h.acceptedAt i ++ (h.nodes i).acceptances (cfg i) e'))
    (holds : ∀ i, P i (h.nodes i) (h.touchesAt i) (h.acceptedAt i)) (j : ι) :
    P j (t.nodes j) (t.touchesAt j) (t.acceptedAt j) := by
  obtain ⟨i, e', hevent, hn, htouches, haccepted, hothers, -⟩ := step_cases hstep
  rcases eq_or_ne j i with rfl | hj
  · rw [htouches, haccepted]
    exact preserved j e' hevent hn (holds j)
  · obtain ⟨hnode, htouches, haccepted⟩ := hothers j hj
    rw [hnode, htouches, haccepted]
    exact holds j

def Recorded (cfg : ι → ServerConfig) (h : ClusterHistory ι) : Prop :=
  ∀ i, (h.nodes i).Recorded (cfg i) (h.touchesAt i) (h.acceptedAt i)

theorem recorded_initial (cfg : ι → ServerConfig) (redis : ι → Option Bool)
    (presence : ι → Bool) : Recorded cfg (initial redis presence) :=
  fun i => Node.recorded_initial (cfg i) (redis i) (presence i)

theorem Recorded.step (recorded : Recorded cfg h) (hstep : h.step cfg e = some t) :
    Recorded cfg t :=
  forall_step (P := fun i => (Node.Recorded (cfg i) · · ·)) hstep
    (fun _ _ _ hn recorded => recorded.step hn) recorded

end ClusterHistory

end Pulse
