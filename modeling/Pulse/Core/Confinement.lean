import Pulse.Core.Publication

/-!
# Where messages go

A room message is written only to members of its room and only if its sender was one, and
a direct message only to connections of its recipient. On the way through Redis a message
comes back to the node which accepted it. There it is suppressed by the name of its
origin; but the name is read trimmed, so a node whose name has white space around it does
not know its own events, and sends one that has left its cache to the sender.
-/

namespace Pulse

open Collections Js Transition MessageDispatcher Socket

namespace Socket

variable {frames : ConnectionId → List PulseEventEnvelope} {s s' : ConnectionId → Socket}

/-- What was sent since is among the frames meant for the connection. -/
theorem Sends.mem_of_mem_drop (h : Sends frames s s') {c : ConnectionId}
    {f : PulseEventEnvelope} (hf : f ∈ (s' c).sent.drop (s c).sent.length) : f ∈ frames c := by
  obtain ⟨l, hl, hsent⟩ := h c
  rw [hsent, List.drop_left] at hf
  exact hl.subset hf

end Socket

namespace Node

variable {cfg : ServerConfig} {n n' : Node} {e : NodeEvent} {touches : List CacheTouch}
variable {accepted : List Acceptance} {c : ConnectionId} {f : PulseEventEnvelope}

/-- What an event writes to a connection. -/
def written (n : Node) (e : NodeEvent) (n' : Node) (c : ConnectionId) :
    List PulseEventEnvelope :=
  (n'.sockets c).sent.drop (n.socketsAt e c).sent.length

theorem replyTypes_not_message {type : EventType} (h : type ∈ replyTypes) :
    type.isMessage = false := by
  revert type
  decide

/-- A message is written by the handler that accepted it, or comes from another node. -/
theorem step_written (h : n.Recorded cfg touches accepted) (hstep : n.step cfg e = some n')
    (hf : f ∈ n.written e n' c) (message : f.type.isMessage = true) :
    (∃ connectionId sender raw tick, e = .frame connectionId raw tick ∧
        n.getConnection connectionId = some sender ∧
        acceptedMessage cfg n sender raw tick = some f ∧
        c ∈ (messageRecipients n sender f).map (·.connectionId)) ∨
      ∃ channel raw tick, e = .redisMessage channel raw tick ∧
        foreignEvent cfg raw tick = some f ∧
        ¬ n.idempotencyManager.Hits cfg.idempotency f.eventId tick.now ∧
        Addressed n channel f c := by
  obtain ⟨frames, houtgoing, hsends⟩ := step_sends h.wellFormed hstep
  rcases houtgoing.origin h.sourced h.acks (hsends.mem_of_mem_drop hf) with htype |
    ⟨connectionId, sender, raw, tick, rfl, registered, hmessage⟩ |
    ⟨channel, raw, tick, rfl, hevent, hnew⟩
  · rw [replyTypes_not_message htype] at message
    cases message
  · rw [step, registered, Option.map_some, Option.some.injEq] at hstep
    subst hstep
    refine Or.inl ⟨connectionId, sender, raw, tick, rfl, registered, hmessage, ?_⟩
    rcases List.mem_append.mp
      ((dispatchRawMessage_sends h.wellFormed hmessage).mem_of_mem_drop hf) with hmem | hmem
    · exact (mem_framesToAll.mp hmem).1
    · rw [(mem_framesTo.mp hmem).2, messageAck_type] at message
      cases message
  · rw [step, Option.some.injEq, handleInboundRedisEvent_of_some hevent] at hstep
    have hmiss : (n.idempotencyManager.check cfg.idempotency f.eventId f.payload
        tick.now).2.isDuplicate ≠ true := fun hdup =>
      hnew ((IdempotencyManager.check_isDuplicate_iff _).mp hdup)
    simp only [if_neg hmiss] at hstep
    subst hstep
    obtain ⟨recipients, -, haddressed, -, hdelivered⟩ := deliverInbound_sends
      (n := ({ n with idempotencyManager := (n.idempotencyManager.check cfg.idempotency
        f.eventId f.payload tick.now).1 } : Node).recordAck cfg f
          (distributedAck f tick.reply) tick.now) h.wellFormed channel f
    refine Or.inr ⟨channel, raw, tick, rfl, hevent, hnew, ?_⟩
    exact haddressed c (mem_framesToAll.mp (hdelivered.mem_of_mem_drop hf)).1

theorem isMember_of_mem_roomRecipients (wf : n.memberships.WellFormed) {roomId : RoomId}
    {sender : ConnectionId} (h : c ∈ (roomRecipients n roomId sender).map (·.connectionId)) :
    n.IsMember c roomId ∧ c ≠ sender := by
  obtain ⟨connection, hmem, rfl⟩ := List.mem_map.mp h
  rw [roomRecipients, List.mem_filterMap] at hmem
  obtain ⟨c, hmember, registered⟩ := hmem
  rw [List.mem_filter, decide_eq_true_eq] at hmember
  obtain ⟨hid, hkey, -⟩ := wf.registered registered
  rw [hid]
  exact ⟨⟨hkey, hmember.1⟩, hmember.2⟩

end Node

namespace ClusterHistory

open Cluster

variable {ι : Type*} [DecidableEq ι] {cfg : ι → ServerConfig} {h t : ClusterHistory ι}
variable {e : ClusterEvent ι}

/-- The accepted message of which an event writes copies. -/
def source (cfg : ι → ServerConfig) (h : ClusterHistory ι) :
    ClusterEvent ι → Option (ι × Acceptance)
  | .node i e => ((h.nodes i).acceptances (cfg i) e).head?.map (Prod.mk i)
  | .relay _ i k _ =>
      ((h.acceptedAt i).filter fun a => a.publication.isSome)[k]?.map (Prod.mk i)

/-- The connection may be sent the message: a room message if both it and the sender are in
the room, unless it is the sender; a direct message if its user is the recipient. -/
structure Concerns (cfg : ι → ServerConfig) (h : ClusterHistory ι) (e : ClusterEvent ι) (j : ι)
    (c : ConnectionId) (f : PulseEventEnvelope) : Prop where
  room : f.type = .roomMessage → ∃ roomId, f.targetRoomId = some roomId ∧
    (h.nodes j).IsMember c roomId ∧
    ∃ i a, source cfg h e = some (i, a) ∧ a.envelope.targetRoomId = some roomId ∧
      a.member = true ∧ (i = j → c ≠ a.connectionId)
  recipient : f.type = .directMessage → ∃ connection,
    (h.nodes j).getConnection c = some connection ∧ f.targetRecipientId = some connection.userId

/-- What an event writes goes to connections which it concerns. -/
def Confined (cfg : ι → ServerConfig) (h : ClusterHistory ι) (e : ClusterEvent ι)
    (t : ClusterHistory ι) : Prop :=
  ∀ j e', nodeEvent h.nodes e = some (j, e') →
    ∀ c, ∀ f ∈ (h.nodes j).written e' (t.nodes j) c, Concerns cfg h e j c f

/-- Redis delivers no messages but those which the nodes published. -/
def MessagesRelayed (cfg : ι → ServerConfig) : ClusterEvent ι → Prop
  | .node i (.redisMessage _ raw tick) =>
      ∀ f, foreignEvent (cfg i) raw tick = some f → f.type.isMessage = false
  | _ => True

/-- An own room message that comes back to its node finds the name of the node, or its own
entry in the cache, or its sender no longer in the room. -/
def EchoHeld (cfg : ι → ServerConfig) (h : ClusterHistory ι) : ClusterEvent ι → Prop
  | .relay j i k tick => i = j → trim (cfg i).instanceId = (cfg i).instanceId ∨
      ∀ message, (h.nodes i).published[k]? = some message →
      ∀ f, foreignEvent (cfg i) (some message.2.toJson) tick = some f →
        (h.nodes i).idempotencyManager.Hits (cfg i).idempotency f.eventId tick.now ∨
          ∀ a, source cfg h (.relay j i k tick) = some (i, a) →
            ¬ (h.nodes i).IsMember a.connectionId (f.targetRoomId.getD "")
  | .node .. => True

end ClusterHistory

/-- What is published is what is left of a filtered list. -/
theorem getElem?_filterMap {α β : Type*} (f : α → Option β) (l : List α) (k : Nat) :
    (l.filterMap f)[k]? = ((l.filter fun a => (f a).isSome)[k]?).bind f := by
  induction l generalizing k with
  | nil => rfl
  | cons a l ih =>
      cases ha : f a with
      | none => rw [List.filterMap_cons_none ha, List.filter_cons_of_neg (by simp [ha]), ih]
      | some b =>
          rw [List.filterMap_cons_some ha, List.filter_cons_of_pos (by simp [ha])]
          cases k with
          | zero => exact ha.symm
          | succ k => exact ih k

namespace ClusterHistory

open Cluster

variable {ι : Type*} [DecidableEq ι] {cfg : ι → ServerConfig} {h t : ClusterHistory ι}
variable {e : ClusterEvent ι}

/-- The copies of a message carry it; the node which accepted it does not take it for that of
another one, if its name is trimmed. -/
theorem Recorded.relayed (recorded : Recorded cfg h) {i j : ι} {k : Nat} {tick : Tick}
    (tick' : Tick) {message : Channel × PulseEventEnvelope} {f : PulseEventEnvelope}
    (published : (h.nodes i).published[k]? = some message)
    (hevent : foreignEvent (cfg j) (some message.2.toJson) tick = some f) :
    ∃ a, source cfg h (.relay j i k tick') = some (i, a) ∧ a.Sound (cfg i) ∧
      a.publication = some message ∧ Carries a.envelope f ∧
      (a.envelope.eventId ≠ "" → f.eventId = a.envelope.eventId) ∧
      (i = j → trim (cfg i).instanceId ≠ (cfg i).instanceId) := by
  rw [(recorded i).published, getElem?_filterMap, Option.bind_eq_some_iff] at published
  obtain ⟨a, hindex, hpublication⟩ := published
  have hsound := (recorded i).sound a (List.mem_of_mem_filter (List.mem_of_getElem? hindex))
  obtain ⟨now, rfl⟩ := hsound.published message hpublication
  rw [foreignEvent, Option.filter_eq_some_iff, Option.bind_some] at hevent
  obtain ⟨hvalid, hforeign⟩ := hevent
  cases hvalidated : EventValidator.validateDistributed
      (publication (cfg i) a.envelope now).2.toJson tick.frame with
  | error error =>
      rw [hvalidated] at hvalid
      cases hvalid
  | ok found =>
      rw [hvalidated, Except.toOption, Option.some.injEq] at hvalid
      subst hvalid
      obtain ⟨hcarries, heventId, origin, horigin, -, htrimmed⟩ :=
        EventValidator.validateDistributed_toJson hvalidated
      have hname : (cfg i).instanceId = origin := Option.some.inj horigin
      refine ⟨a, ?_, hsound, hpublication, ⟨hcarries.type, hcarries.payload, hcarries.room,
        hcarries.recipient⟩, heventId, ?_⟩
      · rw [source, hindex, Option.map_some]
      · rintro rfl htrim
        rw [htrimmed, ← hname, htrim] at hforeign
        exact absurd hforeign (by simp)

theorem concerns_of_not_message {j : ι} {c : ConnectionId} {f : PulseEventEnvelope}
    (quiet : f.type.isMessage = false) : Concerns cfg h e j c f where
  room := by
    intro htype
    rw [htype] at quiet
    cases quiet
  recipient := by
    intro htype
    rw [htype] at quiet
    cases quiet

/-- The recipients to whom a node sends what it accepts. -/
theorem Recorded.concerns_accepted (recorded : Recorded cfg h) {i : ι}
    {connectionId c : ConnectionId} {sender : Connection} {raw : Option Json} {tick : Tick}
    {f : PulseEventEnvelope}
    (registered : (h.nodes i).getConnection connectionId = some sender)
    (message : acceptedMessage (cfg i) (h.nodes i) sender raw tick = some f)
    (recipient : c ∈ (messageRecipients (h.nodes i) sender f).map (·.connectionId)) :
    Concerns cfg h (.node i (.frame connectionId raw tick)) i c f := by
  have wf := (recorded i).wellFormed
  have hlist := Node.acceptances_of_accepted registered message
  have hsound := Node.acceptances_sound wf (hlist ▸ List.mem_singleton_self _)
  constructor
  · intro htype
    obtain ⟨hmember, roomId, hroom, -⟩ := hsound.room htype
    simp only [messageRecipients, htype] at recipient
    obtain ⟨hrecipient, hother⟩ := Node.isMember_of_mem_roomRecipients wf recipient
    rw [show f.targetRoomId = some roomId from hroom, Option.getD_some] at hrecipient
    refine ⟨roomId, hroom, hrecipient, i, _, by rw [source, hlist]; rfl, hroom, hmember,
      fun _ => ?_⟩
    rwa [(wf.registered registered).1] at hother
  · intro htype
    obtain ⟨recipientId, hrecipientId, -⟩ := hsound.recipient htype
    have htarget : f.targetRecipientId = some recipientId := hrecipientId
    simp only [messageRecipients, htype, htarget, Option.getD_some] at recipient
    obtain ⟨connection, hmem, rfl⟩ := List.mem_map.mp recipient
    obtain ⟨hconnection, huser⟩ := wf.indexed.mem_getConnectionsByUserId.mp hmem
    exact ⟨connection, hconnection, huser ▸ htarget⟩

/-- The recipients of a copy which Redis relays. -/
theorem Recorded.concerns_relayed (recorded : Recorded cfg h) {i j : ι} {k : Nat} {tick : Tick}
    (held : EchoHeld cfg h (.relay j i k tick)) {message : Channel × PulseEventEnvelope}
    {c : ConnectionId} {f : PulseEventEnvelope}
    (published : (h.nodes i).published[k]? = some message)
    (hevent : foreignEvent (cfg j) (some message.2.toJson) tick = some f)
    (new : ¬ (h.nodes j).idempotencyManager.Hits (cfg j).idempotency f.eventId tick.now)
    (addressed : Addressed (h.nodes j) message.1 f c) :
    Concerns cfg h (.relay j i k tick) j c f := by
  obtain ⟨a, hsource, hsound, -, hcarries, -, hname⟩ := recorded.relayed tick published
    hevent
  constructor
  · intro htype
    obtain ⟨hmember, roomId, hroom, htrim, hne⟩ := hsound.room (hcarries.type.symm.trans htype)
    have htarget : f.targetRoomId = some roomId := by
      rw [hcarries.room roomId hroom (by rwa [htrim]), htrim]
    simp only [Addressed, htype, htarget, orElse, if_neg hne, Option.some.injEq] at addressed
    obtain ⟨roomId, connection, rfl, registered, hin⟩ := addressed
    have hrecipient : (h.nodes j).IsMember c roomId := ⟨OrderedMap.mem_keys_of_get? registered, hin⟩
    refine ⟨roomId, htarget, hrecipient, i, a, hsource, hroom, hmember, ?_⟩
    rintro rfl rfl
    rcases held rfl with htrimmed | hheld
    · exact hname rfl htrimmed
    · rcases hheld message published f hevent with hhit | hgone
      · exact new hhit
      · rw [htarget] at hgone
        exact hgone a hsource hrecipient
  · intro htype
    obtain ⟨recipientId, hrecipient, htrim, hne⟩ :=
      hsound.recipient (hcarries.type.symm.trans htype)
    have htarget : f.targetRecipientId = some recipientId := by
      rw [hcarries.recipient recipientId hrecipient (by rwa [htrim]), htrim]
    simp only [Addressed, htype, htarget, orElse, if_neg hne, Option.some.injEq] at addressed
    obtain ⟨recipientId, connection, rfl, registered, huser⟩ := addressed
    exact ⟨connection, registered, huser ▸ htarget⟩

/-- One event sends messages only to connections which they concern. -/
theorem Recorded.confined (recorded : Recorded cfg h) (hstep : h.step cfg e = some t)
    (genuine : MessagesRelayed cfg e) (held : EchoHeld cfg h e) : Confined cfg h e t := by
  obtain ⟨i, e', hevent, hn, -⟩ := step_cases hstep
  intro j e'' hj c f hf
  rw [hevent, Option.some.injEq, Prod.mk.injEq] at hj
  obtain ⟨rfl, rfl⟩ := hj
  by_cases hmessage : f.type.isMessage = true
  · have hwritten := Node.step_written (recorded i) hn hf hmessage
    cases e with
    | node i₀ e₀ =>
        cases hevent
        rcases hwritten with ⟨connectionId, sender, raw, tick, rfl, registered, haccepted,
          hrecipient⟩ |
          ⟨channel, raw, tick, rfl, hforeign, -⟩
        · exact recorded.concerns_accepted registered haccepted hrecipient
        · exact concerns_of_not_message (genuine f hforeign)
    | relay i₀ j₀ k tick =>
        obtain ⟨message, hpublished, heq⟩ := Option.map_eq_some_iff.mp hevent
        cases heq
        rcases hwritten with ⟨_, _, _, _, heq, -⟩ | ⟨_, _, _, heq, hforeign, hnew, haddressed⟩
        · cases heq
        · cases heq
          exact recorded.concerns_relayed held hpublished hforeign hnew haddressed
  · exact concerns_of_not_message (Bool.eq_false_iff.mpr hmessage)

/-- In every run in which the own room messages that come back to a node are held, messages
are written only to connections which they concern. -/
theorem deliveries_confined (cfg : ι → ServerConfig) (redis : ι → Option Bool)
    (presence : ι → Bool) (es : List (ClusterEvent ι))
    (genuine : ∀ e ∈ es, MessagesRelayed cfg e)
    (held : EveryStep (step cfg) (fun h e _ => EchoHeld cfg h e) (initial redis presence) es) :
    EveryStep (step cfg) (Confined cfg) (initial redis presence) es :=
  EveryStep.imp_of_invariant (I := Recorded cfg)
    (fun _ _ _ recorded hstep => recorded.step hstep)
    (fun _ _ _ recorded hstep hr => recorded.confined hstep hr.1 hr.2)
    (recorded_initial cfg redis presence) ((everyStep_of_forall_mem genuine _).and held)

/-- Nothing gets past a node which knows its own events. -/
theorem echoHeld_of_trimmed (trimmed : ∀ i, trim (cfg i).instanceId = (cfg i).instanceId)
    (h : ClusterHistory ι) (e : ClusterEvent ι) : EchoHeld cfg h e := by
  cases e with
  | node i e => trivial
  | relay j i k tick => exact fun _ => Or.inl (trimmed i)

def roomConfig (name : String) : Bool → ServerConfig := fun i =>
  { instanceId := if i then "node-b" else name, idempotency := { digest := id } }

def roomTick (now : Int) (replyId : EventId) : Tick := { now, frameId := "unused", replyId }

/-- Alice on one node and Bob on each of two nodes are in a room, and Alice sends a message. -/
def roomRun : List (ClusterEvent Bool) :=
  [.node false (.connect { connectionId := "c1", userId := "alice" } (roomTick 0 "r1")),
    .node false (.connect { connectionId := "c2", userId := "bob" } (roomTick 0 "r2")),
    .node true (.connect { connectionId := "c3", userId := "bob" } (roomTick 0 "r3")),
    .node false (.frame "c1" (some (Node.roomFrame .roomJoin "general" none)) (roomTick 0 "r4")),
    .node false (.frame "c2" (some (Node.roomFrame .roomJoin "general" none)) (roomTick 0 "r5")),
    .node true (.frame "c3" (some (Node.roomFrame .roomJoin "general" none)) (roomTick 0 "r6")),
    .node false (.frame "c1" (some (Node.roomFrame .roomMessage "general" none)) (roomTick 0 "r7"))]

theorem deliveries_confined_two_nodes :
    EveryStep (step (roomConfig "node-a")) (Confined (roomConfig "node-a"))
      (initial (fun _ => some true) fun _ => false)
      (roomRun ++
        [.relay true false 0 (roomTick 5 "r8"), .relay false false 0 (roomTick 60001 "r9")]) := by
  refine deliveries_confined (roomConfig "node-a") (fun _ => some true) (fun _ => false) _ ?_ ?_
  · simp [roomRun, MessagesRelayed]
  · exact everyStep_of_invariant (I := fun _ => True) (fun _ _ _ _ _ => trivial)
      (fun h e _ _ _ => echoHeld_of_trimmed (by decide) h e) trivial _

/-- A node whose name ends with a blank sends a room message back to its sender when a copy
arrives after the entry in the cache has expired. -/
theorem echo_reaches_sender :
    (∀ e ∈ roomRun ++ [.relay false false 0 (roomTick 60001 "r8")],
        MessagesRelayed (roomConfig "node-a ") e) ∧
      ¬ EveryStep (step (roomConfig "node-a ")) (Confined (roomConfig "node-a "))
        (initial (fun _ => some true) fun _ => false)
        (roomRun ++ [.relay false false 0 (roomTick 60001 "r8")]) := by
  refine ⟨by simp [roomRun, MessagesRelayed], ?_⟩
  refine not_everyStep_of_run (q := fun h t =>
    ((h.nodes false).published[0]?).any (fun message =>
      ((h.nodes false).written (.redisMessage message.1 (some message.2.toJson)
        (roomTick 60001 "r8")) (t.nodes false) "c1").any fun f => decide (f.type = .roomMessage)) &&
    (source (roomConfig "node-a ") h (.relay false false 0 (roomTick 60001 "r8"))).any
      fun origin => decide (origin.1 = false ∧ origin.2.connectionId = "c1")) ?_ (by decide +kernel)
  intro h t hq confined
  rw [Bool.and_eq_true] at hq
  obtain ⟨message, hpublished, hwritten⟩ := (Option.any_eq_true _ _).mp hq.1
  obtain ⟨f, hf, htype⟩ := List.any_eq_true.mp hwritten
  obtain ⟨origin, horigin, hsender⟩ := (Option.any_eq_true _ _).mp hq.2
  obtain ⟨hnode, hconnection⟩ := of_decide_eq_true hsender
  obtain ⟨_, _, _, i, a, hsource, _, _, hother⟩ :=
    (confined false _ (Option.map_eq_some_iff.mpr ⟨message, hpublished, rfl⟩) "c1" f hf).room
      (of_decide_eq_true htype)
  rw [hsource, Option.some.injEq] at horigin
  subst horigin
  exact hother hnode hconnection.symm

end ClusterHistory

end Pulse
