import Pulse.Collections.Records
import Pulse.Core.Delivery
import Mathlib.Data.Finset.Max

/-!
# The order of presence events

What a node makes of the presence events about one user. Two filters stand before the
room members: the idempotency cache drops an event whose id it knows, the tracker drops
an event that is not newer than the last one about the user. The accepted events are the
records of the arrived ones by their timestamps, so a node that has received all of them
ends with the newest, whatever their order and however often they were repeated.
-/

namespace Pulse

open Collections Js Transition MessageDispatcher

/-- What a presence event says. -/
structure PresenceRecord where
  eventId : EventId
  userId : UserId
  status : String
  timestamp : Number
  deriving DecidableEq

namespace PresenceRecord

def rank (r : PresenceRecord) : WithBot (WithTop ℚ) := r.timestamp.rank

/-- What an envelope says about the presence of a user. -/
def ofEnvelope (envelope : PulseEventEnvelope) : Option PresenceRecord :=
  if envelope.type = .presenceUpdate then
    match EventValidator.stringOf (envelope.payload.get? "userId"),
        EventValidator.stringOf (envelope.payload.get? "status") with
    | some userId, some status =>
        if userId = "" ∨ status = "" then none
        else some { eventId := envelope.eventId, userId, status, timestamp := envelope.timestamp }
    | _, _ => none
  else none

variable {envelope : PulseEventEnvelope} {r : PresenceRecord}

theorem ofEnvelope_eq_some (h : ofEnvelope envelope = some r) :
    envelope.type = .presenceUpdate ∧ envelope.eventId = r.eventId ∧
      envelope.timestamp = r.timestamp ∧ r.userId ≠ "" ∧ r.status ≠ "" ∧
      EventValidator.stringOf (envelope.payload.get? "userId") = some r.userId ∧
      EventValidator.stringOf (envelope.payload.get? "status") = some r.status := by
  rw [ofEnvelope] at h
  split at h
  · rename_i htype
    split at h
    · rename_i userId status huser hstatus
      split at h
      · cases h
      · rename_i hne
        rw [not_or] at hne
        cases h
        exact ⟨htype, rfl, rfl, hne.1, hne.2, huser, hstatus⟩
    · cases h
  · cases h

theorem ofEnvelope_of_type (h : envelope.type ≠ .presenceUpdate) : ofEnvelope envelope = none :=
  if_neg h

end PresenceRecord

/-- An event that reaches the idempotency cache of a node. -/
structure Arrival where
  eventId : EventId
  presence : Option PresenceRecord
  /-- The event came from another node and was processed. -/
  accepted : Bool

namespace Arrival

def presenceOf (u : UserId) (a : Arrival) : Option PresenceRecord :=
  a.presence.filter fun r => r.userId = u

end Arrival

/-- The presence events about a user that arrived. -/
def arrivedAbout (u : UserId) (log : List Arrival) : List PresenceRecord :=
  log.filterMap (Arrival.presenceOf u)

/-- The presence events about a user that were accepted. -/
def acceptedAbout (u : UserId) (log : List Arrival) : List PresenceRecord :=
  (log.filter (·.accepted)).filterMap (Arrival.presenceOf u)

/-- The presence events about a user among some frames. -/
def presenceFrames (u : UserId) (frames : List PulseEventEnvelope) : List PresenceRecord :=
  frames.filterMap fun envelope =>
    (PresenceRecord.ofEnvelope envelope).filter fun r => r.userId = u

theorem arrivedAbout_append (u : UserId) (log log' : List Arrival) :
    arrivedAbout u (log ++ log') = arrivedAbout u log ++ arrivedAbout u log' :=
  List.filterMap_append

theorem acceptedAbout_append (u : UserId) (log log' : List Arrival) :
    acceptedAbout u (log ++ log') = acceptedAbout u log ++ acceptedAbout u log' := by
  rw [acceptedAbout, List.filter_append, List.filterMap_append]
  rfl

theorem arrivedAbout_singleton (u : UserId) (id : EventId) (r : PresenceRecord)
    (accepted : Bool) :
    arrivedAbout u [{ eventId := id, presence := some r, accepted }] =
      if r.userId = u then [r] else [] := by
  by_cases h : r.userId = u <;>
    simp [arrivedAbout, Arrival.presenceOf, Option.filter, h]

theorem acceptedAbout_singleton (u : UserId) (id : EventId) (r : PresenceRecord)
    (accepted : Bool) :
    acceptedAbout u [{ eventId := id, presence := some r, accepted }] =
      if accepted = true ∧ r.userId = u then [r] else [] := by
  cases accepted with
  | true =>
      simp only [true_and]
      exact arrivedAbout_singleton u id r true
  | false => rfl

theorem presenceFrames_append (u : UserId) (frames frames' : List PulseEventEnvelope) :
    presenceFrames u (frames ++ frames') = presenceFrames u frames ++ presenceFrames u frames' :=
  List.filterMap_append

namespace Node

section frame

variable (cfg : ServerConfig) (n : Node)

@[simp] theorem closeSocket_presenceEvents (connection : Connection) (code : Nat)
    (reason : String) :
    (n.closeSocket connection code reason).presenceEvents = n.presenceEvents := by
  rw [closeSocket]
  split <;> rfl

@[simp] theorem send_presenceEvents (recipient : Connection) (envelope : PulseEventEnvelope) :
    (n.send recipient envelope).1.presenceEvents = n.presenceEvents := by
  simp only [send]
  split_ifs <;> simp

@[simp] theorem deliver_presenceEvents (recipients : List Connection)
    (envelope : PulseEventEnvelope) :
    (n.deliver recipients envelope).1.presenceEvents = n.presenceEvents := by
  refine deliver_induction (P := fun n' => n'.presenceEvents = n.presenceEvents) ?_ rfl recipients
  intro n' recipient h
  rw [send_presenceEvents, h]

@[simp] theorem sendReply_presenceEvents (sender : Connection)
    (reply : Option PulseEventEnvelope) :
    (n.sendReply sender reply).presenceEvents = n.presenceEvents := by
  cases reply with
  | none => rfl
  | some envelope => exact send_presenceEvents n sender envelope

@[simp] theorem publish_presenceEvents (channel : Channel) (envelope : PulseEventEnvelope)
    (now : Int) : (n.publish cfg channel envelope now).presenceEvents = n.presenceEvents := by
  rw [publish]
  split
  · rfl
  · split
    · split <;> rfl
    · rfl

end frame

end Node

namespace MessageDispatcher

variable {cfg : ServerConfig} {n : Node} {sender : Connection} {raw : Option Json} {tick : Tick}
variable {envelope : PulseEventEnvelope}

@[simp] theorem acknowledge_presenceEvents (cfg : ServerConfig) (n : Node) (sender : Connection)
    (envelope ack : PulseEventEnvelope) (channel : Channel) (now : Int) :
    (acknowledge cfg n sender envelope ack channel now).presenceEvents = n.presenceEvents := by
  rw [acknowledge, Node.publish_presenceEvents, Node.sendReply_presenceEvents]
  rfl

@[simp] theorem runHandler_presenceEvents (n : Node) (sender : Connection)
    (result : Memberships × Option PulseEventEnvelope) :
    (runHandler n sender result).presenceEvents = n.presenceEvents := by
  rw [runHandler, Node.sendReply_presenceEvents]

theorem judge_presenceEvents (cfg : ServerConfig) (n : Node) (sender : Connection)
    (raw : Option Json) (tick : Tick) :
    (judge cfg n sender raw tick).1.presenceEvents = n.presenceEvents := by
  have hreceive : (receive n sender raw tick).1.presenceEvents = n.presenceEvents := by
    simp only [receive]
    split
    · rfl
    · split <;> rfl
  rw [judge]
  cases hreceived : receive n sender raw tick with
  | mk n₁ received =>
      rw [hreceived] at hreceive
      cases received with
      | error reason => exact hreceive
      | ok envelope =>
          rw [checkReceived, checkMessage_node]
          split <;> exact hreceive

theorem route_presenceEvents (cfg : ServerConfig) (n : Node) (sender : Connection)
    (envelope : PulseEventEnvelope) (tick : Tick) :
    (route cfg n sender envelope tick).presenceEvents = n.presenceEvents := by
  rw [route]
  split
  · exact runHandler_presenceEvents _ _ _
  · exact runHandler_presenceEvents _ _ _
  · exact runHandler_presenceEvents _ _ _
  · simp only [handleRoomMessage]
    split
    · exact Node.sendReply_presenceEvents _ _ _
    · simp [fanOutRoomMessage]
  · simp [handleDirectMessage, fanOutDirectMessage]
  · exact Node.sendReply_presenceEvents _ _ _
  · rfl
  · rfl

theorem dispatchRawMessage_presenceEvents (cfg : ServerConfig) (n : Node) (sender : Connection)
    (raw : Option Json) (tick : Tick) :
    (dispatchRawMessage cfg n sender raw tick).presenceEvents = n.presenceEvents := by
  have hjudge := judge_presenceEvents cfg n sender raw tick
  rw [dispatchRawMessage]
  generalize judge cfg n sender raw tick = admitted at hjudge ⊢
  obtain ⟨n₁, verdict⟩ := admitted
  rw [← hjudge]
  cases verdict with
  | refused reason =>
      cases reason with
      | rateLimited abusive =>
          simp only [answer]
          split <;> simp
      | invalid error => simp [answer]
  | accepted envelope => exact route_presenceEvents cfg n₁ sender envelope tick
  | _ => simp [answer]

/-- A presence event is forwarded unless it is stale, and then recorded. -/
theorem handleInboundPresence_of_record {r : PresenceRecord}
    (h : PresenceRecord.ofEnvelope envelope = some r) (presence : n.memberships.presence = true) :
    (handleInboundPresence n envelope).2 = !n.presenceEvents.isStale r.userId r.timestamp ∧
      (handleInboundPresence n envelope).1.presenceEvents =
        (n.presenceEvents.recordEvent r.userId r.timestamp).1 := by
  obtain ⟨-, -, htimestamp, huserNe, hstatusNe, huser, hstatus⟩ :=
    PresenceRecord.ofEnvelope_eq_some h
  have hnamed : ¬ (r.userId = "" ∨ r.status = "") := by
    rw [not_or]
    exact ⟨huserNe, hstatusNe⟩
  simp only [handleInboundPresence, huser, hstatus, if_neg hnamed, presence, Bool.true_and,
    if_true, htimestamp]
  cases hstale : n.presenceEvents.isStale r.userId r.timestamp with
  | true =>
      rw [if_pos rfl, PresenceEventTracker.recordEvent_of_stale hstale]
      exact ⟨rfl, rfl⟩
  | false =>
      rw [if_neg Bool.false_ne_true]
      exact ⟨rfl, Node.deliver_presenceEvents _ _ _⟩

/-- Only a presence event that says something reaches the tracker. -/
theorem deliverInbound_presenceEvents (channel : Channel)
    (h : PresenceRecord.ofEnvelope envelope = none) :
    (deliverInbound n channel envelope).1.presenceEvents = n.presenceEvents := by
  rw [deliverInbound]
  split
  · split
    · rfl
    · split
      · rfl
      · exact Node.deliver_presenceEvents _ _ _
  · split
    · rfl
    · split
      · rfl
      · exact Node.deliver_presenceEvents _ _ _
  · rename_i htype
    rw [PresenceRecord.ofEnvelope, if_pos htype] at h
    rw [handleInboundPresence]
    split
    · rename_i userId status huser hstatus
      simp only [huser, hstatus] at h
      split at h
      · rename_i hblank
        rw [if_pos hblank]
      · cases h
    · rfl
  · rfl

/-- An event of another node that says something about a user is accepted if it is new to
the cache and to the tracker. -/
theorem handleInboundRedisEvent_presence {r : PresenceRecord} (channel : Channel)
    (event : foreignEvent cfg raw tick = some envelope)
    (about : PresenceRecord.ofEnvelope envelope = some r)
    (presence : n.memberships.presence = true) :
    ((handleInboundRedisEvent cfg n channel raw tick).2 = true ↔
        ¬ n.idempotencyManager.Hits cfg.idempotency envelope.eventId tick.now ∧
          n.presenceEvents.isStale r.userId r.timestamp = false) ∧
      (handleInboundRedisEvent cfg n channel raw tick).1.presenceEvents =
        if (handleInboundRedisEvent cfg n channel raw tick).2 = true then
          (n.presenceEvents.recordEvent r.userId r.timestamp).1
        else n.presenceEvents := by
  rw [handleInboundRedisEvent_of_some event]
  simp only
  by_cases hhit : n.idempotencyManager.Hits cfg.idempotency envelope.eventId tick.now
  · rw [if_pos ((IdempotencyManager.check_isDuplicate_iff _).mpr hhit)]
    simp [hhit]
  · have hnew : ¬ (n.idempotencyManager.check cfg.idempotency envelope.eventId envelope.payload
        tick.now).2.isDuplicate = true :=
      fun hdup => hhit ((IdempotencyManager.check_isDuplicate_iff _).mp hdup)
    rw [if_neg hnew]
    obtain ⟨htype, -⟩ := PresenceRecord.ofEnvelope_eq_some about
    simp only [deliverInbound, htype]
    obtain ⟨hflag, htracker⟩ := handleInboundPresence_of_record
      (n := ({ n with idempotencyManager := (n.idempotencyManager.check cfg.idempotency
        envelope.eventId envelope.payload tick.now).1 } : Node).recordAck cfg envelope
          (distributedAck envelope tick.reply) tick.now) about presence
    rw [hflag, htracker]
    cases hstale : n.presenceEvents.isStale r.userId r.timestamp with
    | true =>
        have hrecord := PresenceEventTracker.recordEvent_of_stale hstale
        simp [Node.recordAck, hstale, hrecord]
    | false => simp [Node.recordAck, hstale, hhit]

theorem handleInboundRedisEvent_presenceEvents (channel : Channel)
    (event : foreignEvent cfg raw tick = some envelope)
    (about : PresenceRecord.ofEnvelope envelope = none) :
    (handleInboundRedisEvent cfg n channel raw tick).1.presenceEvents = n.presenceEvents := by
  rw [handleInboundRedisEvent_of_some event]
  simp only
  split
  · rfl
  · exact deliverInbound_presenceEvents channel about

/-- An event that is not processed is sent to nobody. -/
theorem deliverInbound_refused (channel : Channel)
    (h : (deliverInbound n channel envelope).2 = false) :
    (deliverInbound n channel envelope).1 = n := by
  rw [deliverInbound] at h ⊢
  split at h
  · split at h
    · rfl
    · split at h
      · rename_i hblank
        rw [if_pos hblank]
      · cases h
  · split at h
    · rfl
    · split at h
      · rename_i hblank
        rw [if_pos hblank]
      · cases h
  · rw [handleInboundPresence] at h ⊢
    split at h
    · split at h
      · rename_i hblank
        rw [if_pos hblank]
      · rename_i hnamed
        split at h
        · rename_i hstale
          rw [if_neg hnamed, if_pos hstale]
        · cases h
    · rfl
  · rfl

theorem handleInboundRedisEvent_refused {channel : Channel}
    (h : (handleInboundRedisEvent cfg n channel raw tick).2 = false) :
    (handleInboundRedisEvent cfg n channel raw tick).1.sockets = n.sockets := by
  cases hevent : foreignEvent cfg raw tick with
  | none => rw [handleInboundRedisEvent_of_none hevent]
  | some envelope =>
      rw [handleInboundRedisEvent_of_some hevent] at h ⊢
      simp only at h ⊢
      split at h
      · rename_i hdup
        rw [if_pos hdup]
      · rename_i hnew
        rw [if_neg hnew, deliverInbound_refused channel h]
        rfl

end MessageDispatcher

namespace Node

variable {cfg : ServerConfig} {n n' : Node} {e : NodeEvent} {log : List Arrival}

/-- Only events of other nodes reach the tracker. -/
theorem step_presenceEvents (h : n.step cfg e = some n') (presence : n.memberships.presence = true)
    (own : ∀ channel raw tick, e ≠ .redisMessage channel raw tick) :
    n'.presenceEvents = n.presenceEvents := by
  cases e with
  | connect connection tick =>
      simp only [step] at h
      split at h
      · cases h
      · cases h
        exact sendReply_presenceEvents _ _ _
  | frame connectionId raw tick =>
      rw [step, Option.map_eq_some_iff] at h
      obtain ⟨sender, -, rfl⟩ := h
      exact dispatchRawMessage_presenceEvents cfg n sender raw tick
  | resume i online tick =>
      rw [step, Option.map_eq_some_iff] at h
      obtain ⟨k, -, rfl⟩ := h
      exact runHandler_presenceEvents _ _ _
  | close connectionId =>
      rw [step, Option.map_eq_some_iff] at h
      obtain ⟨connection, -, rfl⟩ := h
      rfl
  | redisMessage channel raw tick => exact absurd rfl (own channel raw tick)
  | subscriptionSettled i accepted =>
      simp only [step, Option.bind_eq_bind, Option.bind_eq_some_iff, Option.pure_def,
        Option.some.injEq] at h
      obtain ⟨s, -, s', -, rfl⟩ := h
      rfl
  | publishSettled =>
      cases h
      rfl
  | link connected =>
      cases h
      rfl
  | setPresenceManager =>
      rw [step, if_pos presence] at h
      cases h
  | transport connectionId readyState bufferedAmount sendFails =>
      simp only [step, transport] at h
      split at h
      · cases h
        rfl
      · cases h

/-- Whether an event of another node is processed. -/
def processes (cfg : ServerConfig) (n : Node) : NodeEvent → Bool
  | .redisMessage channel raw tick => (handleInboundRedisEvent cfg n channel raw tick).2
  | _ => false

/-- The event that reaches the cache. -/
def arrivals (cfg : ServerConfig) (n : Node) (e : NodeEvent) : List Arrival :=
  ((n.cacheUse cfg e).map fun u =>
    { eventId := u.envelope.eventId
      presence := PresenceRecord.ofEnvelope u.envelope
      accepted := n.processes cfg e : Arrival }).toList

/-- The inversion lemma of the event loop, for the tracker. -/
theorem step_arrivals (h : n.step cfg e = some n') (presence : n.memberships.presence = true) :
    ((∀ a ∈ n.arrivals cfg e, a.presence = none) ∧ n'.presenceEvents = n.presenceEvents) ∨
      ∃ channel raw tick envelope r accepted, e = .redisMessage channel raw tick ∧
        foreignEvent cfg raw tick = some envelope ∧
        PresenceRecord.ofEnvelope envelope = some r ∧
        n.arrivals cfg e = [{ eventId := r.eventId, presence := some r, accepted }] ∧
        (accepted = true ↔ ¬ n.idempotencyManager.Hits cfg.idempotency r.eventId tick.now ∧
          n.presenceEvents.isStale r.userId r.timestamp = false) ∧
        n'.presenceEvents =
          (if accepted = true then (n.presenceEvents.recordEvent r.userId r.timestamp).1
          else n.presenceEvents) ∧
        (accepted = false → n'.sockets = n.sockets) := by
  by_cases hredis : ∃ channel raw tick, e = .redisMessage channel raw tick
  · obtain ⟨channel, raw, tick, rfl⟩ := hredis
    cases h
    cases hevent : foreignEvent cfg raw tick with
    | none =>
        refine Or.inl ⟨?_, by rw [handleInboundRedisEvent_of_none hevent]⟩
        simp [arrivals, cacheUse, redisUse, hevent]
    | some envelope =>
        cases habout : PresenceRecord.ofEnvelope envelope with
        | none =>
            refine Or.inl ⟨?_, handleInboundRedisEvent_presenceEvents channel hevent habout⟩
            simp [arrivals, cacheUse, redisUse, hevent, habout]
        | some r =>
            obtain ⟨haccepted, htracker⟩ := handleInboundRedisEvent_presence channel hevent habout
              presence
            obtain ⟨-, hid, -⟩ := PresenceRecord.ofEnvelope_eq_some habout
            rw [hid] at haccepted
            refine Or.inr ⟨channel, raw, tick, envelope, r, _, rfl, hevent, habout, ?_, haccepted,
              htracker, handleInboundRedisEvent_refused⟩
            simp [arrivals, cacheUse, redisUse, hevent, habout, hid, processes]
  · have hown : ∀ channel raw tick, e ≠ .redisMessage channel raw tick :=
      fun channel raw tick heq => hredis ⟨channel, raw, tick, heq⟩
    refine Or.inl ⟨?_, step_presenceEvents h presence hown⟩
    intro a ha
    rw [arrivals, Option.mem_toList, Option.map_eq_some_iff] at ha
    obtain ⟨u, huse, rfl⟩ := ha
    cases e with
    | frame connectionId raw tick =>
        -- A frame uses the cache only for messages.
        rw [cacheUse, Option.bind_eq_some_iff] at huse
        obtain ⟨sender, -, huse⟩ := huse
        rw [frameUse, Option.map_eq_some_iff] at huse
        obtain ⟨envelope, hreceived, rfl⟩ := huse
        refine PresenceRecord.ofEnvelope_of_type fun htype => ?_
        have hmessage := (receivedMessage_eq_some.mp hreceived).2
        rw [htype] at hmessage
        cases hmessage
    | redisMessage channel raw tick => exact absurd rfl (hown channel raw tick)
    | _ => cases huse

end Node

/-- The events about `u` are among the given ones, whose ids stand for nothing else, and there
are events about the given users only. -/
def Arrival.Admissible (users : Finset UserId) (events : Finset PresenceRecord) (u : UserId)
    (a : Arrival) : Prop :=
  (∀ r ∈ a.presence, r.userId ∈ users ∧ (r.userId = u → r ∈ events)) ∧
    ∀ r ∈ events, a.eventId = r.eventId → a.presence = some r

instance (users : Finset UserId) (events : Finset PresenceRecord) (u : UserId) (a : Arrival) :
    Decidable (a.Admissible users events u) :=
  inferInstanceAs (Decidable (_ ∧ _))

namespace Node

variable {cfg : ServerConfig} {n n' : Node} {e : NodeEvent} {log : List Arrival}
variable {users : Finset UserId} {events : Finset PresenceRecord} {u : UserId}

/-- The node against the log of what arrived: the accepted events about `u` are the records
of the arrived ones, and the tracker knows the last of them. -/
structure Follows (cfg : ServerConfig) (users : Finset UserId) (events : Finset PresenceRecord)
    (u : UserId) (n : Node) (log : List Arrival) : Prop where
  wellFormed : n.memberships.WellFormed
  presence : n.memberships.presence = true
  holds : n.presenceEvents.Holds users
  admissible : ∀ a ∈ log, a.Admissible users events u
  cached : ∃ touches, Sourced cfg.idempotency n.idempotencyManager touches ∧
    AcksLogged touches ∧ ∀ id ∈ touchedIds touches, ∃ a ∈ log, a.eventId = id
  accepted : acceptedAbout u log = records PresenceRecord.rank (arrivedAbout u log)
  lastSeen : n.presenceEvents.lastSeenTimestamps.get? u =
    (acceptedAbout u log).getLast?.map (·.timestamp)
  forwarded : ∀ c, (presenceFrames u (n.sockets c).sent).Sublist (acceptedAbout u log)

theorem Follows.cached_step (h : n.Follows cfg users events u log)
    (hstep : n.step cfg e = some n') :
    ∃ touches, Sourced cfg.idempotency n'.idempotencyManager touches ∧ AcksLogged touches ∧
      ∀ id ∈ touchedIds touches, ∃ a ∈ log ++ n.arrivals cfg e, a.eventId = id := by
  obtain ⟨earlier, hsourced, hacks, hids⟩ := h.cached
  refine ⟨earlier ++ n.touches cfg e, sourced_step hsourced hstep, hacks.append_touches cfg n e, ?_⟩
  intro id hid
  rw [touchedIds, List.map_append, List.mem_append] at hid
  rcases hid with hid | hid
  · obtain ⟨a, ha, heq⟩ := hids id hid
    exact ⟨a, List.mem_append_left _ ha, heq⟩
  · obtain ⟨touch, htouch, rfl⟩ := List.mem_map.mp hid
    rw [touches] at htouch
    cases huse : n.cacheUse cfg e with
    | none =>
        rw [huse] at htouch
        cases htouch
    | some use =>
        rw [huse] at htouch
        have harrived : { eventId := use.envelope.eventId
                          presence := PresenceRecord.ofEnvelope use.envelope
                          accepted := n.processes cfg e : Arrival } ∈ n.arrivals cfg e := by
          rw [arrivals, huse]
          exact List.mem_singleton_self _
        exact ⟨_, List.mem_append_right _ harrived, (IdempotencyUse.touch_eventId htouch).symm⟩

/-- The presence frame of an event is the one of another node that arrived. -/
theorem Outgoing.presence {frames : ConnectionId → List PulseEventEnvelope}
    {touched : List CacheTouch}
    (h : Outgoing cfg n e frames)
    (sourced : Sourced cfg.idempotency n.idempotencyManager touched) (acks : AcksLogged touched)
    (c : ConnectionId) :
    (presenceFrames u (frames c)).Sublist (arrivedAbout u (n.arrivals cfg e)) := by
  by_cases hredis : ∃ channel raw tick, e = .redisMessage channel raw tick
  · obtain ⟨channel, raw, tick, rfl⟩ := hredis
    cases h with
    | silent => exact List.nil_sublist _
    | inbound event new type distinct =>
        simp only [Socket.framesToAll]
        split
        · simp [presenceFrames, arrivedAbout, arrivals, cacheUse, redisUse, event,
            Arrival.presenceOf, List.filterMap_cons]
        · exact List.nil_sublist _
  · have hnone : presenceFrames u (frames c) = [] := by
      rw [presenceFrames, List.filterMap_eq_nil_iff]
      intro f hf
      have htype : f.type ≠ .presenceUpdate := by
        rcases h.origin sourced acks hf with hreply | ⟨connectionId, sender, raw, tick, -, -, hm⟩ |
          ⟨channel, raw, tick, heq, -⟩
        · intro heq
          rw [heq] at hreply
          revert hreply
          decide
        · have hmessage := (acceptedMessage_eq_some.mp hm).2.isMessage
          intro heq
          rw [heq] at hmessage
          cases hmessage
        · exact absurd ⟨channel, raw, tick, heq⟩ hredis
      rw [PresenceRecord.ofEnvelope_of_type htype]
      rfl
    rw [hnone]
    exact List.nil_sublist _

theorem Follows.presenceFrames_step (h : n.Follows cfg users events u log)
    (hstep : n.step cfg e = some n') (c : ConnectionId) :
    (presenceFrames u (n'.sockets c).sent).Sublist
      (presenceFrames u (n.sockets c).sent ++ arrivedAbout u (n.arrivals cfg e)) := by
  obtain ⟨frames, houtgoing, hsends⟩ := step_sends h.wellFormed hstep
  obtain ⟨l, hl, hsent⟩ := hsends c
  obtain ⟨touches, hsourced, hacks, -⟩ := h.cached
  rw [hsent, presenceFrames_append]
  exact List.Sublist.append ((socketsAt_sent n e c).filterMap _)
    ((hl.filterMap _).trans (houtgoing.presence hsourced hacks c))

theorem Follows.unchanged (h : n.Follows cfg users events u log)
    (hstep : n.step cfg e = some n')
    (admissible : ∀ a ∈ n.arrivals cfg e, a.Admissible users events u)
    (silent : ∀ a ∈ n.arrivals cfg e, a.presence = none)
    (tracker : n'.presenceEvents = n.presenceEvents) :
    n'.Follows cfg users events u (log ++ n.arrivals cfg e) := by
  have hnobody : ∀ a ∈ n.arrivals cfg e, a.presenceOf u = none := by
    intro a ha
    rw [Arrival.presenceOf, silent a ha]
    rfl
  have harrived : arrivedAbout u (log ++ n.arrivals cfg e) = arrivedAbout u log := by
    rw [arrivedAbout_append, arrivedAbout, arrivedAbout, List.filterMap_eq_nil_iff.mpr hnobody,
      List.append_nil]
  have haccepted : acceptedAbout u (log ++ n.arrivals cfg e) = acceptedAbout u log := by
    have hnil : acceptedAbout u (n.arrivals cfg e) = [] :=
      List.filterMap_eq_nil_iff.mpr fun a ha => hnobody a (List.mem_of_mem_filter ha)
    rw [acceptedAbout_append, hnil, List.append_nil]
  have hnew : arrivedAbout u (n.arrivals cfg e) = [] := List.filterMap_eq_nil_iff.mpr hnobody
  refine ⟨wellFormed_step cfg n e n' h.wellFormed hstep,
    Memberships.presence_effect h.presence (step_effect hstep), tracker ▸ h.holds, ?_,
    h.cached_step hstep, ?_, ?_, ?_⟩
  · exact fun a ha => (List.mem_append.mp ha).elim (h.admissible a) (admissible a)
  · rw [haccepted, harrived, h.accepted]
  · rw [haccepted, tracker, h.lastSeen]
  · intro c
    rw [haccepted]
    have hframes := h.presenceFrames_step hstep c
    rw [hnew, List.append_nil] at hframes
    exact hframes.trans (h.forwarded c)

/-- A copy of an event that the cache knows is not newer than the last accepted one. -/
theorem Follows.le_last_of_hit (h : n.Follows cfg users events u log) {r : PresenceRecord}
    {now : Int} (mem : r ∈ events) (user : r.userId = u)
    (hit : n.idempotencyManager.Hits cfg.idempotency r.eventId now) :
    ∃ last, (acceptedAbout u log).getLast? = some last ∧ r.rank ≤ last.rank := by
  obtain ⟨touches, hsourced, -, hids⟩ := h.cached
  obtain ⟨entry, hentry, -⟩ := hit
  obtain ⟨envelope, hmem, hid, -⟩ := hsourced _ entry hentry
  obtain ⟨a, ha, heq⟩ := hids _ (mem_touchedIds_of_recorded hmem)
  have hpresence : a.presence = some r := (h.admissible a ha).2 r mem (heq.trans hid)
  have harrived : r ∈ arrivedAbout u log := by
    refine List.mem_filterMap.mpr ⟨a, ha, ?_⟩
    rw [Arrival.presenceOf, hpresence]
    simp [user]
  rw [h.accepted]
  exact le_last_record PresenceRecord.rank harrived

/-- An event is stale if it is not newer than the last accepted one. -/
theorem Follows.isStale_iff (h : n.Follows cfg users events u log) {r : PresenceRecord}
    (user : r.userId = u) (named : r.userId ≠ "") :
    n.presenceEvents.isStale r.userId r.timestamp = true ↔
      ∃ last, (acceptedAbout u log).getLast? = some last ∧ r.rank ≤ last.rank := by
  rw [PresenceEventTracker.isStale_iff named, user, h.lastSeen]
  constructor
  · rintro ⟨lastSeen, hlast, hle⟩
    obtain ⟨last, hfound, rfl⟩ := Option.map_eq_some_iff.mp hlast
    exact ⟨last, hfound, (Number.le_iff_rank_le _ _).mp hle⟩
  · rintro ⟨last, hlast, hle⟩
    exact ⟨last.timestamp, by rw [hlast, Option.map_some], (Number.le_iff_rank_le _ _).mpr hle⟩

/-- An event about another user leaves the last one about `u` in the tracker. -/
theorem Follows.get?_recordEvent_other (h : n.Follows cfg users events u log)
    {r : PresenceRecord} (known : r.userId ∈ users) (other : r.userId ≠ u) :
    (n.presenceEvents.recordEvent r.userId r.timestamp).1.lastSeenTimestamps.get? u =
      n.presenceEvents.lastSeenTimestamps.get? u := by
  cases hstale : n.presenceEvents.isStale r.userId r.timestamp with
  | true => rw [PresenceEventTracker.recordEvent_of_stale hstale]
  | false =>
      rw [PresenceEventTracker.get?_recordEvent h.holds known hstale, if_neg (Ne.symm other)]

/-- What the arrival of an event about `u` itself does: it is accepted if it is newer than
all accepted ones, and becomes the last of them. -/
theorem Follows.accept (h : n.Follows cfg users events u log) {r : PresenceRecord}
    {accepted : Bool} {now : Int} (mem : r ∈ events) (user : r.userId = u) (named : r.userId ≠ "")
    (flag : accepted = true ↔ ¬ n.idempotencyManager.Hits cfg.idempotency r.eventId now ∧
      n.presenceEvents.isStale r.userId r.timestamp = false) :
    record PresenceRecord.rank (acceptedAbout u log) r =
      acceptedAbout u log ++ (if accepted = true then [r] else []) := by
  cases accepted with
  | true =>
      have hfresh := (flag.mp rfl).2
      rw [if_pos rfl]
      refine record_of_newer fun last hlast => ?_
      by_contra hle
      have hstale := (h.isStale_iff user named).mpr ⟨last, hlast, not_lt.mp hle⟩
      rw [hfresh] at hstale
      cases hstale
  | false =>
      have hold : ∃ last, (acceptedAbout u log).getLast? = some last ∧ r.rank ≤ last.rank := by
        by_cases hhit : n.idempotencyManager.Hits cfg.idempotency r.eventId now
        · exact h.le_last_of_hit mem user hhit
        · refine (h.isStale_iff user named).mp (Bool.eq_true_of_not_eq_false fun hfresh => ?_)
          exact Bool.false_ne_true (flag.mpr ⟨hhit, hfresh⟩)
      obtain ⟨last, hlast, hle⟩ := hold
      rw [if_neg Bool.false_ne_true, List.append_nil]
      exact record_of_le hlast hle

theorem Follows.step (h : n.Follows cfg users events u log) (hstep : n.step cfg e = some n')
    (admissible : ∀ a ∈ n.arrivals cfg e, a.Admissible users events u) :
    n'.Follows cfg users events u (log ++ n.arrivals cfg e) := by
  rcases step_arrivals hstep h.presence with ⟨hsilent, htracker⟩ |
    ⟨channel, raw, tick, envelope, r, accepted, -, -, habout, harrivals, hflag, htracker,
      hrefused⟩
  · exact h.unchanged hstep admissible hsilent htracker
  · obtain ⟨-, -, -, hnamed, -⟩ := PresenceRecord.ofEnvelope_eq_some habout
    have hframes := h.presenceFrames_step hstep
    have hcached := h.cached_step hstep
    rw [harrivals] at admissible hframes hcached ⊢
    obtain ⟨hknown, hevent⟩ := (admissible _ (List.mem_singleton_self _)).1 r rfl
    have hadmissible : ∀ a ∈ log ++ [{ eventId := r.eventId, presence := some r, accepted }],
        a.Admissible users events u :=
      fun a ha => (List.mem_append.mp ha).elim (h.admissible a) (admissible a)
    have hholds : n'.presenceEvents.Holds users := by
      rw [htracker]
      split
      · exact h.holds.recordEvent hknown r.timestamp
      · exact h.holds
    have hpresence := Memberships.presence_effect h.presence (step_effect hstep)
    have hwellFormed := wellFormed_step cfg n e n' h.wellFormed hstep
    by_cases huser : r.userId = u
    · have harrived : arrivedAbout u [{ eventId := r.eventId, presence := some r, accepted }] =
          [r] := by
        rw [arrivedAbout_singleton, if_pos huser]
      have hnew : acceptedAbout u [{ eventId := r.eventId, presence := some r, accepted }] =
          if accepted = true then [r] else [] := by
        simp only [acceptedAbout_singleton, huser, and_true]
      have haccept := h.accept (hevent huser) huser hnamed hflag
      refine ⟨hwellFormed, hpresence, hholds, hadmissible, hcached, ?_, ?_, ?_⟩
      · rw [acceptedAbout_append, arrivedAbout_append, hnew, harrived, records_append,
          ← h.accepted, haccept]
      · rw [acceptedAbout_append, hnew, htracker]
        cases accepted with
        | true =>
            rw [if_pos rfl, if_pos rfl, List.getLast?_concat, ← huser,
              PresenceEventTracker.get?_recordEvent h.holds hknown (hflag.mp rfl).2, if_pos rfl]
            rfl
        | false =>
            rw [if_neg Bool.false_ne_true, if_neg Bool.false_ne_true, List.append_nil]
            exact h.lastSeen
      · intro c
        rw [acceptedAbout_append, hnew]
        cases accepted with
        | true =>
            have hsublist := hframes c
            rw [harrived] at hsublist
            exact hsublist.trans ((h.forwarded c).append (List.Sublist.refl _))
        | false =>
            rw [hrefused rfl, if_neg Bool.false_ne_true, List.append_nil]
            exact h.forwarded c
    · have harrived : arrivedAbout u [{ eventId := r.eventId, presence := some r, accepted }] =
          [] := by
        rw [arrivedAbout_singleton, if_neg huser]
      have hnew : acceptedAbout u [{ eventId := r.eventId, presence := some r, accepted }] =
          [] := by
        rw [acceptedAbout_singleton, if_neg fun h => huser h.2]
      refine ⟨hwellFormed, hpresence, hholds, hadmissible, hcached, ?_, ?_, ?_⟩
      · rw [acceptedAbout_append, arrivedAbout_append, hnew, harrived, List.append_nil,
          List.append_nil, h.accepted]
      · rw [acceptedAbout_append, hnew, List.append_nil, htracker, ← h.lastSeen]
        split
        · exact h.get?_recordEvent_other hknown huser
        · rfl
      · intro c
        have hsublist := hframes c
        rw [harrived, List.append_nil] at hsublist
        rw [acceptedAbout_append, hnew, List.append_nil]
        exact hsublist.trans (h.forwarded c)

/-- A node with a presence manager that tracks so many users. -/
def withTracker (redis : Option Bool) (maxUsers : Nat) : Node :=
  { initial redis true with presenceEvents := { maxUsers } }

theorem follows_withTracker (cfg : ServerConfig) (redis : Option Bool) {maxUsers : Nat}
    (room : users.card ≤ maxUsers) :
    (withTracker redis maxUsers).Follows cfg users events u [] where
  wellFormed := wellFormed_initial redis true
  presence := rfl
  holds := ⟨fun _ h => absurd h List.not_mem_nil, room⟩
  admissible := fun _ h => absurd h List.not_mem_nil
  cached := by
    refine ⟨[], ?_, fun _ _ _ h => absurd h List.not_mem_nil, fun _ h => absurd h List.not_mem_nil⟩
    intro id entry h
    simp [withTracker, initial] at h
  accepted := rfl
  lastSeen := rfl
  forwarded := fun _ => List.nil_sublist _

/-- The accepted events about `u` come in the order of their timestamps, the last of them is
not older than anything that arrived, and connections are sent accepted events only. -/
structure Monotone (u : UserId) (s : Node × List Arrival) : Prop where
  increasing : (acceptedAbout u s.2).Pairwise fun r r' => r.rank < r'.rank
  newest : ∀ r ∈ arrivedAbout u s.2,
    ∃ last, (acceptedAbout u s.2).getLast? = some last ∧ r.rank ≤ last.rank
  forwarded : ∀ c, (presenceFrames u (s.1.sockets c).sent).Sublist (acceptedAbout u s.2)

theorem Follows.monotone (h : n.Follows cfg users events u log) : Monotone u (n, log) where
  increasing := by
    show (acceptedAbout u log).Pairwise _
    rw [h.accepted]
    exact records_pairwise _
  newest := by
    intro r hr
    show ∃ last, (acceptedAbout u log).getLast? = some last ∧ _
    rw [h.accepted]
    exact le_last_record PresenceRecord.rank hr
  forwarded := h.forwarded

/-- Whatever arrives at a family of nodes, in whatever order and however often, as long as
event ids stand for one event each and no tracker is too small: every node accepts the
events about a user in the order of their timestamps, and every node at which all of them
arrived ends with the newest. -/
theorem presence_converges {ι : Type*} (cfg : ι → ServerConfig) (redis : ι → Option Bool)
    (maxUsers : ι → Nat) (users : Finset UserId) (room : ∀ i, users.card ≤ maxUsers i)
    (u : UserId) (events : Finset PresenceRecord)
    (distinct : ∀ r ∈ events, ∀ r' ∈ events, r.rank = r'.rank → r = r')
    (es : ι → List NodeEvent)
    (admissible : ∀ i, EveryStep (logging (step (cfg i)) (arrivals (cfg i)))
      (fun s e _ => ∀ a ∈ s.1.arrivals (cfg i) e, a.Admissible users events u)
      (withTracker (redis i) (maxUsers i), []) (es i)) :
    (∀ i, Always (logging (step (cfg i)) (arrivals (cfg i))) (Monotone u)
      (withTracker (redis i) (maxUsers i), []) (es i)) ∧
    (events.Nonempty → ∃ newest ∈ events, (∀ r ∈ events, r.rank ≤ newest.rank) ∧
      ∀ i s, run (logging (step (cfg i)) (arrivals (cfg i)))
          (withTracker (redis i) (maxUsers i), []) (es i) = some s →
        (∀ r ∈ events, r ∈ arrivedAbout u s.2) → (acceptedAbout u s.2).getLast? = some newest) := by
  have halways : ∀ i, Always (logging (Node.step (cfg i)) (arrivals (cfg i)))
      (fun s => s.1.Follows (cfg i) users events u s.2)
      (withTracker (redis i) (maxUsers i), []) (es i) := by
    intro i
    refine always_of_everyStep ?_ (follows_withTracker (cfg i) (redis i) (room i)) (admissible i)
    intro s e t h hstep hadmissible
    rw [logging, Option.map_eq_some_iff] at hstep
    obtain ⟨n', hn', rfl⟩ := hstep
    exact h.step hn' hadmissible
  refine ⟨fun i => (halways i).mono fun s h => h.monotone, fun hevents => ?_⟩
  obtain ⟨newest, hnewest, hgreatest⟩ := events.exists_max_image PresenceRecord.rank hevents
  refine ⟨newest, hnewest, hgreatest, fun i s hrun harrived => ?_⟩
  have hfollows := (halways i).final hrun
  have hevent : ∀ r ∈ arrivedAbout u s.2, r ∈ events := by
    intro r hr
    obtain ⟨a, ha, hpresence⟩ := List.mem_filterMap.mp hr
    obtain ⟨hsome, huser⟩ := Option.filter_eq_some_iff.mp hpresence
    exact ((hfollows.admissible a ha).1 r hsome).2 (of_decide_eq_true huser)
  rw [hfollows.accepted]
  refine last_record_eq (harrived newest hnewest) (fun r hr => hgreatest r (hevent r hr)) ?_
  exact fun r hr heq => distinct r (hevent r hr) newest hnewest heq

def trackerConfig (i : Bool) : ServerConfig :=
  { instanceId := if i then "node-b" else "node-c"
    idempotency := { capacity := 10, digest := id } }

/-- What node `node-a` publishes about a user. -/
def presenceEvent (eventId : EventId) (userId : UserId) (status : String) (timestamp : Int) :
    NodeEvent :=
  .redisMessage CHANNEL_PRESENCE_EVENTS
    (some (PulseEventEnvelope.toJson
      { eventId, type := .presenceUpdate, timestamp := .ofInt timestamp, senderId := "system"
        payload := [("userId", .str userId), ("status", .str status)]
        originInstanceId := some "node-a" }))
    { now := 0, frameId := "unused", replyId := "unused" }

/-- Alice goes online and offline again. The first node learns of it in this order, the second
the other way round, with a repetition and news of Bob in between. -/
def aliceRun (i : Bool) : List NodeEvent :=
  let online := presenceEvent "e1" "alice" "ONLINE" 10
  let offline := presenceEvent "e2" "alice" "OFFLINE" 20
  if i then [online, offline]
  else [offline, presenceEvent "e3" "bob" "ONLINE" 15, online, offline]

def aliceRecords : Finset PresenceRecord :=
  {{ eventId := "e1", userId := "alice", status := "ONLINE", timestamp := .ofInt 10 },
    { eventId := "e2", userId := "alice", status := "OFFLINE", timestamp := .ofInt 20 }}

theorem presence_converges_two_nodes :
    (∀ i, Always (logging (step (trackerConfig i)) (arrivals (trackerConfig i)))
      (Monotone "alice") (withTracker none 2, []) (aliceRun i)) ∧
    (aliceRecords.Nonempty → ∃ newest ∈ aliceRecords,
      (∀ r ∈ aliceRecords, r.rank ≤ newest.rank) ∧
      ∀ i s, run (logging (step (trackerConfig i)) (arrivals (trackerConfig i)))
          (withTracker none 2, []) (aliceRun i) = some s →
        (∀ r ∈ aliceRecords, r ∈ arrivedAbout "alice" s.2) →
          (acceptedAbout "alice" s.2).getLast? = some newest) :=
  presence_converges trackerConfig (fun _ => none) (fun _ => 2) {"alice", "bob"}
    (fun _ => by decide) "alice" aliceRecords (by decide +kernel) aliceRun (by decide +kernel)

end Node

end Pulse
