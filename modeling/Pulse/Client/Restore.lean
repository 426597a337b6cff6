import Pulse.Client.Connected
import Pulse.Client.InSequence
import Pulse.Client.Settlement
import Pulse.Core.Rejoining

/-!
# Rooms after a reconnect

A session that reconnects asks for all of its desired rooms in one request, and counts as
connected when the promise of this request is settled, by whatever it is. `Restoring`
says what has happened on the new connection until then: the node handles nothing on it
that could get in the way of the request, and once the promise is settled the connection
is in every desired room.
-/

namespace Pulse

open Collections Js Transition MessageDispatcher Node Memberships

/-- A reconnect of a session. -/
structure Reconnect where
  connectionId : ConnectionId
  desiredRooms : OrderedSet RoomId
  /-- The correlation id of the request for these rooms. -/
  correlationId : String
  /-- The number of requests for rooms that are still suspended from earlier connections. -/
  earlier : Nat

namespace Reconnect

/-- The desired rooms under the names by which the node knows them. -/
def rooms (r : Reconnect) : List RoomId := r.desiredRooms.toList.map trim

/-- The request for the desired rooms is the only one with its correlation id. -/
def Marks (r : Reconnect) (f : PulseEventEnvelope) : Prop :=
  f.correlationId = some r.correlationId → f.type = .roomBatchJoin ∧
    f.payload = [("rooms", .arr (r.desiredRooms.toList.map .str))] ∧ f.seq ≠ some 0 ∧
      f.originInstanceId = none ∧ f.originTimestampMs = none

end Reconnect

/-- A frame on the new connection, when the node handles it. It is named, and spares the
desired rooms, unless it is the request for them. The first copy of this request is neither
dropped by the rate limiter nor overtaken. -/
def Delivery.Undisturbing (r : Reconnect) (n : Node) (d : Delivery) : Prop :=
  (∀ envelope ∈ (receive n d.sender (some d.frame.toJson) d.tick).2.toOption,
    envelope.correlationId.getD "" ≠ "" ∧
      (envelope.correlationId = some r.correlationId ∨ Spares r.rooms envelope)) ∧
    (d.frame.correlationId = some r.correlationId →
      (∀ f ∈ d.earlier, f.correlationId ≠ some r.correlationId) →
        Granted n d.sender d.tick ∧ ¬ d.Overtaken)

instance (r : Reconnect) (n : Node) (d : Delivery) : Decidable (d.Undisturbing r n) :=
  inferInstanceAs (Decidable ((∀ envelope ∈ (receive n d.sender (some d.frame.toJson)
    d.tick).2.toOption, _ ∧ (_ ∨ _)) ∧ (_ → (∀ f ∈ d.earlier, _) → _ ∧ ¬ _)))

namespace PulseClientSession

/-- The timer gives up the request for the desired rooms. -/
def GivesUp (o : SessionOptions) (r : Reconnect) (s : PulseClientSession) (timer : Nat) : Prop :=
  ∃ t ∈ s.ackTimers.find? fun t => t.id = timer, ∃ entry ∈ s.entries[t.entry]?,
    entry.envelope.correlationId = some r.correlationId ∧ ¬ entry.retries < o.maxRetries

instance (o : SessionOptions) (r : Reconnect) (s : PulseClientSession) (timer : Nat) :
    Decidable (s.GivesUp o r timer) :=
  inferInstanceAs (Decidable (∃ t ∈ s.ackTimers.find? _, ∃ entry ∈ _, _))

/-- What the session needs of an event for its part in a reconnect, where `restored` says
that the rooms are restored. -/
def Calm (o : SessionOptions) (r : Reconnect) (restored : Prop) (s : PulseClientSession) :
    SessionEvent → Prop
  | .joinRoom .. | .joinRooms .. | .leaveRoom .. | .disconnect => False
  | .resubscribed i => r.earlier ≤ i
  | .ackTimeout timer => s.GivesUp o r timer → restored
  | .message _ f stamp =>
      (f.type = .sysConnectAck →
        stamp.correlationId = r.correlationId ∧ s.inFlightQueue.size < o.queueCapacity) ∧
      (f.type.isAck = true → f.correlationId = some r.correlationId → restored)
  | e => ∀ request ∈ s.submission o e, request.correlationId ≠ some r.correlationId

/-- The session in a reconnect: it resumes when the request for its rooms is settled, and
then they are restored. -/
structure Awaits (r : Reconnect) (restored : Prop) (s : PulseClientSession) : Prop where
  holds : Holds r.Marks (fun _ => True) s
  desiredRooms : s.desiredRooms = r.desiredRooms
  settled : ∀ (i : Nat) entry, s.entries[i]? = some entry →
    entry.envelope.correlationId = some r.correlationId → entry.settlement.isSome = true → restored
  awaited : ∀ (i : Nat) awaited, r.earlier ≤ i → s.resubscribing[i]? = some awaited →
    ∃ j ∈ awaited, ∃ entry ∈ s.entries[j]?, entry.envelope.correlationId = some r.correlationId
  connected : s.state = .connected → restored

variable {o : SessionOptions} {r : Reconnect} {restored : Prop} {s t : PulseClientSession}
variable {e : SessionEvent}

theorem renumbered_marks (r : Reconnect) : Renumbered r.Marks := by
  intro f seq hpos hmarks hmarked
  obtain ⟨htype, hpayload, -, horigin⟩ := hmarks hmarked
  refine ⟨htype, hpayload, ?_, horigin⟩
  intro hzero
  cases hzero
  exact absurd hpos (Nat.lt_irrefl 0)

@[simp] theorem arranged_entries (o : SessionOptions) (s : PulseClientSession)
    (e : SessionEvent) : (s.arranged o e).entries = s.entries := by
  cases e with
  | message w envelope stamp =>
      simp only [arranged]
      split <;> rfl
  | _ => rfl

theorem Awaits.mono {restored' : Prop} (h : Awaits r restored s) (imp : restored → restored') :
    Awaits r restored' s where
  holds := h.holds
  desiredRooms := h.desiredRooms
  settled := fun i entry hentry hmarked hsettled => imp (h.settled i entry hentry hmarked hsettled)
  awaited := h.awaited
  connected := fun hconnected => imp (h.connected hconnected)

/-- A promise for the desired rooms is settled when they are restored. -/
theorem Calm.settledBy (calm : Calm o r restored s e) {i : Nat} (h : s.SettledBy o e i) :
    ∃ entry ∈ s.entries[i]?,
      entry.envelope.correlationId = some r.correlationId → restored := by
  cases e with
  | message w ack stamp =>
      obtain ⟨hack, entry, hentry, hcorrelation⟩ := h
      exact ⟨entry, hentry, fun hmarked => calm.2 hack (hcorrelation.symm.trans hmarked)⟩
  | ackTimeout timer =>
      obtain ⟨t, ht, rfl, entry, hentry, hexhausted⟩ := h
      exact ⟨entry, hentry, fun hmarked => calm ⟨t, ht, entry, hentry, hmarked, hexhausted⟩⟩
  | disconnect => exact calm.elim
  | _ => exact h.elim

/-- No request but the one for the desired rooms has its correlation id. -/
theorem Awaits.requests (h : Awaits r restored s) (calm : Calm o r restored s e) :
    ∀ request ∈ s.submission o e, r.Marks request := by
  intro request hrequest hmarked
  cases e with
  | message w f stamp =>
      simp only [submission, Option.mem_def] at hrequest
      split at hrequest
      · cases hrequest
        rw [← h.desiredRooms]
        exact ⟨rfl, rfl, (Option.some_ne_none 0).symm, rfl, rfl⟩
      · cases hrequest
  | joinRoom | joinRooms | leaveRoom | disconnect => exact calm.elim
  | resubscribed | ackTimeout => cases hrequest
  | _ => exact absurd hmarked (calm request hrequest)

theorem Awaits.settled_step (h : Awaits r restored s) (calm : Calm o r restored s e)
    (keeps : Keeps (s.SettledBy o e) (s.arranged o e) t) (i : Nat) (entry : InFlightEntry)
    (hentry : t.entries[i]? = some entry)
    (hmarked : entry.envelope.correlationId = some r.correlationId)
    (hsettled : entry.settlement.isSome = true) : restored := by
  cases hold : s.entries[i]? with
  | none =>
      rcases keeps.added i entry hentry (by rw [arranged_entries, hold]) with hnone | hsettles
      · rw [hnone] at hsettled
        cases hsettled
      · obtain ⟨old, hold', -⟩ := calm.settledBy hsettles
        rw [hold] at hold'
        cases hold'
  | some old =>
      obtain ⟨entry', hentry', hcorrelation, hsettlement⟩ :=
        keeps.entries i old (by rw [arranged_entries, hold])
      cases hentry'.symm.trans hentry
      rw [hcorrelation] at hmarked
      rcases hsettlement with hsame | hsettles
      · rw [hsame] at hsettled
        exact h.settled i old hold hmarked hsettled
      · obtain ⟨old', hold', himp⟩ := calm.settledBy hsettles
        cases hold.symm.trans hold'
        exact himp hmarked

/-- The request for the desired rooms is in the table. -/
theorem resubscribed_entry {w : Nat} {f : PulseEventEnvelope} {stamp : Stamp}
    (type : f.type = .sysConnectAck) (rooms : s.desiredRooms.size > 0)
    (room : s.inFlightQueue.size < o.queueCapacity)
    (hstep : s.step o (.message w f stamp) = some t) :
    ∃ entry ∈ t.entries[s.entries.length]?,
      entry.envelope.correlationId = some stamp.correlationId := by
  simp only [step] at hstep
  split at hstep
  · cases hstep
    simp only [handleIncomingEnvelope, if_pos type, handleConnectAck, if_pos rooms,
      resubscribeRooms]
    obtain ⟨entry, hentry, henvelope⟩ := sendEnvelope_entry (o := o)
      (s := { s with
        connectionTimeoutTimer := false, reconnectAttempt := 0, lastBackoffDelay := 0
        state := .resubscribingRooms })
      (batchJoinRequest o s.desiredRooms.toList stamp) stamp.correlationId rfl room
    refine ⟨entry, hentry, ?_⟩
    rw [henvelope]
    rfl
  · cases hstep

theorem Awaits.awaited_step (h : Awaits r restored s) (calm : Calm o r restored s e)
    (keeps : Keeps (s.SettledBy o e) (s.arranged o e) t) (hstep : s.step o e = some t) (i : Nat)
    (awaited : Option Nat) (hi : r.earlier ≤ i) (hawaited : t.resubscribing[i]? = some awaited) :
    ∃ j ∈ awaited, ∃ entry ∈ t.entries[j]?,
      entry.envelope.correlationId = some r.correlationId := by
  have hkept : (∃ j ∈ awaited, ∃ entry ∈ s.entries[j]?,
      entry.envelope.correlationId = some r.correlationId) → ∃ j ∈ awaited,
        ∃ entry ∈ t.entries[j]?, entry.envelope.correlationId = some r.correlationId := by
    rintro ⟨j, hj, entry, hentry, hmarked⟩
    obtain ⟨entry', hentry', hcorrelation, -⟩ :=
      keeps.entries j entry (by rw [arranged_entries]; exact hentry)
    exact ⟨j, hj, entry', hentry', hcorrelation.trans hmarked⟩
  rw [keeps.resubscribing] at hawaited
  cases e with
  | resubscribed k =>
      simp only [arranged, List.getElem?_eraseIdx] at hawaited
      split at hawaited
      · exact hkept (h.awaited i awaited hi hawaited)
      · exact hkept (h.awaited (i + 1) awaited (Nat.le_succ_of_le hi) hawaited)
  | message w f stamp =>
      simp only [arranged] at hawaited
      split at hawaited
      · rename_i hack
        obtain ⟨hcorrelation, hroom⟩ := calm.1 hack.1
        rw [List.getElem?_append] at hawaited
        split at hawaited
        · exact hkept (h.awaited i awaited hi hawaited)
        · rw [List.getElem?_singleton, if_neg (Nat.not_le.mpr hroom)] at hawaited
          split at hawaited
          · cases hawaited
            rw [← hcorrelation]
            exact ⟨_, rfl, resubscribed_entry hack.1 hack.2 hroom hstep⟩
          · cases hawaited
      · exact hkept (h.awaited i awaited hi hawaited)
  | joinRoom | joinRooms | leaveRoom | disconnect => exact calm.elim
  | _ => exact hkept (h.awaited i awaited hi hawaited)

/-- A session is connected because it was, because it desires no room, or because the request
for its rooms is settled. -/
theorem Awaits.connected_step (h : Awaits r restored s) (calm : Calm o r restored s e)
    (roomless : r.desiredRooms.size = 0 → restored) (hstep : s.step o e = some t)
    (hconnected : t.state = .connected) : restored := by
  have hlifecycle := step_lifecycle hstep
  by_cases hresubscribed : ∃ i, e = .resubscribed i
  · obtain ⟨i, rfl⟩ := hresubscribed
    rw [step, Option.bind_eq_some_iff] at hstep
    obtain ⟨awaited, hawaited, hstep⟩ := hstep
    obtain ⟨j, hj, entry, hentry, hmarked⟩ := h.awaited i awaited calm hawaited
    split at hstep
    · rename_i hsettled
      cases hj
      rw [isSettled, Option.any_eq_true] at hsettled
      obtain ⟨entry', hentry', hsettled⟩ := hsettled
      cases hentry'.symm.trans hentry
      exact h.settled j entry hentry hmarked hsettled
    · cases hstep
  · by_cases hacknowledged : e.lifecycle s = .acknowledged false
    · refine roomless ?_
      cases e with
      | message w f stamp =>
          simp only [SessionEvent.lifecycle] at hacknowledged
          split at hacknowledged
          · rw [← h.desiredRooms]
            simpa using hacknowledged
          · cases hacknowledged
      | _ => cases hacknowledged
    · have hother : e.lifecycle s ≠ .resubscribed := by
        intro heq
        refine hresubscribed ?_
        cases e with
        | resubscribed i => exact ⟨i, rfl⟩
        | message w f stamp =>
            simp only [SessionEvent.lifecycle] at heq
            split at heq <;> cases heq
        | _ => cases heq
      have happlied : (s.lifecycle.apply o.autoReconnect (e.lifecycle s)).state = .connected := by
        rw [← hlifecycle]
        exact hconnected
      have hold : s.lifecycle.state = .connected :=
        (SessionLifecycle.apply_connected hacknowledged hother happlied).1
      exact h.connected hold

theorem Awaits.step (h : Awaits r restored s) (calm : Calm o r restored s e)
    (roomless : r.desiredRooms.size = 0 → restored) (hstep : s.step o e = some t) :
    Awaits r restored t where
  holds := by
    refine holds_step (renumbered_marks r) (fun _ _ _ h => h) h.holds (h.requests calm) ?_ hstep
    cases e <;> first | trivial | exact fun _ _ _ _ _ _ => trivial
  desiredRooms := by
    rw [(step_keeps h.holds hstep).desiredRooms, ← h.desiredRooms]
    cases e with
    | joinRoom | joinRooms | leaveRoom | disconnect => exact calm.elim
    | message w f stamp =>
        simp only [arranged]
        split <;> rfl
    | _ => rfl
  settled := h.settled_step calm (step_keeps h.holds hstep)
  awaited := h.awaited_step calm (step_keeps h.holds hstep) hstep
  connected := h.connected_step calm roomless hstep

end PulseClientSession

namespace ClientServer

/-- The node handled the request on the new connection. -/
def Requested (r : Reconnect) (s : ClientServer) : Prop :=
  ∃ link ∈ s.links, link.connectionId = r.connectionId ∧
    ∃ f ∈ (s.session.sentOn link.socket).take link.handled,
      f.correlationId = some r.correlationId

instance (r : Reconnect) (s : ClientServer) : Decidable (s.Requested r) :=
  inferInstanceAs (Decidable (∃ link ∈ s.links, _ ∧ ∃ f ∈ _, _))

/-- The node answered the request: it handled a copy, and no handler for it is suspended. -/
def Answered (r : Reconnect) (s : ClientServer) : Prop :=
  s.Requested r ∧ ∀ k ∈ s.node.memberships.suspended, k.sender.connectionId = r.connectionId →
    k.envelope.correlationId ≠ some r.correlationId

instance (r : Reconnect) (s : ClientServer) : Decidable (s.Answered r) :=
  inferInstanceAs (Decidable (_ ∧ ∀ k ∈ s.node.memberships.suspended, _))

/-- Until the session is connected: the desired rooms stay the same, the connection stays, no
earlier request for rooms goes on, and there is room for the new one in the in-flight queue.
The node answers it before it is given up. -/
def Undisturbed (o : SessionOptions) (r : Reconnect) (s : ClientServer) : LinkEvent → Prop
  | .session (.joinRoom ..) | .session (.joinRooms ..) | .session (.leaveRoom ..)
  | .session .disconnect => False
  | .session (.resubscribed i) => r.earlier ≤ i
  | .session (.ackTimeout timer) => s.session.GivesUp o r timer → s.Answered r
  | .session e => ∀ request ∈ s.session.submission o e,
      request.correlationId ≠ some r.correlationId
  | .read i stamp => ∀ link ∈ s.links[i]?,
      ∀ f ∈ (s.node.sockets link.connectionId).sent[link.read]?,
        (f.type = .sysConnectAck →
          stamp.correlationId = r.correlationId ∧ s.session.inFlightQueue.size < o.queueCapacity) ∧
        (link.connectionId ≠ r.connectionId → f.type.isAck = true →
          f.correlationId ≠ some r.correlationId)
  | .handle i tick => ∀ d ∈ s.delivery (.handle i tick), d.sender.connectionId = r.connectionId →
      d.Undisturbing r s.node
  | .node (.close connectionId) => connectionId ≠ r.connectionId
  | .node _ | .upgrade .. => True

instance (o : SessionOptions) (r : Reconnect) (s : ClientServer) (e : LinkEvent) :
    Decidable (s.Undisturbed o r e) :=
  match e with
  | .session e =>
      match e with
      | .joinRoom .. | .joinRooms .. | .leaveRoom .. | .disconnect =>
          inferInstanceAs (Decidable False)
      | .resubscribed i => inferInstanceAs (Decidable (r.earlier ≤ i))
      | .ackTimeout timer =>
          inferInstanceAs (Decidable (s.session.GivesUp o r timer → s.Answered r))
      | .connect .. | .sendEnvelope .. | .sendRoomMessage .. | .sendDirectMessage ..
      | .disconnected | .reconnectTimeout .. | .connectionTimeout _ | .opened _ | .message ..
      | .closing _ | .closed .. | .error .. =>
          inferInstanceAs (Decidable (∀ request ∈ s.session.submission o _, _))
  | .read i _ => inferInstanceAs (Decidable (∀ link ∈ s.links[i]?, ∀ f ∈ _, (_ → _) ∧ (_ → _)))
  | .handle i tick => inferInstanceAs (Decidable (∀ d ∈ s.delivery (.handle i tick), _ → _))
  | .node e =>
      match e with
      | .close connectionId => inferInstanceAs (Decidable (connectionId ≠ r.connectionId))
      | .connect .. | .frame .. | .resume .. | .redisMessage .. | .subscriptionSettled ..
      | .publishSettled | .link _ | .setPresenceManager | .transport .. =>
          inferInstanceAs (Decidable True)
  | .upgrade .. => inferInstanceAs (Decidable True)

/-- The composition until the session is connected. -/
def reconnecting (o : SessionOptions) (cfg : ServerConfig) (s : ClientServer) (e : LinkEvent) :
    Option ClientServer :=
  if s.session.state = .connected then none else s.step o cfg e

end ClientServer

end Pulse
