import Pulse.Core.BatchJoin
import Pulse.Core.Handover

/-!
# Socket states along a run

A socket goes from open over closing to closed and never back, as long as its
transport does not turn back either. The dispatcher adds to it by handing frames
over, and closes it as a slow or abusive consumer only, with code 1008. Sockets
come with new connections, and connections go with `close`.
-/

namespace Pulse

open Collections Js Memberships MessageDispatcher

/-- The place of a state on the way to `CLOSED`. -/
def ReadyState.rank : ReadyState → Nat
  | .connecting => 0
  | .open => 1
  | .closing => 2
  | .closed => 3

theorem ReadyState.rank_le_closed (r : ReadyState) : r.rank ≤ ReadyState.rank .closed := by
  cases r <;> decide

/-- The transport does not turn back. -/
def NodeEvent.Forward (n : Node) : NodeEvent → Prop
  | .transport connectionId readyState _ _ =>
      (n.sockets connectionId).readyState.rank ≤ readyState.rank
  | _ => True

instance (n : Node) : ∀ e : NodeEvent, Decidable (e.Forward n)
  | .transport connectionId readyState _ _ =>
      inferInstanceAs (Decidable ((n.sockets connectionId).readyState.rank ≤ readyState.rank))
  | .connect .. | .frame .. | .resume .. | .close _ | .redisMessage .. | .subscriptionSettled ..
  | .publishSettled | .link _ | .setPresenceManager => isTrue trivial

namespace Socket

/-- `close` for one socket. -/
def close (s : Socket) (code : Nat) (reason : String) : Socket :=
  if s.readyState = .open ∨ s.readyState = .connecting then
    { s with readyState := .closing, closeFrame := some (code, reason) }
  else s

/-- `send` for one socket. -/
def send (s : Socket) (maxBufferedAmountBytes : Nat) (envelope : PulseEventEnvelope) : Socket :=
  if s.readyState ≠ .open then s
  else if s.bufferedAmount > maxBufferedAmountBytes then
    s.close 1008 "Policy Violation: Buffer overflow / slow consumer"
  else if s.sendFails then s
  else { s with sent := s.sent ++ [envelope] }

/-- What becomes of a socket that takes or refuses frames and may be closed. -/
structure Follows (s s' : Socket) : Prop where
  rank : s.readyState.rank ≤ s'.readyState.rank
  sent : s.sent <+: s'.sent
  closeFrame : s'.closeFrame = s.closeFrame ∨ ∃ reason, s'.closeFrame = some (1008, reason)

theorem Follows.refl (s : Socket) : Follows s s :=
  ⟨le_rfl, List.prefix_rfl, Or.inl rfl⟩

theorem Follows.trans {s s' s'' : Socket} (h : Follows s s') (h' : Follows s' s'') :
    Follows s s'' where
  rank := h.rank.trans h'.rank
  sent := h.sent.trans h'.sent
  closeFrame := by
    obtain hsame | hclosed := h'.closeFrame
    · rw [hsame]
      exact h.closeFrame
    · exact Or.inr hclosed

/-- An open socket was open all the time. -/
theorem Follows.opened {s s' : Socket} (h : Follows s s') (live : s.readyState ≠ .connecting)
    (hopen : s'.readyState = .open) : s.readyState = .open := by
  have hrank := h.rank
  rw [hopen] at hrank
  cases hs : s.readyState with
  | connecting => exact absurd hs live
  | «open» => rfl
  | closing =>
      rw [hs] at hrank
      exact absurd hrank (by decide)
  | closed =>
      rw [hs] at hrank
      exact absurd hrank (by decide)

theorem rank_closed {r : ReadyState} (h : ReadyState.rank .closed ≤ r.rank) : r = .closed := by
  cases r with
  | closed => rfl
  | _ => exact absurd h (by decide)

/-- A closed socket stays closed. -/
theorem Follows.closed {s s' : Socket} (h : Follows s s') (hclosed : s.readyState = .closed) :
    s'.readyState = .closed := by
  have hrank := h.rank
  rw [hclosed] at hrank
  exact rank_closed hrank

/-- What has begun to open does not go back to the handshake. -/
theorem Follows.live {s s' : Socket} (h : Follows s s') (live : s.readyState ≠ .connecting) :
    s'.readyState ≠ .connecting := by
  intro hconnecting
  have hrank := h.rank
  rw [hconnecting] at hrank
  cases hs : s.readyState with
  | connecting => exact live hs
  | _ =>
      rw [hs] at hrank
      exact absurd hrank (by decide)

theorem rank_close (s : Socket) (code : Nat) (reason : String) :
    2 ≤ (s.close code reason).readyState.rank := by
  rw [close]
  split
  · exact le_rfl
  · rename_i hstate
    cases hs : s.readyState <;> simp_all [ReadyState.rank]

theorem close_follows (s : Socket) (reason : String) : s.Follows (s.close 1008 reason) := by
  rw [close]
  split
  · rename_i hlive
    refine ⟨?_, List.prefix_rfl, Or.inr ⟨reason, rfl⟩⟩
    obtain hstate | hstate := hlive <;> simp [hstate, ReadyState.rank]
  · exact .refl _

theorem send_follows (s : Socket) (maxBufferedAmountBytes : Nat) (envelope : PulseEventEnvelope) :
    s.Follows (s.send maxBufferedAmountBytes envelope) := by
  rw [send]
  split_ifs
  · exact .refl _
  · exact close_follows s _
  · exact .refl _
  · exact ⟨le_rfl, List.prefix_append _ _, Or.inl rfl⟩

end Socket

namespace Node

open Socket

theorem closeSocket_socket (n : Node) (connection : Connection) (code : Nat) (reason : String) :
    (n.closeSocket connection code reason).sockets connection.connectionId =
      (n.sockets connection.connectionId).close code reason := by
  simp only [closeSocket, Socket.close]
  split_ifs <;> simp

theorem send_socket (n : Node) (recipient : Connection) (envelope : PulseEventEnvelope) :
    (n.send recipient envelope).1.sockets recipient.connectionId =
      (n.sockets recipient.connectionId).send recipient.maxBufferedAmountBytes envelope := by
  simp only [send, Socket.send]
  split_ifs <;> simp [closeSocket_socket]

theorem closeSocket_follows (n : Node) (connection : Connection) (reason : String)
    (c : ConnectionId) :
    Socket.Follows (n.sockets c) ((n.closeSocket connection 1008 reason).sockets c) := by
  by_cases hc : c = connection.connectionId
  · rw [hc, closeSocket_socket]
    exact close_follows _ reason
  · rw [closeSocket_socket_other n 1008 reason hc]
    exact .refl _

theorem send_follows (n : Node) (recipient : Connection) (envelope : PulseEventEnvelope)
    (c : ConnectionId) :
    Socket.Follows (n.sockets c) ((n.send recipient envelope).1.sockets c) := by
  by_cases hc : c = recipient.connectionId
  · rw [hc, send_socket]
    exact Socket.send_follows _ _ envelope
  · rw [send_socket_other n envelope hc]
    exact .refl _

theorem handOver_follows (n : Node) (frames : List (Connection × PulseEventEnvelope))
    (c : ConnectionId) : Socket.Follows (n.sockets c) ((n.handOver frames).sockets c) := by
  induction frames generalizing n with
  | nil => exact .refl _
  | cons f frames ih => exact (send_follows n f.1 f.2 c).trans (ih _)

theorem deliver_follows (n : Node) (recipients : List Connection) (envelope : PulseEventEnvelope)
    (c : ConnectionId) :
    Socket.Follows (n.sockets c) ((n.deliver recipients envelope).1.sockets c) := by
  rw [deliver_eq_handOver]
  exact handOver_follows n _ c

theorem dispatchRawMessage_follows (cfg : ServerConfig) (n : Node) (sender : Connection)
    (raw : Option Json) (tick : Tick) (c : ConnectionId) :
    Socket.Follows (n.sockets c) ((dispatchRawMessage cfg n sender raw tick).sockets c) := by
  have hframes := handOver_follows n (frameHandover cfg n sender raw tick) c
  rw [dispatchRawMessage_sockets]
  split
  · exact hframes.trans (closeSocket_follows _ sender _ c)
  · exact hframes

theorem handleInboundPresence_follows (n : Node) (envelope : PulseEventEnvelope)
    (c : ConnectionId) :
    Socket.Follows (n.sockets c) ((handleInboundPresence n envelope).1.sockets c) := by
  rw [handleInboundPresence]
  split
  · split
    · exact .refl _
    · split
      · exact .refl _
      · rename_i userId _ _ _ _ _
        split
        · exact deliver_follows { n with
            presenceEvents := (n.presenceEvents.recordEvent userId envelope.timestamp).1 } _
            envelope c
        · exact deliver_follows n _ envelope c
  · exact .refl _

theorem deliverInbound_follows (n : Node) (channel : Channel) (envelope : PulseEventEnvelope)
    (c : ConnectionId) :
    Socket.Follows (n.sockets c) ((deliverInbound n channel envelope).1.sockets c) := by
  rw [deliverInbound]
  split
  · split
    · exact .refl _
    · split
      · exact .refl _
      · exact deliver_follows n _ envelope c
  · split
    · exact .refl _
    · split
      · exact .refl _
      · exact deliver_follows n _ envelope c
  · exact handleInboundPresence_follows n envelope c
  · exact .refl _

theorem handleInboundRedisEvent_follows (cfg : ServerConfig) (n : Node) (channel : Channel)
    (raw : Option Json) (tick : Tick) (c : ConnectionId) :
    Socket.Follows (n.sockets c)
      ((handleInboundRedisEvent cfg n channel raw tick).1.sockets c) := by
  cases hevent : foreignEvent cfg raw tick with
  | none =>
      rw [handleInboundRedisEvent_of_none hevent]
      exact .refl _
  | some envelope =>
      rw [handleInboundRedisEvent_of_some hevent]
      simp only
      split
      · exact .refl _
      · exact deliverInbound_follows (({ n with
          idempotencyManager := (n.idempotencyManager.check cfg.idempotency envelope.eventId
            envelope.payload tick.now).1 } : Node).recordAck cfg envelope
              (distributedAck envelope tick.reply) tick.now) channel envelope c

/-- The inversion lemma of the event loop, for the states of the sockets. -/
theorem step_follows {cfg : ServerConfig} {n n' : Node} {e : NodeEvent}
    (h : n.step cfg e = some n') (forward : e.Forward n) (c : ConnectionId) :
    Socket.Follows (n.socketsAt e c) (n'.sockets c) := by
  cases e with
  | connect connection tick =>
      simp only [step] at h
      split at h
      · cases h
      · cases h
        exact send_follows { n with
          memberships := n.memberships.connect connection
          sockets := Function.update n.sockets connection.connectionId {}
          tokenBuckets := Function.update n.tokenBuckets connection.connectionId
            (.create cfg.inboundRateLimitBurst cfg.inboundRateLimitMax tick.now) } connection
          (connectAck cfg connection tick) c
  | frame connectionId raw tick =>
      rw [step, Option.map_eq_some_iff] at h
      obtain ⟨sender, -, rfl⟩ := h
      exact dispatchRawMessage_follows cfg n sender raw tick c
  | resume i online tick =>
      rw [step, Option.map_eq_some_iff] at h
      obtain ⟨k, -, rfl⟩ := h
      rw [(resume_handsOver ..).sockets]
      exact handOver_follows n _ c
  | close connectionId =>
      rw [step, Option.map_eq_some_iff] at h
      obtain ⟨connection, -, rfl⟩ := h
      by_cases hc : c = connectionId
      · subst hc
        refine ⟨?_, by simp [close, socketsAt], Or.inl (by simp [close, socketsAt])⟩
        simp only [close, Function.update_self]
        exact ReadyState.rank_le_closed _
      · simp only [close, socketsAt, Function.update_of_ne hc]
        exact .refl _
  | redisMessage channel raw tick =>
      cases h
      exact handleInboundRedisEvent_follows cfg n channel raw tick c
  | subscriptionSettled i accepted =>
      simp only [step, Option.bind_eq_bind, Option.bind_eq_some_iff, Option.pure_def,
        Option.some.injEq] at h
      obtain ⟨s, -, s', -, rfl⟩ := h
      exact .refl _
  | publishSettled =>
      cases h
      exact .refl _
  | link connected =>
      cases h
      exact .refl _
  | setPresenceManager =>
      simp only [step] at h
      split at h
      · cases h
      · cases h
        exact .refl _
  | transport connectionId readyState bufferedAmount sendFails =>
      simp only [step, transport] at h
      split at h
      · cases h
        by_cases hc : c = connectionId
        · subst hc
          have hrank : (n.sockets c).readyState.rank ≤ readyState.rank := forward
          exact ⟨by simpa [socketsAt] using hrank, by simp [socketsAt],
            Or.inl (by simp [socketsAt])⟩
        · simp only [socketsAt, Function.update_of_ne hc]
          exact .refl _
      · cases h

/-- The registered connections behind an event. -/
def connectionsAfter (m : ConnectionManager) : NodeEvent → ConnectionManager
  | .connect connection _ => m.addConnection connection
  | .close connectionId => (m.removeConnection connectionId).1
  | _ => m

/-- The ids given out behind an event. -/
def knownAfter (known : OrderedSet ConnectionId) : NodeEvent → OrderedSet ConnectionId
  | .connect connection _ => known.insert connection.connectionId
  | _ => known

end Node

namespace Memberships

/-- Connections come and go by `connect` and `close` only. -/
theorem Effect.connections {cfg : Config} {m m' : Memberships} {e : NodeEvent}
    (effect : Effect cfg m m' e) :
    m'.hub.connectionManager = Node.connectionsAfter m.hub.connectionManager e ∧
      m'.known = Node.knownAfter m.known e := by
  cases e with
  | connect connection tick =>
      obtain ⟨-, rfl⟩ := effect
      exact ⟨rfl, rfl⟩
  | frame connectionId raw tick =>
      obtain ⟨sender, -, change⟩ := effect
      exact ⟨change.onlyConcerns.connectionManager, change.onlyConcerns.known⟩
  | resume i online tick =>
      obtain ⟨k, -, rfl⟩ := effect
      have hconcerns := continueHandler_onlyConcerns cfg m i online tick.reply k
      exact ⟨hconcerns.connectionManager, hconcerns.known⟩
  | close connectionId =>
      obtain ⟨-, rfl⟩ := effect
      exact ⟨by simp [close, Node.connectionsAfter], rfl⟩
  | redisMessage channel raw tick =>
      rw [effect]
      exact ⟨rfl, rfl⟩
  | subscriptionSettled i accepted =>
      obtain ⟨s, s', -, -, rfl⟩ := effect
      exact ⟨rfl, rfl⟩
  | publishSettled =>
      obtain ⟨f, -, rfl⟩ := effect
      exact ⟨rfl, rfl⟩
  | link connected =>
      obtain ⟨f, -, rfl⟩ := effect
      exact ⟨rfl, rfl⟩
  | setPresenceManager =>
      rw [effect]
      exact ⟨rfl, rfl⟩
  | transport connectionId readyState bufferedAmount sendFails =>
      rw [effect]
      exact ⟨rfl, rfl⟩

end Memberships

end Pulse
