import Pulse.Core.Refcounts
import Pulse.Core.Agreement

/-!
# The server around a node

`PulseServer` brings its node into being: `start` waits for Redis and creates the
presence manager if the link is up, and a later `connected` event does so in
`handleRedisReconnect`, which then registers the leases of the live connections again,
one after the other. The channel of the presence events is never subscribed on any of
these ways.
-/

namespace Pulse

open Collections Js Transition Memberships MessageDispatcher

inductive StartPhase
  | created
  /-- `start` awaits the connection to Redis. -/
  | connecting
  | running
  deriving DecidableEq, Repr

structure PulseServer where
  node : Node
  phase : StartPhase := .created
  /-- `connected` events whose restored subscriptions are still awaited. -/
  restoring : Nat := 0
  /-- Whether the renewal loop of the presence manager runs. -/
  renewing : Bool := false
  /-- What is left of the reconnect handlers that await a registration. -/
  resyncs : List (List Connection) := []
  /-- The registrations asked of the presence manager so far. -/
  registrations : List (UserId × ConnectionId) := []

inductive ServerEvent
  | start
  /-- The connection attempt of `start` ends, successfully or not. -/
  | connectSettled
  | link (connected : Bool)
  /-- The subscriptions are restored, and the server hears of the connection. -/
  | restored
  /-- The registration awaited by the `i`-th reconnect handler is answered. -/
  | registered (i : Nat)
  /-- What happens to the running node by itself. -/
  | node (e : NodeEvent)

namespace PulseServer

/-- A server over a given Pub/Sub manager, with or without a given presence manager. -/
def create (redis : Option RedisPubSubManager) (presence : Bool) : PulseServer :=
  { node :=
      { memberships :=
          { hub := { channelRegistry := redis.map fun pubSub => { pubSub : Subscriptions } }
            presence } } }

def isConnected (s : PulseServer) : Bool :=
  s.node.memberships.hub.channelRegistry.any (·.pubSub.connected)

/-- Create the presence manager, if there is none and the link is up. -/
def createPresenceManager (s : PulseServer) : PulseServer :=
  if !s.node.memberships.presence && s.isConnected then
    { s with
      node :=
        { s.node with
          memberships := { s.node.memberships with presence := true }
          presenceEvents := {} }
      renewing := true }
  else s

/-- `connection.isAlive()`. -/
def isAlive (s : PulseServer) (connection : Connection) : Bool :=
  decide ((s.node.sockets connection.connectionId).readyState = .open)

/-- The loop of a reconnect handler up to its next registration. -/
def resync (s : PulseServer) : List Connection → PulseServer
  | [] => s
  | connection :: rest =>
      if connection.userId != "" && s.isAlive connection then
        { s with
          resyncs := s.resyncs ++ [rest]
          registrations := s.registrations ++ [(connection.userId, connection.connectionId)] }
      else s.resync rest

def handleRedisReconnect (s : PulseServer) : PulseServer :=
  let s := s.createPresenceManager
  if s.node.memberships.presence then
    s.resync s.node.memberships.hub.connectionManager.connections.values
  else s

/-- `start` behind its first `await`. -/
def finishStart (s : PulseServer) : PulseServer :=
  let s := s.createPresenceManager
  { s with phase := .running, renewing := s.node.memberships.presence }

def start (s : PulseServer) : PulseServer :=
  if s.node.memberships.hub.channelRegistry.isSome && !s.isConnected then
    { s with phase := .connecting }
  else s.finishStart

/-- The events of a node which the server does not cause itself. -/
def IsOwnEvent : NodeEvent → Bool
  | .link _ | .setPresenceManager => false
  | _ => true

/-- A new connection is registered with the presence manager. -/
def registrationsOf (s : PulseServer) : NodeEvent → List (UserId × ConnectionId)
  | .connect connection _ =>
      if s.node.memberships.presence then [(connection.userId, connection.connectionId)] else []
  | _ => []

def step (cfg : ServerConfig) (s : PulseServer) : ServerEvent → Option PulseServer
  | .start => if s.phase = .created then some s.start else none
  | .connectSettled => if s.phase = .connecting then some s.finishStart else none
  | .link connected =>
      (s.node.step cfg (.link connected)).map fun node =>
        { s with node, restoring := if connected then s.restoring + 1 else s.restoring }
  | .restored =>
      if s.restoring = 0 then none
      else some { s with restoring := s.restoring - 1 }.handleRedisReconnect
  | .registered i =>
      (s.resyncs[i]?).map fun rest => { s with resyncs := s.resyncs.eraseIdx i }.resync rest
  | .node e =>
      if s.phase = .running ∧ IsOwnEvent e then
        (s.node.step cfg e).map fun node =>
          { s with node, registrations := s.registrations ++ s.registrationsOf e }
      else none

/-- Nothing is awaited any more. -/
def isSettled (s : PulseServer) : Bool :=
  s.restoring == 0 && s.resyncs.isEmpty && s.node.memberships.suspended.isEmpty &&
    s.node.memberships.hub.channelRegistry.all (·.pending.isEmpty)

/-- The events of other nodes about presence reach this one. -/
def ListensForPresence (s : PulseServer) : Prop :=
  ∃ subscriptions, s.node.memberships.hub.channelRegistry = some subscriptions ∧
    CHANNEL_PRESENCE_EVENTS ∈ subscriptions.pubSub.subscribedChannels

instance (s : PulseServer) : Decidable s.ListensForPresence :=
  match h : s.node.memberships.hub.channelRegistry with
  | none => isFalse fun ⟨_, hs, _⟩ => absurd (h.symm.trans hs) (by simp)
  | some subscriptions =>
      decidable_of_iff (CHANNEL_PRESENCE_EVENTS ∈ subscriptions.pubSub.subscribedChannels)
        ⟨fun hmem => ⟨subscriptions, h, hmem⟩, fun ⟨_, hs, hmem⟩ =>
          Option.some.inj (h.symm.trans hs) ▸ hmem⟩

end PulseServer

/-- Whether the presence channel is subscribed. -/
def Subscriptions.PresenceIs (P : Prop) (s : Subscriptions) : Prop :=
  CHANNEL_PRESENCE_EVENTS ∈ s.pubSub.subscribedChannels ↔ P

/-- No Pub/Sub call for another channel reaches the presence channel. -/
theorem Subscriptions.presenceIs_await {P : Prop} {s : Subscriptions} (h : s.PresenceIs P)
    {call : Option PubSubCall} (other : ∀ channel, call = some (.subscribe channel) ∨
      call = some (.unsubscribe channel) → channel ≠ CHANNEL_PRESENCE_EVENTS) :
    (s.await call).PresenceIs P := by
  cases call with
  | none => exact h
  | some call =>
      cases call with
      | subscribe channel =>
          refine (RedisPubSubManager.mem_perform_subscribe s.pubSub channel _).trans ?_
          have hne := other channel (Or.inl rfl)
          simp only [hne.symm, or_false]
          exact h
      | unsubscribe channel =>
          refine (RedisPubSubManager.mem_perform_unsubscribe s.pubSub channel _).trans ?_
          have hne := other channel (Or.inr rfl)
          simp only [ne_eq, hne.symm, not_false_eq_true, true_and]
          exact h

theorem Subscriptions.stable_presenceIs (P : Prop) : Stable (PresenceIs P) where
  increment := by
    intro s channel hne h
    have hcall : ∀ c, (s.registry.incrementSubscription channel).2 = some (.subscribe c) ∨
        (s.registry.incrementSubscription channel).2 = some (.unsubscribe c) →
        c ≠ CHANNEL_PRESENCE_EVENTS := by
      intro c hc
      rw [ChannelRegistry.increment_call] at hc
      split at hc
      · rcases hc with hc | hc
        · cases hc
          exact hne
        · cases hc
      · rcases hc with hc | hc <;> cases hc
    exact presenceIs_await
      (s := { s with registry := (s.registry.incrementSubscription channel).1 }) h hcall
  decrement := by
    intro s channel hne h
    have hcall : ∀ c, (s.registry.decrementSubscription channel).2 = some (.subscribe c) ∨
        (s.registry.decrementSubscription channel).2 = some (.unsubscribe c) →
        c ≠ CHANNEL_PRESENCE_EVENTS := by
      intro c hc
      rw [ChannelRegistry.decrement_call] at hc
      split at hc
      · rcases hc with hc | hc
        · cases hc
        · cases hc
          exact hne
      · rcases hc with hc | hc <;> cases hc
    exact presenceIs_await
      (s := { s with registry := (s.registry.decrementSubscription channel).1 }) h hcall

namespace Memberships

variable {P : Prop}

theorem kept_presenceIs (cfg : Config) (sender : Connection) (envelope : PulseEventEnvelope) :
    Kept cfg sender envelope fun m => m.hub.Registry (Subscriptions.PresenceIs P) where
  join _ r _ h := Hub.Registry.joinRoom (Subscriptions.stable_presenceIs P) h r _
  leave _ r h := Hub.Registry.leaveRoom (Subscriptions.stable_presenceIs P) h r _
  updateSeq := by
    intro m h
    rw [updateSeq_eq]
    exact h
  suspend _ _ _ _ _ h := h

theorem presenceIs_updateRegistry {m : Memberships}
    (h : m.hub.Registry (Subscriptions.PresenceIs P)) {f : Subscriptions → Subscriptions}
    (keeps : Subscriptions.KeepsChannels f) :
    (m.updateRegistry f).hub.Registry (Subscriptions.PresenceIs P) := by
  refine Hub.Registry.map h rfl fun s hs => ?_
  rw [Subscriptions.PresenceIs, (keeps s).2]
  exact hs

/-- Whatever happens to a node, its presence subscription stays as it is. -/
theorem presenceIs_effect {cfg : Config} {m m' : Memberships} {e : NodeEvent}
    (h : m.hub.Registry (Subscriptions.PresenceIs P)) (effect : Effect cfg m m' e) :
    m'.hub.Registry (Subscriptions.PresenceIs P) := by
  have stable := Subscriptions.stable_presenceIs P
  cases e with
  | connect connection tick =>
      obtain ⟨-, rfl⟩ := effect
      exact Hub.Registry.addConnection stable h connection
  | frame connectionId raw tick =>
      obtain ⟨sender, -, change⟩ := effect
      exact Kept.frameChange (fun envelope _ => kept_presenceIs cfg sender envelope) h
        (fun m f keeps hm => presenceIs_updateRegistry hm keeps) change
  | resume i online tick =>
      obtain ⟨k, -, rfl⟩ := effect
      exact (kept_presenceIs cfg k.sender k.envelope).continueHandler
        (m := { m with suspended := m.suspended.eraseIdx i }) h online tick.reply
  | close connectionId =>
      obtain ⟨-, rfl⟩ := effect
      exact Hub.Registry.removeConnectionFromAllRooms stable
        (Hub.Registry.removeConnection stable h connectionId) connectionId _
  | redisMessage channel raw tick =>
      rw [effect]
      exact h
  | subscriptionSettled i accepted =>
      obtain ⟨s, s', hs, hsettle, rfl⟩ := effect
      refine Hub.Registry.map h rfl fun _ _ => ?_
      rw [Subscriptions.settle] at hsettle
      split at hsettle
      · cases hsettle
      · cases hsettle
        exact h s hs
  | publishSettled =>
      obtain ⟨f, keeps, rfl⟩ := effect
      exact presenceIs_updateRegistry h keeps
  | link connected =>
      obtain ⟨f, keeps, rfl⟩ := effect
      exact presenceIs_updateRegistry h keeps
  | setPresenceManager =>
      rw [effect]
      exact h
  | transport connectionId readyState bufferedAmount sendFails =>
      rw [effect]
      exact h

end Memberships

namespace PulseServer

/-- The presence subscription of the node of a server. -/
def PresenceIs (P : Prop) (s : PulseServer) : Prop :=
  s.node.memberships.hub.Registry (Subscriptions.PresenceIs P)

variable {P : Prop} {s : PulseServer}

theorem presenceIs_createPresenceManager (h : s.PresenceIs P) :
    s.createPresenceManager.PresenceIs P := by
  rw [createPresenceManager]
  split
  · exact h
  · exact h

theorem presenceIs_resync (h : s.PresenceIs P) (connections : List Connection) :
    (s.resync connections).PresenceIs P := by
  induction connections with
  | nil => exact h
  | cons connection rest ih =>
      rw [resync]
      split
      · exact h
      · exact ih

theorem presenceIs_step (cfg : ServerConfig) (s : PulseServer) (e : ServerEvent)
    (s' : PulseServer) (h : s.PresenceIs P) (hstep : s.step cfg e = some s') :
    s'.PresenceIs P := by
  have hcreated := presenceIs_createPresenceManager h
  cases e with
  | start =>
      simp only [step] at hstep
      split at hstep
      · cases hstep
        rw [start]
        split
        · exact h
        · exact hcreated
      · cases hstep
  | connectSettled =>
      simp only [step] at hstep
      split at hstep
      · cases hstep
        exact hcreated
      · cases hstep
  | link connected =>
      rw [step, Option.map_eq_some_iff] at hstep
      obtain ⟨node, hnode, rfl⟩ := hstep
      exact Memberships.presenceIs_effect h (Node.step_effect hnode)
  | restored =>
      simp only [step] at hstep
      split at hstep
      · cases hstep
      · cases hstep
        rw [handleRedisReconnect]
        have hcreated' : ({ s with restoring := s.restoring - 1 } :
            PulseServer).createPresenceManager.PresenceIs P :=
          presenceIs_createPresenceManager h
        split
        · exact presenceIs_resync hcreated' _
        · exact hcreated'
  | registered i =>
      rw [step, Option.map_eq_some_iff] at hstep
      obtain ⟨rest, -, rfl⟩ := hstep
      exact presenceIs_resync (s := { s with resyncs := s.resyncs.eraseIdx i }) h rest
  | node e =>
      simp only [step] at hstep
      split at hstep
      · obtain ⟨node, hnode, rfl⟩ := Option.map_eq_some_iff.mp hstep
        exact Memberships.presenceIs_effect h (Node.step_effect hnode)
      · cases hstep

/-- A running server with a presence manager and a connected Redis listens for presence
only if the Pub/Sub manager it was given did so before. -/
theorem listens_for_presence_iff (cfg : ServerConfig) (redis : Option RedisPubSubManager)
    (presence : Bool) (es : List ServerEvent) :
    Always (step cfg)
      (fun s => s.phase = .running → s.node.memberships.presence = true →
        s.isConnected = true →
          (s.ListensForPresence ↔
            ∃ pubSub, redis = some pubSub ∧ CHANNEL_PRESENCE_EVENTS ∈ pubSub.subscribedChannels))
      (create redis presence) es := by
  have hinitial : (create redis presence).PresenceIs (∃ pubSub, redis = some pubSub ∧
      CHANNEL_PRESENCE_EVENTS ∈ pubSub.subscribedChannels) := by
    intro subscriptions hs
    obtain ⟨pubSub, hredis, rfl⟩ := Option.map_eq_some_iff.mp hs
    constructor
    · exact fun hmem => ⟨pubSub, hredis, hmem⟩
    · rintro ⟨pubSub', hredis', hmem⟩
      rw [hredis] at hredis'
      cases hredis'
      exact hmem
  refine (always_of_invariant (presenceIs_step cfg) hinitial es).mono ?_
  intro s h _ _ hconnected
  rw [isConnected, Option.any_eq_true] at hconnected
  obtain ⟨subscriptions, hs, -⟩ := hconnected
  constructor
  · rintro ⟨subscriptions', hs', hmem⟩
    exact (h subscriptions' hs').mp hmem
  · exact fun hgiven => ⟨subscriptions, hs, (h subscriptions hs).mpr hgiven⟩

def startConfig : ServerConfig :=
  { instanceId := "node-a", idempotency := { digest := id } }

/-- The server starts while Redis is down, which comes up later. -/
def lateRedisRun : List ServerEvent := [.start, .connectSettled, .link true, .restored]

/-- It then has a presence manager and a connected Redis, with nothing pending, but does
not listen. -/
theorem presence_not_heard :
    ¬ Always (step startConfig)
      (fun s => s.phase = .running → s.isSettled = true →
        s.node.memberships.presence = true → s.isConnected = true → s.ListensForPresence)
      (create (some { connected := false }) false) lateRedisRun := by
  refine not_always_of_run (q := fun s => decide (s.phase = .running) && s.isSettled &&
    s.node.memberships.presence && s.isConnected && !decide s.ListensForPresence) ?_
    (by decide +kernel)
  intro t ht h
  simp only [Bool.and_eq_true, decide_eq_true_eq, Bool.not_eq_true', decide_eq_false_iff_not] at ht
  obtain ⟨⟨⟨⟨hrunning, hsettled⟩, hpresence⟩, hconnected⟩, hdeaf⟩ := ht
  exact hdeaf (h hrunning hsettled hpresence hconnected)

end PulseServer

end Pulse
