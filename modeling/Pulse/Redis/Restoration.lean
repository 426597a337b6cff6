import Pulse.Redis.ConnectionManager
import Pulse.Redis.Subscriptions

/-!
# Restored subscriptions

`RedisPubSubManager` edits its set of channels in any case and issues commands
only while the link is up. When the link comes back it subscribes the channels of
the set again. Whatever the subscriber connection still has and nobody wants any
more stays subscribed, so the two agree if nothing of that kind is left when the
link comes back.

The subscriber connection loses its subscriptions with its `close` or `end`
event, and Redis executes the commands written to it in order.
-/

namespace Pulse

open Collections Transition

/-- `subscribed` are the channels of the subscriber connection, and `up` says that commands
reach Redis over it. -/
structure SubscriberLink where
  manager : RedisConnectionManager
  pubSub : RedisPubSubManager
  subscribed : OrderedSet Channel := ∅
  up : Bool := false

inductive SubscriberEvent
  | subscribe (channel : Channel)
  | unsubscribe (channel : Channel)
  | link (e : RedisLinkEvent)
  /-- Redis executes the oldest command. -/
  | executed
  deriving DecidableEq, Repr

namespace RedisPubSubManager

/-- The channels of a connection with given channels after the pending commands. -/
def eventual (p : RedisPubSubManager) (subscribed : OrderedSet Channel) : OrderedSet Channel :=
  p.commands.foldl Command.exec subscribed

end RedisPubSubManager

namespace RedisConnectionManager

/-- What a step added to the log. -/
def newRecords (before after : RedisConnectionManager) : List LinkRecord :=
  after.log.take (after.log.length - before.log.length)

/-- Whether an event brings the link back. -/
def comesBack (m : RedisConnectionManager) (e : RedisLinkEvent) : Bool :=
  !m.isConnected && (m.step e).any isConnected

end RedisConnectionManager

namespace SubscriberLink

def initial (publisherReady subscriberReady : Bool) : SubscriberLink :=
  let manager := RedisConnectionManager.connect publisherReady subscriberReady
  { manager, pubSub := { connected := manager.isConnected }, up := subscriberReady }

/-- What a lifecycle event means for the subscriber connection. -/
def transport (s : SubscriberLink) : RedisLinkEvent → SubscriberLink
  | .client .subscriber .close | .client .subscriber .ended =>
      { s with subscribed := ∅, up := false }
  | .client .subscriber .ready => { s with up := true }
  | _ => s

/-- The handler of `connected` runs up to its `await` for each such event, oldest first. -/
def heard (records : List LinkRecord) (p : RedisPubSubManager) : RedisPubSubManager :=
  records.foldr (fun record p =>
    if record = .emitted .connected then p.restoreSubscriptions else p) p

def linked (s : SubscriberLink) (manager : RedisConnectionManager) : SubscriberLink :=
  { s with
    manager
    pubSub := heard (s.manager.newRecords manager)
      { s.pubSub with connected := manager.isConnected } }

def step (s : SubscriberLink) : SubscriberEvent → Option SubscriberLink
  | .subscribe channel => some { s with pubSub := (s.pubSub.subscribe channel).1 }
  | .unsubscribe channel => some { s with pubSub := (s.pubSub.unsubscribe channel).1 }
  | .link e => (s.manager.step e).map (s.transport e).linked
  | .executed =>
      match s.pubSub.commands with
      | [] => none
      | command :: commands =>
          if s.up then
            some { s with
              subscribed := command.exec s.subscribed
              pubSub := { s.pubSub with commands } }
          else none

/-- The channels of the subscriber connection once the pending commands are executed. -/
def eventual (s : SubscriberLink) : OrderedSet Channel := s.pubSub.eventual s.subscribed

/-- Once the link and the subscriber connection are up and no command is pending, exactly the
wanted channels are subscribed. -/
def Restored (s : SubscriberLink) : Prop :=
  s.manager.isConnected = true → s.up = true → s.pubSub.commands = [] →
    ∀ c, c ∈ s.subscribed ↔ c ∈ s.pubSub.subscribedChannels

/-- When the link comes back, every channel which the subscriber connection has, or will have
after the pending commands, is still wanted. -/
def ReturnsClean (s : SubscriberLink) : SubscriberEvent → Prop
  | .link e =>
      s.manager.comesBack e = true → ∀ c ∈ s.eventual.toList, c ∈ s.pubSub.subscribedChannels
  | _ => True

instance (s : SubscriberLink) : ∀ e, Decidable (s.ReturnsClean e)
  | .link e =>
      inferInstanceAs (Decidable (s.manager.comesBack e = true →
        ∀ c ∈ s.eventual.toList, c ∈ s.pubSub.subscribedChannels))
  | .subscribe _ | .unsubscribe _ | .executed => isTrue trivial

/-- While the link is up, the pending commands lead to the wanted channels. -/
structure Converging (s : SubscriberLink) : Prop where
  connected : s.pubSub.connected = s.manager.isConnected
  eventual : s.manager.isConnected = true →
    ∀ c, c ∈ s.eventual ↔ c ∈ s.pubSub.subscribedChannels

end SubscriberLink

namespace Command

theorem mem_exec_subscribe {channels : List Channel} {subscribed : OrderedSet Channel}
    {c : Channel} :
    c ∈ (Command.subscribe channels).exec subscribed ↔ c ∈ subscribed ∨ c ∈ channels := by
  rw [exec, OrderedSet.mem_foldl_insert]

theorem mem_exec_unsubscribe {channel : Channel} {subscribed : OrderedSet Channel}
    {c : Channel} :
    c ∈ (Command.unsubscribe channel).exec subscribed ↔ c ≠ channel ∧ c ∈ subscribed := by
  rw [exec, OrderedSet.mem_erase]

end Command

namespace RedisPubSubManager

theorem eventual_append {p q : RedisPubSubManager} {command : Command}
    (h : q.commands = p.commands ++ [command]) (subscribed : OrderedSet Channel) :
    q.eventual subscribed = command.exec (p.eventual subscribed) := by
  simp [eventual, h, List.foldl_append]

variable {p : RedisPubSubManager} {subscribed : OrderedSet Channel}

/-- A call while the link is up leads to the set as the call left it. -/
theorem eventual_subscribe (connected : p.connected = true)
    (agree : ∀ c, c ∈ p.eventual subscribed ↔ c ∈ p.subscribedChannels) (channel c : Channel) :
    c ∈ (p.subscribe channel).1.eventual subscribed ↔
      c ∈ (p.subscribe channel).1.subscribedChannels := by
  by_cases hmem : channel ∈ p.subscribedChannels
  · have hsame : (p.subscribe channel).1 = p := by simp [subscribe, hmem]
    rw [hsame]
    exact agree c
  · have hissued : (p.subscribe channel).1.commands = p.commands ++ [.subscribe [channel]] := by
      simp [subscribe, hmem, connected]
    have hwanted : (p.subscribe channel).1.subscribedChannels =
        p.subscribedChannels.insert channel := by
      simp [subscribe, hmem, connected]
    rw [eventual_append hissued, hwanted, Command.mem_exec_subscribe, OrderedSet.mem_insert,
      List.mem_singleton, agree c]

theorem eventual_unsubscribe (connected : p.connected = true)
    (agree : ∀ c, c ∈ p.eventual subscribed ↔ c ∈ p.subscribedChannels) (channel c : Channel) :
    c ∈ (p.unsubscribe channel).1.eventual subscribed ↔
      c ∈ (p.unsubscribe channel).1.subscribedChannels := by
  by_cases hmem : channel ∈ p.subscribedChannels
  · have hissued : (p.unsubscribe channel).1.commands =
        p.commands ++ [.unsubscribe channel] := by
      simp [unsubscribe, hmem, connected]
    have hwanted : (p.unsubscribe channel).1.subscribedChannels =
        p.subscribedChannels.erase channel := by
      simp [unsubscribe, hmem, connected]
    rw [eventual_append hissued, hwanted, Command.mem_exec_unsubscribe, OrderedSet.mem_erase]
    exact and_congr_right fun _ => agree c
  · have hsame : (p.unsubscribe channel).1 = p := by simp [unsubscribe, hmem]
    rw [hsame]
    exact agree c

@[simp] theorem subscribe_connected (channel : Channel) :
    (p.subscribe channel).1.connected = p.connected :=
  p.perform_connected (.subscribe channel)

@[simp] theorem unsubscribe_connected (channel : Channel) :
    (p.unsubscribe channel).1.connected = p.connected :=
  p.perform_connected (.unsubscribe channel)

@[simp] theorem restoreSubscriptions_connected :
    p.restoreSubscriptions.connected = p.connected := by
  rw [restoreSubscriptions]
  split <;> rfl

@[simp] theorem restoreSubscriptions_subscribedChannels :
    p.restoreSubscriptions.subscribedChannels = p.subscribedChannels := by
  rw [restoreSubscriptions]
  split <;> rfl

/-- The restored subscriptions come on top of what the connection has. -/
theorem mem_eventual_restoreSubscriptions (connected : p.connected = true) (c : Channel) :
    c ∈ p.restoreSubscriptions.eventual subscribed ↔
      c ∈ p.eventual subscribed ∨ c ∈ p.subscribedChannels := by
  by_cases hempty : p.subscribedChannels.size = 0
  · have hnone : c ∉ p.subscribedChannels := OrderedSet.size_eq_zero_iff.mp hempty c
    have hsame : p.restoreSubscriptions = p := by simp [restoreSubscriptions, hempty]
    rw [hsame]
    simp [hnone]
  · have hissued : p.restoreSubscriptions.commands =
        p.commands ++ [.subscribe p.subscribedChannels.toList] := by
      simp [restoreSubscriptions, hempty, connected]
    rw [eventual_append hissued, Command.mem_exec_subscribe]
    exact Iff.rfl

end RedisPubSubManager

namespace RedisConnectionManager

theorem newRecords_of_log {m t : RedisConnectionManager} {records : List LinkRecord}
    (h : t.log = records ++ m.log) : m.newRecords t = records := by
  rw [newRecords, h, List.length_append, Nat.add_sub_cancel]
  exact List.take_left

theorem isConnected_congr {m t : RedisConnectionManager} (clients : t.clients = m.clients)
    (status : ∀ role, t.status role = m.status role) : t.isConnected = m.isConnected := by
  rw [Bool.eq_iff_iff, isConnected_iff, isConnected_iff, clients]
  simp only [status]

theorem not_isConnected_of_status {m : RedisConnectionManager} {role : RedisConnectionRole}
    (h : m.status role ≠ .connected) : m.isConnected = false := by
  refine Bool.eq_false_iff.mpr fun hconnected => ?_
  exact h (((isConnected_iff m).mp hconnected).2 role)

/-- Only `ready` makes a status good. -/
theorem onClientEvent_status_ne {m : RedisConnectionManager} {role : RedisConnectionRole}
    {event : ClientEvent} (h : event ≠ .ready) :
    (m.onClientEvent role event).status role ≠ .connected := by
  cases event with
  | ready => exact absurd rfl h
  | connect => simp [onClientEvent]
  | reconnecting => simp [onClientEvent]
  | close =>
      simp only [onClientEvent]
      obtain heq | heq := checkDisconnected_cases (m.updateStatus role
        (if m.isShuttingDown = true then .disconnected else .reconnecting))
      · rw [heq]
        simp only [updateStatus_status, if_true]
        split <;> simp
      · rw [heq]
        simp only [emit_status, updateStatus_status, if_true]
        split <;> simp
  | error heard => cases heard <;> simp [onClientEvent]
  | ended =>
      simp only [onClientEvent]
      obtain heq | heq := checkDisconnected_cases (m.updateStatus role .disconnected)
      · rw [heq]
        simp
      · rw [heq]
        simp

/-- The link comes back with a `ready` event, and its users hear of it. -/
theorem step_comesBack {m t : RedisConnectionManager} {e : RedisLinkEvent}
    (hstep : m.step e = some t) (down : m.isConnected = false) (back : t.isConnected = true) :
    .emitted .connected ∈ m.newRecords t := by
  cases e with
  | client role event =>
      cases hstep
      by_cases hevent : event = .ready
      · subst hevent
        have hconnected : ({ m with log := .client role .ready :: m.log }.updateStatus role
            .connected).isConnected = true := by
          rw [← back]
          refine isConnected_congr ?_ fun r => ?_
          · rw [onClientEvent_clients, updateStatus_clients]
          · by_cases hr : r = role
            · rw [hr, onClientEvent_ready_status, updateStatus_status, if_pos rfl]
            · rw [onClientEvent_status _ _ _ hr, updateStatus_status, if_neg hr]
        have hlog : ({ m with log := .client role .ready :: m.log }.onClientEvent role
            .ready).log = [.emitted .connected, .client role .ready] ++ m.log := by
          simp only [onClientEvent, hconnected, if_true, onReady_log]
          rw [emit, updateStatus_log]
          rfl
        rw [newRecords_of_log hlog]
        exact List.mem_cons_self
      · rw [not_isConnected_of_status (onClientEvent_status_ne hevent)] at back
        cases back
  | waitFailed role =>
      simp only [step, Option.ite_none_right_eq_some, Option.some.injEq] at hstep
      obtain ⟨-, rfl⟩ := hstep
      rw [isConnected_congr (onError_clients m role) fun r => onError_status m role r, down] at back
      cases back
  | connectSettled =>
      simp only [step, connectSettled] at hstep
      split at hstep
      · cases hstep
      · split at hstep
        · cases hstep
          have herror : status (emit { m with
              publisherStatus := .error, subscriberStatus := .error, connecting := .rejected }
              .error) .publisher = .error := rfl
          have hdown := not_isConnected_of_status (by rw [herror]; decide)
          rw [back] at hdown
          cases hdown
        · split at hstep
          · cases hstep
            have hsame : isConnected (emit { m with connecting := .resolved } .connected) =
                m.isConnected := rfl
            rw [hsame, down] at back
            cases back
          · cases hstep

end RedisConnectionManager

namespace SubscriberLink

@[simp] theorem heard_connected (records : List LinkRecord) (p : RedisPubSubManager) :
    (heard records p).connected = p.connected := by
  induction records with
  | nil => rfl
  | cons record records ih =>
      rw [heard, List.foldr_cons, ← heard]
      split
      · rw [RedisPubSubManager.restoreSubscriptions_connected, ih]
      · exact ih

@[simp] theorem heard_subscribedChannels (records : List LinkRecord) (p : RedisPubSubManager) :
    (heard records p).subscribedChannels = p.subscribedChannels := by
  induction records with
  | nil => rfl
  | cons record records ih =>
      rw [heard, List.foldr_cons, ← heard]
      split
      · rw [RedisPubSubManager.restoreSubscriptions_subscribedChannels, ih]
      · exact ih

theorem mem_eventual_heard {records : List LinkRecord} {p : RedisPubSubManager}
    (connected : p.connected = true) (subscribed : OrderedSet Channel) (c : Channel) :
    c ∈ (heard records p).eventual subscribed ↔
      c ∈ p.eventual subscribed ∨
        (.emitted .connected ∈ records ∧ c ∈ p.subscribedChannels) := by
  induction records with
  | nil => simp [heard]
  | cons record records ih =>
      rw [heard, List.foldr_cons, ← heard]
      split
      · rename_i heq
        rw [RedisPubSubManager.mem_eventual_restoreSubscriptions (by simpa using connected), ih,
          heard_subscribedChannels, heq]
        simp only [List.mem_cons, true_or, true_and]
        tauto
      · rename_i hne
        rw [ih]
        simp only [List.mem_cons, Ne.symm hne, false_or]

theorem eventual_transport {s : SubscriberLink} {e : RedisLinkEvent} {t : RedisConnectionManager}
    (hstep : s.manager.step e = some t) (back : t.isConnected = true) :
    (s.transport e).eventual = s.eventual := by
  have hlost : ∀ event, event ≠ ClientEvent.ready →
      s.manager.step (.client .subscriber event) = some t → False := by
    intro event hevent hclient
    cases hclient
    rw [RedisConnectionManager.not_isConnected_of_status
      (RedisConnectionManager.onClientEvent_status_ne hevent)] at back
    cases back
  unfold transport
  split
  · exact (hlost .close (by decide) hstep).elim
  · exact (hlost .ended (by decide) hstep).elim
  · rfl
  · rfl

@[simp] theorem transport_manager (s : SubscriberLink) (e : RedisLinkEvent) :
    (s.transport e).manager = s.manager := by
  unfold transport
  split <;> rfl

@[simp] theorem transport_pubSub (s : SubscriberLink) (e : RedisLinkEvent) :
    (s.transport e).pubSub = s.pubSub := by
  unfold transport
  split <;> rfl

theorem converging_step {s t : SubscriberLink} {e : SubscriberEvent} (h : s.Converging)
    (hstep : s.step e = some t) (clean : s.ReturnsClean e) : t.Converging := by
  cases e with
  | subscribe channel =>
      cases hstep
      refine ⟨?_, fun hup c => ?_⟩
      · rw [← h.connected]
        exact RedisPubSubManager.subscribe_connected channel
      · exact RedisPubSubManager.eventual_subscribe (h.connected.trans hup) (h.eventual hup)
          channel c
  | unsubscribe channel =>
      cases hstep
      refine ⟨?_, fun hup c => ?_⟩
      · rw [← h.connected]
        exact RedisPubSubManager.unsubscribe_connected channel
      · exact RedisPubSubManager.eventual_unsubscribe (h.connected.trans hup) (h.eventual hup)
          channel c
  | executed =>
      simp only [step] at hstep
      split at hstep
      · cases hstep
      · rename_i command commands hcommands
        split at hstep
        · cases hstep
          refine ⟨h.connected, fun hup c => ?_⟩
          have heventual := h.eventual hup c
          rw [eventual, RedisPubSubManager.eventual, hcommands, List.foldl_cons] at heventual
          exact heventual
        · cases hstep
  | link e =>
      simp only [step, Option.map_eq_some_iff] at hstep
      obtain ⟨manager, hmanager, rfl⟩ := hstep
      refine ⟨?_, fun hup c => ?_⟩
      · simp [linked]
      · have hsame := eventual_transport hmanager hup
        have hmem : c ∈ ((s.transport e).linked manager).eventual ↔ c ∈ s.eventual ∨
            (.emitted .connected ∈ s.manager.newRecords manager ∧
              c ∈ s.pubSub.subscribedChannels) := by
          have hheard : c ∈ (heard (s.manager.newRecords manager) { (s.transport e).pubSub with
              connected := manager.isConnected }).eventual (s.transport e).subscribed ↔ _ :=
            mem_eventual_heard hup _ c
          rw [← hsame]
          simpa [linked, eventual, RedisPubSubManager.eventual] using hheard
        have hwanted : ((s.transport e).linked manager).pubSub.subscribedChannels =
            s.pubSub.subscribedChannels := by
          simp [linked]
        rw [hmem, hwanted]
        cases hbefore : s.manager.isConnected with
        | true =>
            -- A link that stays up has only to keep what it has.
            rw [h.eventual hbefore c]
            exact or_iff_left_of_imp And.right
        | false =>
            have hback : s.manager.comesBack e = true := by
              have hmanagerUp : manager.isConnected = true := hup
              simp [RedisConnectionManager.comesBack, hbefore, hmanager, hmanagerUp]
            have htold := RedisConnectionManager.step_comesBack hmanager hbefore hup
            constructor
            · rintro (hold | ⟨-, hnew⟩)
              · exact clean hback c hold
              · exact hnew
            · exact fun hnew => Or.inr ⟨htold, hnew⟩

theorem converging_initial (publisherReady subscriberReady : Bool) :
    (initial publisherReady subscriberReady).Converging where
  connected := rfl
  eventual _ _ := Iff.rfl

theorem Converging.restored {s : SubscriberLink} (h : s.Converging) : s.Restored := by
  intro hup _ hdone c
  have heventual := h.eventual hup c
  rw [SubscriberLink.eventual, RedisPubSubManager.eventual, hdone] at heventual
  exact heventual

/-- In every run in which the subscriber connection has nothing unwanted when the link comes
back, the wanted channels are restored exactly. -/
theorem subscriptions_restored {publisherReady subscriberReady : Bool}
    {es : List SubscriberEvent}
    (clean : EveryStep step (fun s e _ => s.ReturnsClean e)
      (initial publisherReady subscriberReady) es) :
    Always step Restored (initial publisherReady subscriberReady) es := by
  have halways : Always step Converging (initial publisherReady subscriberReady) es :=
    always_of_everyStep (fun _ _ _ hs hstep hclean => converging_step hs hstep hclean)
      (converging_initial publisherReady subscriberReady) clean
  exact halways.mono fun _ hs => hs.restored

/-- Both clients come up. -/
def upRun : List SubscriberEvent :=
  [.link (.client .publisher .ready), .link (.client .subscriber .ready), .link .connectSettled]

/-- One outage of the subscriber, with an `unsubscribe` meanwhile, and one of the publisher,
with a `subscribe` meanwhile. -/
def outageRun : List SubscriberEvent :=
  upRun ++
    [.subscribe "pulse:room:a", .subscribe "pulse:room:b", .executed, .executed,
      .link (.client .subscriber .close), .unsubscribe "pulse:room:a",
      .link (.client .subscriber .ready), .executed, .link (.client .publisher .close),
      .subscribe "pulse:room:c", .link (.client .publisher .ready), .executed]

theorem subscriptions_restored_outages : Always step Restored (initial false false) outageRun :=
  subscriptions_restored (by decide +kernel)

/-- An `unsubscribe` while only the publisher is down. -/
def staleRun : List SubscriberEvent :=
  upRun ++
    [.subscribe "pulse:room:a", .executed, .link (.client .publisher .close),
      .unsubscribe "pulse:room:a", .link (.client .publisher .ready)]

theorem stale_subscription :
    ¬ ∀ (publisherReady subscriberReady : Bool) (es : List SubscriberEvent),
      Always step Restored (initial publisherReady subscriberReady) es := by
  intro h
  have hrun : (run step (initial false false) staleRun).any (fun s =>
      s.manager.isConnected && s.up && decide (s.pubSub.commands = []) &&
        decide ("pulse:room:a" ∈ s.subscribed) &&
          decide ("pulse:room:a" ∉ s.pubSub.subscribedChannels)) = true := by
    decide +kernel
  refine not_always_of_run ?_ hrun (h false false staleRun)
  intro s hs hrestored
  simp only [Bool.and_eq_true, decide_eq_true_eq] at hs
  obtain ⟨⟨⟨⟨hlink, hup⟩, hdone⟩, hsubscribed⟩, hunwanted⟩ := hs
  exact hunwanted ((hrestored hlink hup hdone _).mp hsubscribed)

end SubscriberLink

end Pulse
