import Pulse.Collections.OrderedMap
import Pulse.Redis.Channel

/-!
# Reference-counted subscriptions

`ChannelRegistry` counts the local users of each channel and asks the
`RedisPubSubManager` below it for a physical subscription when a count leaves or
reaches zero. Both run on one thread: a call executes up to its `await` without
interruption, and what follows the `await` happens later, when the reply of
Redis is settled. `Subscriptions` holds both layers together with the registry
calls that are suspended in between.
-/

namespace Pulse

open Collections

/-- A Pub/Sub operation which the registry awaits. -/
inductive PubSubCall
  | subscribe (channel : Channel)
  | unsubscribe (channel : Channel)
  deriving DecidableEq, Repr

/-- A command on the subscriber connection. -/
inductive Command
  | subscribe (channels : List Channel)
  | unsubscribe (channel : Channel)
  deriving DecidableEq, Repr

/-- The channels of the subscriber connection after Redis executed a command. -/
def Command.exec (subscribed : OrderedSet Channel) : Command → OrderedSet Channel
  | .subscribe channels => channels.foldl OrderedSet.insert subscribed
  | .unsubscribe channel => subscribed.erase channel

structure ChannelRegistry where
  channelRefCounts : OrderedMap Channel Nat := ∅
  deriving DecidableEq, Repr

namespace ChannelRegistry

def getRefCount (r : ChannelRegistry) (channel : Channel) : Nat :=
  (r.channelRefCounts.get? channel).getD 0

/-- Up to the `await`: the new counts, and the Pub/Sub call of a 0 → 1 transition. -/
def incrementSubscription (r : ChannelRegistry) (channel : Channel) :
    ChannelRegistry × Option PubSubCall :=
  let currentCount := r.getRefCount channel
  let newCount := currentCount + 1
  let r' : ChannelRegistry := ⟨r.channelRefCounts.set channel newCount⟩
  if currentCount = 0 then (r', some (.subscribe channel)) else (r', none)

/-- Up to the `await`: the new counts, and the Pub/Sub call of a 1 → 0 transition. -/
def decrementSubscription (r : ChannelRegistry) (channel : Channel) :
    ChannelRegistry × Option PubSubCall :=
  let currentCount := r.getRefCount channel
  if currentCount = 0 then (⟨r.channelRefCounts.delete channel⟩, none)
  else if currentCount = 1 then
    (⟨r.channelRefCounts.delete channel⟩, some (.unsubscribe channel))
  else (⟨r.channelRefCounts.set channel (currentCount - 1)⟩, none)

/-- The `catch` branches: what a rejected Pub/Sub call does to the counts. -/
def rollback (r : ChannelRegistry) : PubSubCall → ChannelRegistry
  | .subscribe channel => ⟨r.channelRefCounts.delete channel⟩
  | .unsubscribe channel => ⟨r.channelRefCounts.set channel 1⟩

theorem getRefCount_delete (r : ChannelRegistry) (channel c : Channel) :
    (ChannelRegistry.mk (r.channelRefCounts.delete channel)).getRefCount c =
      if c = channel then 0 else r.getRefCount c := by
  by_cases h : c = channel
  · simp [getRefCount, h]
  · simp [getRefCount, OrderedMap.get?_delete, h]

theorem getRefCount_set (r : ChannelRegistry) (channel c : Channel) (n : Nat) :
    (ChannelRegistry.mk (r.channelRefCounts.set channel n)).getRefCount c =
      if c = channel then n else r.getRefCount c := by
  by_cases h : c = channel
  · simp [getRefCount, h]
  · simp [getRefCount, OrderedMap.get?_set, h]

theorem increment_registry (r : ChannelRegistry) (channel : Channel) :
    (r.incrementSubscription channel).1 =
      ⟨r.channelRefCounts.set channel (r.getRefCount channel + 1)⟩ := by
  by_cases h : r.getRefCount channel = 0 <;> simp [incrementSubscription, h]

@[simp] theorem increment_call (r : ChannelRegistry) (channel : Channel) :
    (r.incrementSubscription channel).2 =
      if r.getRefCount channel = 0 then some (.subscribe channel) else none := by
  by_cases h : r.getRefCount channel = 0 <;> simp [incrementSubscription, h]

theorem getRefCount_increment (r : ChannelRegistry) (channel c : Channel) :
    (r.incrementSubscription channel).1.getRefCount c =
      if c = channel then r.getRefCount c + 1 else r.getRefCount c := by
  rw [increment_registry, getRefCount_set]
  by_cases h : c = channel
  · simp [h]
  · simp [h]

theorem decrement_registry (r : ChannelRegistry) (channel : Channel) :
    (r.decrementSubscription channel).1 =
      if r.getRefCount channel ≤ 1 then ⟨r.channelRefCounts.delete channel⟩
      else ⟨r.channelRefCounts.set channel (r.getRefCount channel - 1)⟩ := by
  by_cases hzero : r.getRefCount channel = 0
  · simp [decrementSubscription, hzero]
  · by_cases hone : r.getRefCount channel = 1
    · simp [decrementSubscription, hone]
    · have hmany : ¬ r.getRefCount channel ≤ 1 := by omega
      simp [decrementSubscription, hzero, hone, hmany]

@[simp] theorem decrement_call (r : ChannelRegistry) (channel : Channel) :
    (r.decrementSubscription channel).2 =
      if r.getRefCount channel = 1 then some (.unsubscribe channel) else none := by
  by_cases hzero : r.getRefCount channel = 0
  · simp [decrementSubscription, hzero]
  · by_cases hone : r.getRefCount channel = 1
    · simp [decrementSubscription, hone]
    · simp [decrementSubscription, hzero, hone]

/-- A decrement never goes below zero. -/
theorem getRefCount_decrement (r : ChannelRegistry) (channel c : Channel) :
    (r.decrementSubscription channel).1.getRefCount c =
      if c = channel then r.getRefCount c - 1 else r.getRefCount c := by
  rw [decrement_registry]
  by_cases h : c = channel
  · subst h
    by_cases hle : r.getRefCount c ≤ 1
    · rw [if_pos hle, getRefCount_delete, if_pos rfl, if_pos rfl]
      omega
    · rw [if_neg hle, getRefCount_set, if_pos rfl]
  · by_cases hle : r.getRefCount channel ≤ 1
    · rw [if_pos hle, getRefCount_delete, if_neg h, if_neg h]
    · rw [if_neg hle, getRefCount_set, if_neg h, if_neg h]

theorem getRefCount_rollback_subscribe (r : ChannelRegistry) (channel c : Channel) :
    (r.rollback (.subscribe channel)).getRefCount c =
      if c = channel then 0 else r.getRefCount c :=
  getRefCount_delete r channel c

theorem getRefCount_rollback_unsubscribe (r : ChannelRegistry) (channel c : Channel) :
    (r.rollback (.unsubscribe channel)).getRefCount c =
      if c = channel then 1 else r.getRefCount c :=
  getRefCount_set r channel c 1

end ChannelRegistry

/-- The link state is read from the connection manager; `commands` are the ones
written to the subscriber connection and not yet executed, oldest first, and
`published` the messages of the issued PUBLISH commands. -/
structure RedisPubSubManager where
  connected : Bool
  subscribedChannels : OrderedSet Channel := ∅
  commands : List Command := []
  maxInFlightPublishes : Nat := 1000
  inFlightPublishes : Nat := 0
  published : List (Channel × PulseEventEnvelope) := []

namespace RedisPubSubManager

/-- Up to the `await`; the flag says that the call now waits for Redis. -/
def subscribe (p : RedisPubSubManager) (channel : Channel) : RedisPubSubManager × Bool :=
  if channel ∈ p.subscribedChannels then (p, false)
  else
    let p' := { p with subscribedChannels := p.subscribedChannels.insert channel }
    if p.connected then
      ({ p' with commands := p.commands ++ [.subscribe [channel]] }, true)
    else (p', false)

def unsubscribe (p : RedisPubSubManager) (channel : Channel) : RedisPubSubManager × Bool :=
  if channel ∈ p.subscribedChannels then
    let p' := { p with subscribedChannels := p.subscribedChannels.erase channel }
    if p.connected then
      ({ p' with commands := p.commands ++ [.unsubscribe channel] }, true)
    else (p', false)
  else (p, false)

def perform (p : RedisPubSubManager) : PubSubCall → RedisPubSubManager × Bool
  | .subscribe channel => p.subscribe channel
  | .unsubscribe channel => p.unsubscribe channel

/-- Issued when the link comes back; its failure is only logged. -/
def restoreSubscriptions (p : RedisPubSubManager) : RedisPubSubManager :=
  if p.subscribedChannels.size = 0 || !p.connected then p
  else { p with commands := p.commands ++ [.subscribe p.subscribedChannels.toList] }

def publish (p : RedisPubSubManager) (channel : Channel) (message : PulseEventEnvelope) :
    Except String RedisPubSubManager :=
  if !p.connected then
    .error ("Cannot publish to channel \"" ++ channel ++ "\": Redis is not connected.")
  else if p.inFlightPublishes ≥ p.maxInFlightPublishes then
    .error ("Redis publish backpressure limit reached (" ++
      toString p.maxInFlightPublishes ++ " in-flight)")
  else .ok { p with
    inFlightPublishes := p.inFlightPublishes + 1
    published := p.published ++ [(channel, message)] }

/-- The reply to one PUBLISH, successful or not. -/
def publishSettled (p : RedisPubSubManager) : RedisPubSubManager :=
  { p with inFlightPublishes := p.inFlightPublishes - 1 }

theorem publish_subscribedChannels {p p' : RedisPubSubManager} {channel : Channel}
    {message : PulseEventEnvelope} (h : p.publish channel message = .ok p') :
    p'.subscribedChannels = p.subscribedChannels := by
  simp only [publish] at h
  split at h
  · cases h
  · split at h
    · cases h
    · cases h
      rfl

theorem publish_published {p p' : RedisPubSubManager} {channel : Channel}
    {message : PulseEventEnvelope} (h : p.publish channel message = .ok p') :
    p'.published = p.published ++ [(channel, message)] := by
  simp only [publish] at h
  split at h
  · cases h
  · split at h
    · cases h
    · cases h
      rfl

/-- The channels of a Pub/Sub call before and after it ran up to its `await`. -/
theorem mem_perform_subscribe (p : RedisPubSubManager) (channel c : Channel) :
    c ∈ (p.perform (.subscribe channel)).1.subscribedChannels ↔
      c ∈ p.subscribedChannels ∨ c = channel := by
  simp only [perform, subscribe]
  split
  · rename_i hmem
    constructor
    · exact Or.inl
    · rintro (h | rfl)
      · exact h
      · exact hmem
  · split
    · exact OrderedSet.mem_insert
    · exact OrderedSet.mem_insert

theorem mem_perform_unsubscribe (p : RedisPubSubManager) (channel c : Channel) :
    c ∈ (p.perform (.unsubscribe channel)).1.subscribedChannels ↔
      c ≠ channel ∧ c ∈ p.subscribedChannels := by
  simp only [perform, unsubscribe]
  split
  · split
    · exact OrderedSet.mem_erase
    · exact OrderedSet.mem_erase
  · rename_i hmem
    constructor
    · intro h
      exact ⟨fun heq => hmem (heq ▸ h), h⟩
    · exact fun h => h.2

@[simp] theorem perform_connected (p : RedisPubSubManager) (call : PubSubCall) :
    (p.perform call).1.connected = p.connected := by
  cases call with
  | subscribe channel =>
      simp only [perform, subscribe]
      split
      · rfl
      · split <;> rfl
  | unsubscribe channel =>
      simp only [perform, unsubscribe]
      split
      · split <;> rfl
      · rfl

@[simp] theorem perform_published (p : RedisPubSubManager) (call : PubSubCall) :
    (p.perform call).1.published = p.published := by
  cases call with
  | subscribe channel =>
      simp only [perform, subscribe]
      split
      · rfl
      · split <;> rfl
  | unsubscribe channel =>
      simp only [perform, unsubscribe]
      split
      · split <;> rfl
      · rfl

end RedisPubSubManager

/-- Both layers, and the registry calls suspended until Redis replies. -/
structure Subscriptions where
  registry : ChannelRegistry := {}
  pubSub : RedisPubSubManager
  pending : List PubSubCall := []

namespace Subscriptions

def getRefCount (s : Subscriptions) (channel : Channel) : Nat := s.registry.getRefCount channel

/-- Run a Pub/Sub call up to its `await`. A call that resolves at once is never pending. -/
def await (s : Subscriptions) : Option PubSubCall → Subscriptions
  | none => s
  | some call =>
      { s with
        pubSub := (s.pubSub.perform call).1
        pending := if (s.pubSub.perform call).2 then s.pending ++ [call] else s.pending }

def increment (s : Subscriptions) (channel : Channel) : Subscriptions :=
  let (registry, call) := s.registry.incrementSubscription channel
  { s with registry }.await call

def decrement (s : Subscriptions) (channel : Channel) : Subscriptions :=
  let (registry, call) := s.registry.decrementSubscription channel
  { s with registry }.await call

/-- `subscribeRoom(...).catch(...)`: a blank identifier rejects without effect. -/
def subscribeRoom (s : Subscriptions) (roomId : RoomId) : Subscriptions :=
  match getRoomChannel roomId with
  | .ok channel => s.increment channel
  | .error _ => s

def unsubscribeRoom (s : Subscriptions) (roomId : RoomId) : Subscriptions :=
  match getRoomChannel roomId with
  | .ok channel => s.decrement channel
  | .error _ => s

def subscribeUser (s : Subscriptions) (userId : UserId) : Subscriptions :=
  match getUserChannel userId with
  | .ok channel => s.increment channel
  | .error _ => s

def unsubscribeUser (s : Subscriptions) (userId : UserId) : Subscriptions :=
  match getUserChannel userId with
  | .ok channel => s.decrement channel
  | .error _ => s

/-- The reply to the `i`-th pending call arrives; a rejection runs its `catch` branch. -/
def settle (s : Subscriptions) (i : Nat) (accepted : Bool) : Option Subscriptions :=
  match s.pending[i]? with
  | none => none
  | some call => some
      { s with
        registry := if accepted then s.registry else s.registry.rollback call
        pending := s.pending.eraseIdx i }

/-- An operation which leaves the counts and the subscribed channels alone. -/
def KeepsChannels (f : Subscriptions → Subscriptions) : Prop :=
  ∀ s, (f s).registry = s.registry ∧
    (f s).pubSub.subscribedChannels = s.pubSub.subscribedChannels

theorem keepsChannels_id : KeepsChannels fun s => s := fun _ => ⟨rfl, rfl⟩

@[simp] theorem await_registry (s : Subscriptions) (call : Option PubSubCall) :
    (s.await call).registry = s.registry := by
  cases call <;> rfl

section published

variable (s : Subscriptions)

@[simp] theorem await_published (call : Option PubSubCall) :
    (s.await call).pubSub.published = s.pubSub.published := by
  cases call with
  | none => rfl
  | some call => exact RedisPubSubManager.perform_published s.pubSub call

theorem increment_published (channel : Channel) :
    (s.increment channel).pubSub.published = s.pubSub.published :=
  await_published _ _

theorem decrement_published (channel : Channel) :
    (s.decrement channel).pubSub.published = s.pubSub.published :=
  await_published _ _

@[simp] theorem subscribeRoom_published (roomId : RoomId) :
    (s.subscribeRoom roomId).pubSub.published = s.pubSub.published := by
  rw [subscribeRoom]
  split
  · exact increment_published s _
  · rfl

@[simp] theorem unsubscribeRoom_published (roomId : RoomId) :
    (s.unsubscribeRoom roomId).pubSub.published = s.pubSub.published := by
  rw [unsubscribeRoom]
  split
  · exact decrement_published s _
  · rfl

@[simp] theorem subscribeUser_published (userId : UserId) :
    (s.subscribeUser userId).pubSub.published = s.pubSub.published := by
  rw [subscribeUser]
  split
  · exact increment_published s _
  · rfl

@[simp] theorem unsubscribeUser_published (userId : UserId) :
    (s.unsubscribeUser userId).pubSub.published = s.pubSub.published := by
  rw [unsubscribeUser]
  split
  · exact decrement_published s _
  · rfl

theorem settle_published {s' : Subscriptions} {i : Nat} {accepted : Bool}
    (h : s.settle i accepted = some s') : s'.pubSub.published = s.pubSub.published := by
  rw [settle] at h
  split at h
  · cases h
  · cases h
    rfl

end published

theorem getRefCount_increment (s : Subscriptions) (channel c : Channel) :
    (s.increment channel).getRefCount c =
      if c = channel then s.getRefCount c + 1 else s.getRefCount c := by
  simp only [getRefCount, increment, await_registry]
  exact s.registry.getRefCount_increment channel c

theorem getRefCount_decrement (s : Subscriptions) (channel c : Channel) :
    (s.decrement channel).getRefCount c =
      if c = channel then s.getRefCount c - 1 else s.getRefCount c := by
  simp only [getRefCount, decrement, await_registry]
  exact s.registry.getRefCount_decrement channel c

/-- The two layers agree: exactly the counted channels are subscribed. -/
def Agree (s : Subscriptions) : Prop :=
  ∀ c, c ∈ s.pubSub.subscribedChannels ↔ 0 < s.getRefCount c

theorem Agree.increment {s : Subscriptions} (h : s.Agree) (channel : Channel) :
    (s.increment channel).Agree := by
  intro c
  rw [getRefCount_increment]
  simp only [Subscriptions.increment, ChannelRegistry.increment_call]
  by_cases hzero : s.registry.getRefCount channel = 0
  · rw [if_pos hzero]
    refine (RedisPubSubManager.mem_perform_subscribe s.pubSub channel c).trans ?_
    rw [h c]
    by_cases hc : c = channel <;> simp [hc]
  · rw [if_neg hzero]
    refine (h c).trans ?_
    by_cases hc : c = channel
    · subst hc
      simp only [getRefCount, if_true]
      omega
    · simp [hc]

theorem Agree.decrement {s : Subscriptions} (h : s.Agree) (channel : Channel) :
    (s.decrement channel).Agree := by
  intro c
  rw [getRefCount_decrement]
  simp only [Subscriptions.decrement, ChannelRegistry.decrement_call]
  by_cases hone : s.registry.getRefCount channel = 1
  · rw [if_pos hone]
    refine (RedisPubSubManager.mem_perform_unsubscribe s.pubSub channel c).trans ?_
    rw [h c]
    by_cases hc : c = channel
    · subst hc
      simp [getRefCount, hone]
    · simp [hc]
  · rw [if_neg hone]
    refine (h c).trans ?_
    by_cases hc : c = channel
    · subst hc
      simp only [getRefCount, if_true]
      omega
    · simp [hc]

end Subscriptions

end Pulse
