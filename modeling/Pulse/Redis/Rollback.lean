import Pulse.Redis.Subscriptions
import Pulse.Transition.Run

/-!
# Rollback of rejected subscriptions

What a rejected SUBSCRIBE or UNSUBSCRIBE leaves behind, first for calls awaited
one after another on both layers, then for overlapping calls on the registry.

In the first setting only the registry rolls back: the Pub/Sub manager has
updated `subscribedChannels` before its `await` and keeps the update, so the
layers disagree after every rejected command. In the second the roll back
writes the count of an idle channel, whatever ran while the call was pending.
-/

namespace Pulse

open Transition Collections

/-! ## Calls awaited one after another -/

/-- The four calls which the room and connection managers make. -/
inductive RegistryCall
  | subscribeRoom (roomId : RoomId)
  | unsubscribeRoom (roomId : RoomId)
  | subscribeUser (userId : UserId)
  | unsubscribeUser (userId : UserId)
  deriving DecidableEq, Repr

namespace RegistryCall

def channel : RegistryCall → Except String Channel
  | subscribeRoom roomId | unsubscribeRoom roomId => getRoomChannel roomId
  | subscribeUser userId | unsubscribeUser userId => getUserChannel userId

def subscribes : RegistryCall → Bool
  | subscribeRoom _ | subscribeUser _ => true
  | unsubscribeRoom _ | unsubscribeUser _ => false

end RegistryCall

/-- How an awaited call ends: with the flag "a 0/1 transition happened" or an error. -/
inductive Outcome
  | resolved (transition : Bool)
  | rejected
  deriving DecidableEq, Repr

namespace Subscriptions

/-- The Pub/Sub call which the registry makes for a call on `channel`. -/
def transition (s : Subscriptions) (subscribes : Bool) (channel : Channel) : Option PubSubCall :=
  if subscribes then (s.registry.incrementSubscription channel).2
  else (s.registry.decrementSubscription channel).2

/-- Does the call reach Redis? Then its reply decides, otherwise it resolves. -/
def issues (s : Subscriptions) (subscribes : Bool) (channel : Channel) : Bool :=
  match s.transition subscribes channel with
  | none => false
  | some call => (s.pubSub.perform call).2

def start (s : Subscriptions) (subscribes : Bool) (channel : Channel) : Subscriptions :=
  if subscribes then s.increment channel else s.decrement channel

/-- A call that is awaited: nothing else runs between its start and the reply.
`rejects` says how Redis answers the command, if there is one. -/
def callAwaited (s : Subscriptions) (call : RegistryCall) (rejects : Bool) :
    Subscriptions × Outcome :=
  match call.channel with
  | .error _ => (s, .rejected)
  | .ok channel =>
      let transition := s.transition call.subscribes channel
      let started := s.start call.subscribes channel
      let settled := { started with pending := s.pending }
      match transition with
      | some pubSubCall =>
          if s.issues call.subscribes channel && rejects then
            ({ settled with registry := started.registry.rollback pubSubCall }, .rejected)
          else (settled, .resolved true)
      | none => (settled, .resolved false)

end Subscriptions

/-- Awaited calls, and the link going down or coming back between them. -/
inductive AwaitedEvent
  | call (call : RegistryCall) (rejects : Bool)
  | link (connected : Bool)
  deriving DecidableEq, Repr

def awaitedStep (s : Subscriptions) : AwaitedEvent → Option Subscriptions
  | .call call rejects => some (s.callAwaited call rejects).1
  | .link connected =>
      let pubSub := { s.pubSub with connected }
      some { s with pubSub := if connected then pubSub.restoreSubscriptions else pubSub }

/-- A fresh registry over a fresh Pub/Sub manager. -/
def Subscriptions.initial (connected : Bool) : Subscriptions :=
  { pubSub := { connected } }

/-- The promise about one awaited call: a rejected call changes nothing, a
subscribe that reports a 0 → 1 transition issues a SUBSCRIBE while the link is
up, and afterwards the two layers agree. -/
structure RollbackEffective (s : Subscriptions) (call : RegistryCall) (outcome : Outcome)
    (t : Subscriptions) : Prop where
  counts : outcome = .rejected → ∀ c, t.getRefCount c = s.getRefCount c
  channels : outcome = .rejected →
    ∀ c, c ∈ t.pubSub.subscribedChannels ↔ c ∈ s.pubSub.subscribedChannels
  physical : ∀ channel, call.subscribes = true → call.channel = .ok channel →
    outcome = .resolved true → s.pubSub.connected = true →
    t.pubSub.commands = s.pubSub.commands ++ [.subscribe [channel]]
  agree : t.Agree

/-- `RollbackEffective` for the transitions that are calls. -/
def AwaitedEffective (s : Subscriptions) (e : AwaitedEvent) (t : Subscriptions) : Prop :=
  match e with
  | .call call rejects => RollbackEffective s call (s.callAwaited call rejects).2 t
  | .link _ => True

/-- No command that the call issues is rejected. -/
def CommandAccepted (s : Subscriptions) (e : AwaitedEvent) (_ : Subscriptions) : Prop :=
  match e with
  | .call call rejects =>
      ∀ channel, call.channel = .ok channel → s.issues call.subscribes channel = true →
        rejects = false
  | .link _ => True

namespace Subscriptions

theorem start_agree {s : Subscriptions} (h : s.Agree) (subscribes : Bool) (channel : Channel) :
    (s.start subscribes channel).Agree := by
  cases subscribes with
  | true => exact h.increment channel
  | false => exact h.decrement channel

theorem link_agree {s t : Subscriptions} {connected : Bool} (h : s.Agree)
    (ht : awaitedStep s (.link connected) = some t) : t.Agree := by
  simp only [awaitedStep, Option.some.injEq] at ht
  subst ht
  intro c
  refine Iff.trans ?_ (h c)
  cases connected with
  | false => rfl
  | true =>
      simp only [if_true, RedisPubSubManager.restoreSubscriptions]
      split <;> rfl

/-- A 0 → 1 transition over agreeing layers writes one SUBSCRIBE while the link is up. -/
theorem start_commands {s : Subscriptions} (h : s.Agree) (up : s.pubSub.connected = true)
    {channel : Channel} (ht : (s.transition true channel).isSome) :
    (s.start true channel).pubSub.commands = s.pubSub.commands ++ [.subscribe [channel]] := by
  simp only [transition, if_true, ChannelRegistry.increment_call] at ht
  have hzero : s.registry.getRefCount channel = 0 := by
    by_contra hne
    simp [hne] at ht
  have hmem : channel ∉ s.pubSub.subscribedChannels := by
    rw [h channel, getRefCount, hzero]
    exact Nat.lt_irrefl 0
  simp [start, increment, await, hzero, RedisPubSubManager.perform,
    RedisPubSubManager.subscribe, hmem, up]

/-- A call whose command is not rejected keeps the promise. -/
theorem effective_of_accepted {s : Subscriptions} (h : s.Agree) {call : RegistryCall}
    {rejects : Bool}
    (accepted : ∀ channel, call.channel = .ok channel →
      s.issues call.subscribes channel = true → rejects = false) :
    RollbackEffective s call (s.callAwaited call rejects).2 (s.callAwaited call rejects).1 := by
  cases hchannel : call.channel with
  | error message =>
      simp only [callAwaited, hchannel]
      refine ⟨fun _ _ => rfl, fun _ _ => Iff.rfl, ?_, h⟩
      intro c _ hok
      rw [hchannel] at hok
      cases hok
  | ok channel =>
      have hstart := start_agree h call.subscribes channel
      have hnot : (s.issues call.subscribes channel && rejects) = false := by
        cases hi : s.issues call.subscribes channel with
        | false => rfl
        | true => rw [accepted channel hchannel hi]; rfl
      cases htr : s.transition call.subscribes channel with
      | none =>
          simp only [callAwaited, hchannel, htr]
          refine ⟨nofun, nofun, ?_, hstart⟩
          intro c _ _ hres
          cases hres
      | some pubSubCall =>
          simp only [callAwaited, hchannel, htr, hnot, Bool.false_eq_true, if_false]
          refine ⟨nofun, nofun, ?_, hstart⟩
          intro c hsub hc _ hup
          rw [hchannel, Except.ok.injEq] at hc
          subst hc
          rw [hsub] at htr ⊢
          exact start_commands h hup (by rw [htr]; rfl)

/-- A rejected command changes `subscribedChannels` for good, so the promise is
broken by that very call. -/
theorem not_effective_of_rejected {s : Subscriptions} (h : s.Agree) {call : RegistryCall}
    {channel : Channel} (hchannel : call.channel = .ok channel)
    (hissues : s.issues call.subscribes channel = true) :
    ¬ RollbackEffective s call (s.callAwaited call true).2 (s.callAwaited call true).1 := by
  intro heff
  obtain ⟨pubSubCall, htr⟩ : ∃ c, s.transition call.subscribes channel = some c := by
    cases htr : s.transition call.subscribes channel with
    | none => simp [issues, htr] at hissues
    | some c => exact ⟨c, rfl⟩
  have hstart := start_agree h call.subscribes channel
  have hsame := heff.channels (by simp [callAwaited, hchannel, htr, hissues]) channel
  have hcounts := heff.counts (by simp [callAwaited, hchannel, htr, hissues]) channel
  have hagree := heff.agree channel
  simp only [callAwaited, hchannel, htr, hissues, Bool.and_self, if_true] at hsame
  rw [hstart channel, h channel] at hsame
  cases hsub : call.subscribes with
  | true =>
      rw [hsub] at hsame htr
      simp only [start, if_true, getRefCount_increment] at hsame
      simp only [transition, if_true, ChannelRegistry.increment_call] at htr
      have hzero : s.registry.getRefCount channel = 0 := by
        by_contra hne
        simp [hne] at htr
      simp [getRefCount, hzero] at hsame
  | false =>
      rw [hsub] at hsame htr
      simp only [start, Bool.false_eq_true, if_false, getRefCount_decrement] at hsame
      simp only [transition, Bool.false_eq_true, if_false, ChannelRegistry.decrement_call] at htr
      have hone : s.registry.getRefCount channel = 1 := by
        by_contra hne
        simp [hne] at htr
      simp [getRefCount, hone] at hsame

theorem initial_agree (connected : Bool) : (initial connected).Agree := by
  intro c
  simp [initial, getRefCount, ChannelRegistry.getRefCount]

end Subscriptions

/-- Over whole runs, from any link state: the promise is kept by every call
exactly when no issued command is rejected. -/
theorem rollback_effective_iff (connected : Bool) (es : List AwaitedEvent) :
    EveryStep awaitedStep AwaitedEffective (Subscriptions.initial connected) es ↔
      EveryStep awaitedStep CommandAccepted (Subscriptions.initial connected) es := by
  refine everyStep_iff (G := Subscriptions.Agree) ?same ?keep
    (Subscriptions.initial_agree connected) es
  case same =>
    intro s e t hagree ht
    cases e with
    | link b => exact Iff.rfl
    | call call rejects =>
        simp only [awaitedStep, Option.some.injEq] at ht
        subst ht
        constructor
        · intro heff channel hchannel hissues
          cases rejects with
          | false => rfl
          | true =>
              exact absurd heff
                (Subscriptions.not_effective_of_rejected hagree hchannel hissues)
        · exact fun haccepted => Subscriptions.effective_of_accepted hagree haccepted
  case keep =>
    intro s e t hagree ht haccepted
    cases e with
    | link b => exact Subscriptions.link_agree hagree ht
    | call call rejects =>
        simp only [awaitedStep, Option.some.injEq] at ht
        subst ht
        exact (Subscriptions.effective_of_accepted hagree haccepted).agree

/-- One rejected SUBSCRIBE: the count is rolled back, the channel stays in
`subscribedChannels`, and the retry issues no command. -/
theorem rollback_not_effective :
    ¬ ∀ connected es,
      EveryStep awaitedStep AwaitedEffective (Subscriptions.initial connected) es := by
  intro h
  have heff := (h true [.call (.subscribeRoom "flaky_room") true] _ rfl).1
  have hchannel : (RegistryCall.subscribeRoom "flaky_room").channel =
      .ok "pulse:room:flaky_room" := by decide
  exact Subscriptions.not_effective_of_rejected (Subscriptions.initial_agree true)
    hchannel (by decide) heff

/-! ## Overlapping calls -/

/-- The registry over an arbitrary Pub/Sub layer: every pending call may still
succeed or reject. -/
structure Overlap where
  registry : ChannelRegistry := {}
  pending : List PubSubCall := []

inductive OverlapEvent
  | subscribe (channel : Channel)
  | unsubscribe (channel : Channel)
  | settle (i : Nat) (accepted : Bool)
  deriving DecidableEq, Repr

def overlapStep (s : Overlap) : OverlapEvent → Option Overlap
  | .subscribe channel =>
      let (registry, call) := s.registry.incrementSubscription channel
      some { registry, pending := s.pending ++ call.toList }
  | .unsubscribe channel =>
      let (registry, call) := s.registry.decrementSubscription channel
      some { registry, pending := s.pending ++ call.toList }
  | .settle i accepted =>
      match s.pending[i]? with
      | none => none
      | some call => some
          { registry := if accepted then s.registry else s.registry.rollback call
            pending := s.pending.eraseIdx i }

/-- A rejected call takes back its own contribution to the current count. -/
def TakesBack (s t : ChannelRegistry) : PubSubCall → Prop
  | .subscribe channel => t.getRefCount channel = s.getRefCount channel - 1
  | .unsubscribe channel => t.getRefCount channel = s.getRefCount channel + 1

def RejectionTakesBack (s : Overlap) (e : OverlapEvent) (t : Overlap) : Prop :=
  ∀ i call, e = .settle i false → s.pending[i]? = some call →
    TakesBack s.registry t.registry call

/-- At the moment of the rejection no other subscriber is counted on the channel. -/
def RejectionUndisturbed (s : Overlap) (e : OverlapEvent) (_ : Overlap) : Prop :=
  ∀ i call, e = .settle i false → s.pending[i]? = some call →
    match call with
    | .subscribe channel => s.registry.getRefCount channel ≤ 1
    | .unsubscribe channel => s.registry.getRefCount channel = 0

theorem takesBack_rollback_iff (r : ChannelRegistry) (call : PubSubCall) :
    TakesBack r (r.rollback call) call ↔
      match call with
      | .subscribe channel => r.getRefCount channel ≤ 1
      | .unsubscribe channel => r.getRefCount channel = 0 := by
  cases call with
  | subscribe channel =>
      simp only [TakesBack, ChannelRegistry.getRefCount_rollback_subscribe, if_true]
      omega
  | unsubscribe channel =>
      simp only [TakesBack, ChannelRegistry.getRefCount_rollback_unsubscribe, if_true]
      omega

/-- Over whole runs of overlapping calls: every rejection takes back exactly its
own contribution if and only if none is disturbed by other calls. -/
theorem rejection_takesBack_iff (es : List OverlapEvent) :
    EveryStep overlapStep RejectionTakesBack {} es ↔
      EveryStep overlapStep RejectionUndisturbed {} es := by
  refine everyStep_iff (G := fun _ => True) ?same (fun _ _ _ _ _ _ => trivial) trivial es
  case same =>
    intro s e t _ ht
    refine forall₂_congr fun i call => forall₂_congr fun he hcall => ?_
    subst he
    simp only [overlapStep, hcall, Option.some.injEq] at ht
    subst ht
    exact takesBack_rollback_iff s.registry call

/-- Two overlapping subscribers, the first of which is rejected: the count of
the second is lost as well. -/
theorem rejection_not_takesBack :
    ¬ ∀ es, EveryStep overlapStep RejectionTakesBack {} es := by
  intro h
  have hrun := h [.subscribe "pulse:room:r", .subscribe "pulse:room:r", .settle 0 false]
  have htakes := (((hrun _ rfl).2 _ rfl).2 _ rfl).1 0 (.subscribe "pulse:room:r") rfl rfl
  -- Two subscribers were counted, so one should be left; the rollback leaves none.
  have hcounts : (0 : Nat) = 2 - 1 := htakes
  exact absurd hcounts (by decide)

end Pulse
