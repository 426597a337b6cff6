import Pulse.Transition.Run
import Mathlib.Tactic.SplitIfs

/-!
# Presence metrics

The presence figures of a node: the totals of its presence manager, those of
the Redis metrics, and the counters and gauges of the registry which both
record into. Flushes, publications and inbound events are counted when they
come to their end.
-/

namespace Pulse

open Transition

/-- The presence metrics of a registry. -/
structure PresenceRegistry where
  leaseRenewalsTotal : Nat := 0
  /-- `pulse_presence_events_total{direction="published"}` -/
  eventsPublishedTotal : Nat := 0
  eventsReceivedTotal : Nat := 0
  usersOnline : Nat := 0
  connectionsActive : Nat := 0
  deriving DecidableEq, Repr

/-- The part of `RedisMetrics` about presence, with the registry they record into. -/
structure PresenceRedisMetrics where
  presenceUsersOnline : Nat := 0
  presenceConnectionsActive : Nat := 0
  presenceEventsPublished : Nat := 0
  presenceEventsReceived : Nat := 0
  presenceLeaseRenewals : Nat := 0
  registry : PresenceRegistry := {}
  deriving DecidableEq, Repr

namespace PresenceRegistry

def incEventsPublished (r : PresenceRegistry) : PresenceRegistry :=
  { r with eventsPublishedTotal := r.eventsPublishedTotal + 1 }

def incEventsReceived (r : PresenceRegistry) : PresenceRegistry :=
  { r with eventsReceivedTotal := r.eventsReceivedTotal + 1 }

def incLeaseRenewals (r : PresenceRegistry) (count : Nat) : PresenceRegistry :=
  { r with leaseRenewalsTotal := r.leaseRenewalsTotal + count }

def setGauges (r : PresenceRegistry) (users connections : Nat) : PresenceRegistry :=
  { r with usersOnline := users, connectionsActive := connections }

end PresenceRegistry

namespace PresenceRedisMetrics

def recordPresenceEventPublished (m : PresenceRedisMetrics) : PresenceRedisMetrics :=
  { m with
    presenceEventsPublished := m.presenceEventsPublished + 1
    registry := m.registry.incEventsPublished }

def recordPresenceEventReceived (m : PresenceRedisMetrics) : PresenceRedisMetrics :=
  { m with
    presenceEventsReceived := m.presenceEventsReceived + 1
    registry := m.registry.incEventsReceived }

def recordPresenceLeaseRenewals (m : PresenceRedisMetrics) (count : Nat) : PresenceRedisMetrics :=
  { m with
    presenceLeaseRenewals := m.presenceLeaseRenewals + count
    registry := m.registry.incLeaseRenewals count }

def setPresenceCounts (m : PresenceRedisMetrics) (users connections : Nat) : PresenceRedisMetrics :=
  { m with
    presenceUsersOnline := users
    presenceConnectionsActive := connections
    registry := m.registry.setGauges users connections }

/-- What the manager records into the registry itself, next to the Redis metrics. -/
def own (m : PresenceRedisMetrics) (record : PresenceRegistry → PresenceRegistry) :
    PresenceRedisMetrics :=
  { m with registry := record m.registry }

end PresenceRedisMetrics

/-- The counters of a presence manager which shares its registry with its pub/sub manager. -/
structure PresenceCounters where
  eventsPublished : Nat := 0
  eventsReceived : Nat := 0
  totalLeaseRenewals : Nat := 0
  metrics : PresenceRedisMetrics := {}
  /-- Whether the pub/sub manager is connected. -/
  connected : Bool := true
  /-- The connections of the flush under way. -/
  flushing : Option Nat := none
  /-- The publications under way. -/
  publishing : Nat := 0
  deriving DecidableEq, Repr

namespace PresenceCounters

inductive Event where
  | connection (connected : Bool)
  | flushLeaseRenewals (activeConnections : Nat)
  | pipelineEnds (succeeded : Bool)
  | publishPresenceUpdate
  | publicationEnds (succeeded : Bool)
  | recordInboundEvent
  deriving DecidableEq, Repr

/-- A flush which finds another under way, or no connection, does nothing. -/
def flushLeaseRenewals (c : PresenceCounters) (activeConnections : Nat) : PresenceCounters :=
  if c.flushing.isSome then c
  else if activeConnections = 0 then c
  else { c with flushing := some activeConnections }

def pipelineEnds (c : PresenceCounters) (activeConnections : Nat) (succeeded : Bool) :
    PresenceCounters :=
  let c := { c with flushing := none }
  if succeeded then
    { c with
      totalLeaseRenewals := c.totalLeaseRenewals + activeConnections
      metrics := (c.metrics.recordPresenceLeaseRenewals activeConnections).own
        (·.incLeaseRenewals activeConnections) }
  else c

def publishPresenceUpdate (c : PresenceCounters) : PresenceCounters :=
  if c.connected then { c with publishing := c.publishing + 1 } else c

def publicationEnds (c : PresenceCounters) (succeeded : Bool) : PresenceCounters :=
  let c := { c with publishing := c.publishing - 1 }
  if succeeded then
    { c with
      eventsPublished := c.eventsPublished + 1
      metrics := c.metrics.recordPresenceEventPublished.own (·.incEventsPublished) }
  else c

def recordInboundEvent (c : PresenceCounters) : PresenceCounters :=
  { c with
    eventsReceived := c.eventsReceived + 1
    metrics := c.metrics.recordPresenceEventReceived.own (·.incEventsReceived) }

def step (c : PresenceCounters) : Event → Option PresenceCounters
  | .connection connected => some { c with connected }
  | .flushLeaseRenewals activeConnections => some (c.flushLeaseRenewals activeConnections)
  | .pipelineEnds succeeded =>
      c.flushing.map fun activeConnections => c.pipelineEnds activeConnections succeeded
  | .publishPresenceUpdate => some c.publishPresenceUpdate
  | .publicationEnds succeeded =>
      if c.publishing = 0 then none else some (c.publicationEnds succeeded)
  | .recordInboundEvent => some c.recordInboundEvent

/-- The registry's counters are the totals of the manager's snapshot. -/
structure Agrees (c : PresenceCounters) : Prop where
  renewals : c.metrics.registry.leaseRenewalsTotal = c.totalLeaseRenewals
  published : c.metrics.registry.eventsPublishedTotal = c.eventsPublished
  received : c.metrics.registry.eventsReceivedTotal = c.eventsReceived

/-- The event counts nothing. -/
def Uncounted : Event → Prop
  | .pipelineEnds succeeded => succeeded = false
  | .publicationEnds succeeded => succeeded = false
  | .recordInboundEvent => False
  | _ => True

/-- Every fact is in the registry twice; a flush under way has connections. -/
structure Doubled (c : PresenceCounters) : Prop where
  renewals : c.metrics.registry.leaseRenewalsTotal = 2 * c.totalLeaseRenewals
  published : c.metrics.registry.eventsPublishedTotal = 2 * c.eventsPublished
  received : c.metrics.registry.eventsReceivedTotal = 2 * c.eventsReceived
  flushing : ∀ activeConnections, c.flushing = some activeConnections → 0 < activeConnections

theorem doubled_initial : Doubled {} := ⟨rfl, rfl, rfl, nofun⟩

theorem agrees_initial : Agrees {} := ⟨rfl, rfl, rfl⟩

/-- A step keeps both figures of every fact in proportion, and they stay equal exactly if it
counts nothing. -/
theorem step_doubled {c d : PresenceCounters} {e : Event} (h : c.Doubled)
    (hstep : c.step e = some d) : d.Doubled ∧ (c.Agrees → (d.Agrees ↔ Uncounted e)) := by
  cases e with
  | connection connected =>
      cases hstep
      exact ⟨⟨h.renewals, h.published, h.received, h.flushing⟩,
        fun agrees => iff_of_true ⟨agrees.renewals, agrees.published, agrees.received⟩ trivial⟩
  | flushLeaseRenewals activeConnections =>
      cases hstep
      rw [flushLeaseRenewals]
      split_ifs with busy idle
      · exact ⟨h, fun agrees => iff_of_true agrees trivial⟩
      · exact ⟨h, fun agrees => iff_of_true agrees trivial⟩
      · refine ⟨⟨h.renewals, h.published, h.received, ?_⟩, fun agrees =>
          iff_of_true ⟨agrees.renewals, agrees.published, agrees.received⟩ trivial⟩
        intro n hn
        cases hn
        exact Nat.pos_of_ne_zero idle
  | pipelineEnds succeeded =>
      obtain ⟨activeConnections, hflush, rfl⟩ := Option.map_eq_some_iff.mp hstep
      have positive := h.flushing _ hflush
      have renewals := h.renewals
      cases succeeded with
      | false =>
          exact ⟨⟨h.renewals, h.published, h.received, nofun⟩,
            fun agrees => iff_of_true ⟨agrees.renewals, agrees.published, agrees.received⟩ rfl⟩
      | true =>
          refine ⟨⟨?_, h.published, h.received, nofun⟩, fun agrees => iff_of_false ?_ nofun⟩
          · change c.metrics.registry.leaseRenewalsTotal + activeConnections + activeConnections =
              2 * (c.totalLeaseRenewals + activeConnections)
            omega
          · intro later
            have same : c.metrics.registry.leaseRenewalsTotal + activeConnections +
                activeConnections = c.totalLeaseRenewals + activeConnections := later.renewals
            omega
  | publishPresenceUpdate =>
      cases hstep
      rw [publishPresenceUpdate]
      split_ifs
      · exact ⟨⟨h.renewals, h.published, h.received, h.flushing⟩,
          fun agrees => iff_of_true ⟨agrees.renewals, agrees.published, agrees.received⟩ trivial⟩
      · exact ⟨h, fun agrees => iff_of_true agrees trivial⟩
  | publicationEnds succeeded =>
      obtain ⟨-, hends⟩ := Option.ite_none_left_eq_some.mp hstep
      cases hends
      have published := h.published
      cases succeeded with
      | false =>
          exact ⟨⟨h.renewals, h.published, h.received, h.flushing⟩,
            fun agrees => iff_of_true ⟨agrees.renewals, agrees.published, agrees.received⟩ rfl⟩
      | true =>
          refine ⟨⟨h.renewals, ?_, h.received, h.flushing⟩, fun agrees => iff_of_false ?_ nofun⟩
          · change c.metrics.registry.eventsPublishedTotal + 1 + 1 = 2 * (c.eventsPublished + 1)
            omega
          · intro later
            have same : c.metrics.registry.eventsPublishedTotal + 1 + 1 = c.eventsPublished + 1 :=
              later.published
            omega
  | recordInboundEvent =>
      cases hstep
      have received := h.received
      refine ⟨⟨h.renewals, h.published, ?_, h.flushing⟩, fun agrees => iff_of_false ?_ nofun⟩
      · change c.metrics.registry.eventsReceivedTotal + 1 + 1 = 2 * (c.eventsReceived + 1)
        omega
      · intro later
        have same : c.metrics.registry.eventsReceivedTotal + 1 + 1 = c.eventsReceived + 1 :=
          later.received
        omega

/-- Agreement: the counters of the registry agree with the manager's totals throughout a run
exactly when no flush renews a lease, no publication succeeds and no event arrives. -/
theorem always_agrees_iff (es : List Event) :
    Always step Agrees {} es ↔ EveryStep step (fun _ e _ => Uncounted e) {} es :=
  always_iff_everyStep (fun _ _ _ h hstep => (step_doubled h hstep).1)
    (fun _ _ _ h agrees hstep => (step_doubled h hstep).2 agrees) doubled_initial agrees_initial es

/-- One inbound event is counted twice. -/
theorem inbound_event_counted_twice : ¬ Always step Agrees {} [.recordInboundEvent] := by
  intro h
  have last : Agrees (recordInboundEvent {}) := (h.2 _ rfl)
  exact absurd last.received (by decide)

end PresenceCounters

end Pulse
