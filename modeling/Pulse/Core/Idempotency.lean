import Pulse.Collections.OrderedMap
import Pulse.Event.Envelope

/-!
# Idempotency cache

A bounded map from the ids of processed events to the acknowledgements they were
given, in the order of the last use. An entry is found by its event id alone; the
digest of the payload tells a retransmission from a conflicting reuse of the id.
The digest function is a parameter, as is what the engine refuses to serialise.
-/

namespace Pulse

open Collections

structure IdempotencyEntry where
  eventId : EventId
  payloadHash : String
  ackEnvelope : PulseEventEnvelope
  timestamp : Int

structure IdempotencyCheckResult where
  isDuplicate : Bool
  hasConflict : Bool := false
  cachedAck : Option PulseEventEnvelope := none

structure IdempotencyOptions where
  capacity : Nat := 10000
  ttlMs : Int := 60000
  /-- The hexadecimal SHA-256 of a text. -/
  digest : String → String
  /-- Whether `JSON.stringify` throws: the payload is nested too deep for the stack. -/
  stringifyThrows : Js.Fields → Bool := fun _ => false

structure IdempotencyManager where
  cache : OrderedMap EventId IdempotencyEntry := ∅

namespace IdempotencyManager

/-- `JSON.stringify(payload, Object.keys(payload).sort())`. -/
def serialize (payload : Js.Fields) : String :=
  Js.stringifyWith (Js.sortedKeys payload) (.obj payload)

/-- The `catch` makes one fingerprint of all payloads that cannot be serialised. -/
def hashPayload (options : IdempotencyOptions) (payload : Js.Fields) : String :=
  if options.stringifyThrows payload then "" else options.digest (serialize payload)

/-- A hit moves the entry to the end of the order; an expired entry is dropped. -/
def check (options : IdempotencyOptions) (m : IdempotencyManager) (eventId : EventId)
    (currentPayload : Js.Fields) (now : Int) : IdempotencyManager × IdempotencyCheckResult :=
  match m.cache.get? eventId with
  | none => (m, { isDuplicate := false })
  | some entry =>
      if now - entry.timestamp > options.ttlMs then
        (⟨m.cache.delete eventId⟩, { isDuplicate := false })
      else
        let cache := (m.cache.delete eventId).set eventId entry
        if entry.payloadHash ≠ hashPayload options currentPayload then
          (⟨cache⟩, { isDuplicate := true, hasConflict := true })
        else (⟨cache⟩, { isDuplicate := true, cachedAck := some entry.ackEnvelope })

/-- Make room for a new entry; an oldest key that is the empty string is not evicted. -/
def evictOldest (options : IdempotencyOptions) (cache : OrderedMap EventId IdempotencyEntry) :
    OrderedMap EventId IdempotencyEntry :=
  if cache.size ≥ options.capacity then
    match cache.keys.head? with
    | none => cache
    | some oldestKey => if oldestKey = "" then cache else cache.delete oldestKey
  else cache

def recordAck (options : IdempotencyOptions) (m : IdempotencyManager) (eventId : EventId)
    (ackEnvelope : PulseEventEnvelope) (payload : Js.Fields) (now : Int) : IdempotencyManager :=
  ⟨(evictOldest options m.cache).set eventId
    { eventId, payloadHash := hashPayload options payload, ackEnvelope, timestamp := now }⟩

/-- The loop of `pruneExpired` over the entries, up to the first one that is not expired. -/
def pruneLoop (options : IdempotencyOptions) (now : Int) :
    List (EventId × IdempotencyEntry) → OrderedMap EventId IdempotencyEntry → Nat →
      OrderedMap EventId IdempotencyEntry × Nat
  | [], cache, pruned => (cache, pruned)
  | (eventId, entry) :: rest, cache, pruned =>
      if now - entry.timestamp > options.ttlMs then
        pruneLoop options now rest (cache.delete eventId) (pruned + 1)
      else (cache, pruned)

def pruneExpired (options : IdempotencyOptions) (m : IdempotencyManager) (now : Int) :
    IdempotencyManager × Nat :=
  let (cache, pruned) := pruneLoop options now m.cache.entries m.cache 0
  (⟨cache⟩, pruned)

/-- An injective stand-in for the digest, which gives the empty string for no text. -/
def tagged (text : String) : String := "#" ++ text

theorem tagged_injective : Function.Injective tagged :=
  fun _ _ h => (String.append_right_inj "#").mp h

theorem tagged_ne_empty (text : String) : tagged text ≠ "" := by
  simp [tagged]

end IdempotencyManager

end Pulse
