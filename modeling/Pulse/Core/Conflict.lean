import Pulse.Core.IdempotencyWindow
import Pulse.Js.Equality

/-!
# Conflicting payloads

The fingerprint of a payload is the digest of its text under its own property names,
or the empty string if it cannot be serialised. The names are those of the top level,
but select the properties of nested objects too: what they do not select is no part of
the fingerprint, and two payloads that differ only there are taken for one. So are two
payloads of which neither can be serialised.
-/

namespace Pulse

open Collections Js

namespace IdempotencyManager

variable {options : IdempotencyOptions} {m m' : IdempotencyManager} {p q : Fields}
variable {eventId : EventId} {ack : PulseEventEnvelope} {recorded now : Int}

/-- What the fingerprint of a payload is made from: nested properties are left out unless a
property of the top level has the same name. -/
def fingerprinted (payload : Fields) : Json := reparseWith (sortedKeys payload) (.obj payload)

/-- Two payloads have one fingerprint: neither can be serialised, or both can, and what is left
of them agrees. -/
def SameFingerprint (options : IdempotencyOptions) (p q : Fields) : Prop :=
  options.stringifyThrows p = options.stringifyThrows q ∧
    (options.stringifyThrows p = false → Same (fingerprinted p) (fingerprinted q))

theorem hashPayload_eq_iff (injective : Function.Injective options.digest)
    (nonempty : ∀ text, options.digest text ≠ "")
    (hp : (Json.obj p).Parsed) (hq : (Json.obj q).Parsed) :
    hashPayload options p = hashPayload options q ↔ SameFingerprint options p q := by
  have htext : options.digest (serialize p) = options.digest (serialize q) ↔
      Same (fingerprinted p) (fingerprinted q) :=
    injective.eq_iff.trans (stringifyWith_sortedKeys_iff hp hq)
  rw [hashPayload, hashPayload, SameFingerprint]
  cases hthrows : options.stringifyThrows p <;> cases hthrows' : options.stringifyThrows q
  · simpa using htext
  · simpa using nonempty (serialize p)
  · simpa using (nonempty (serialize q)).symm
  · simp

/-- While the entry of an event is held, a check compares the fingerprints. -/
theorem hasConflict_check_iff
    (held : m'.cache.get? eventId = (recordAck options m eventId ack p recorded).cache.get? eventId)
    (within : now - recorded ≤ options.ttlMs) :
    (check options m' eventId q now).2.hasConflict = true ↔
      hashPayload options p ≠ hashPayload options q := by
  have hentry := held
  simp only [recordAck, OrderedMap.get?_set_self] at hentry
  rw [check_of_hit q hentry within]
  by_cases h : hashPayload options p = hashPayload options q <;> simp [h]

/-- No reordering of properties is taken for a conflict. -/
theorem no_false_conflict (hp : (Json.obj p).Parsed) (hq : (Json.obj q).Parsed)
    (held : m'.cache.get? eventId = (recordAck options m eventId ack p recorded).cache.get? eventId)
    (within : now - recorded ≤ options.ttlMs) (same : Same (.obj p) (.obj q))
    (alike : options.stringifyThrows p = options.stringifyThrows q) :
    (check options m' eventId q now).2.hasConflict = false := by
  have htext : serialize p = serialize q :=
    (stringifyWith_sortedKeys_iff hp hq).mpr (same.reparseWith_sortedKeys hp hq)
  rw [Bool.eq_false_iff, ne_eq, hasConflict_check_iff held within, not_not, hashPayload,
    hashPayload, htext, alike]

/-- While the entry of an event is held, a check reports a conflict exactly for the payloads
that differ, if and only if the payload is the same and is serialised like the recorded one, or
differs in what is fingerprinted, or in whether it can be serialised. -/
theorem conflict_exact_iff (injective : Function.Injective options.digest)
    (nonempty : ∀ text, options.digest text ≠ "")
    (hp : (Json.obj p).Parsed) (hq : (Json.obj q).Parsed)
    (held : m'.cache.get? eventId = (recordAck options m eventId ack p recorded).cache.get? eventId)
    (within : now - recorded ≤ options.ttlMs) :
    ((check options m' eventId q now).2.hasConflict = true ↔ ¬ Same (.obj p) (.obj q)) ↔
      (Same (.obj p) (.obj q) ∧ options.stringifyThrows p = options.stringifyThrows q) ∨
      (¬ Same (.obj p) (.obj q) ∧
        (options.stringifyThrows p ≠ options.stringifyThrows q ∨
          options.stringifyThrows p = false ∧
            ¬ Same (fingerprinted p) (fingerprinted q))) := by
  have hconflict : (check options m' eventId q now).2.hasConflict = true ↔
      ¬ SameFingerprint options p q :=
    (hasConflict_check_iff held within).trans (hashPayload_eq_iff injective nonempty hp hq).not
  rw [hconflict, SameFingerprint]
  by_cases hsame : Same (.obj p) (.obj q)
  · -- The same payload: a conflict is reported only if one of the two is not serialised.
    have hleft : Same (fingerprinted p) (fingerprinted q) := hsame.reparseWith_sortedKeys hp hq
    simp [hsame, hleft]
  · by_cases halike : options.stringifyThrows p = options.stringifyThrows q
    · simp [hsame, halike]
    · simp [hsame, halike]

/-- Two texts that differ at the top level. -/
theorem conflict_exact_text :
    (check { digest := tagged } (recordAck { digest := tagged } {} "e"
        { eventId := "a", type := .deliveryAck, timestamp := .ofInt 0, senderId := "system"
          payload := [] } [("text", .str "hello")] 0)
      "e" [("text", .str "bye")] 1).2.hasConflict = true ↔
    ¬ Same (.obj [("text", .str "hello")]) (.obj [("text", .str "bye")]) := by
  have hparsed : ∀ s, (Json.obj [("text", .str s)]).Parsed := by
    intro s
    simp [Json.Parsed, AllFieldsParsed, Fields.keys]
  have hlost : ¬ Same (fingerprinted [("text", .str "hello")])
      (fingerprinted [("text", .str "bye")]) := by
    intro hsame
    have htext := (stringifyWith_sortedKeys_iff (hparsed "hello") (hparsed "bye")).mpr hsame
    revert htext
    decide +kernel
  refine (conflict_exact_iff tagged_injective tagged_ne_empty (hparsed "hello") (hparsed "bye") rfl
    (by decide)).mpr (Or.inr ⟨fun hsame => hlost ?_, Or.inr ⟨rfl, hlost⟩⟩)
  exact hsame.reparseWith_sortedKeys (hparsed "hello") (hparsed "bye")

/-- A nested property that differs is not in the fingerprint, even if all is serialised. -/
theorem nested_difference_lost :
    ¬ ∀ (options : IdempotencyOptions) (m m' : IdempotencyManager) (p q : Fields)
      (eventId : EventId) (ack : PulseEventEnvelope) (recorded now : Int),
      Function.Injective options.digest → (∀ text, options.digest text ≠ "") →
      (∀ payload, options.stringifyThrows payload = false) →
      (Json.obj p).Parsed → (Json.obj q).Parsed →
      m'.cache.get? eventId = (recordAck options m eventId ack p recorded).cache.get? eventId →
      now - recorded ≤ options.ttlMs →
      ((check options m' eventId q now).2.hasConflict = true ↔ ¬ Same (.obj p) (.obj q)) := by
  intro h
  let payload (street : String) : Fields := [("address", .obj [("street", .str street)])]
  have hparsed : ∀ street, (Json.obj (payload street)).Parsed := by
    intro street
    simp [payload, Json.Parsed, AllFieldsParsed, Fields.keys]
  have hexact := h { digest := tagged } {} _ (payload "Elm") (payload "Oak") "e"
    { eventId := "a", type := .deliveryAck, timestamp := .ofInt 0, senderId := "system"
      payload := [] } 0 1 tagged_injective tagged_ne_empty (fun _ => rfl) (hparsed "Elm")
      (hparsed "Oak") rfl (by decide)
  have hdiffer : ¬ Same (.obj (payload "Elm")) (.obj (payload "Oak")) := by
    intro hsame
    cases hsame with
    | obj _ same =>
        cases same "address" _ _ rfl rfl with
        | obj _ same => exact absurd (same_str_iff.mp (same "street" _ _ rfl rfl)) (by decide)
  have hconflict := hexact.mpr hdiffer
  revert hconflict
  decide +kernel

end IdempotencyManager

end Pulse
