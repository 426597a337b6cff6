import Pulse.Core.Delivery
import Pulse.Js.Serialization

/-!
# Replayed acknowledgements

A message whose event id is in the cache is answered with the cached
acknowledgement, provided the payload digests agree. The entry stems from an event
with that id and that digest. Nothing else of the two events is compared: the
acknowledgement may be that of another sender's message to another target. All payloads
that cannot be serialised have one digest.
-/

namespace Pulse

open Collections Js Transition MessageDispatcher

namespace Node

theorem hashPayload_inj {options : IdempotencyOptions}
    (injective : Function.Injective options.digest) (nonempty : ∀ text, options.digest text ≠ "")
    {p q : Fields} (serialised : options.stringifyThrows q = false) (hp : p.Flat) (hq : q.Flat)
    (h : IdempotencyManager.hashPayload options p = IdempotencyManager.hashPayload options q) :
    SameText p q := by
  rw [IdempotencyManager.hashPayload, IdempotencyManager.hashPayload, serialised,
    if_neg Bool.false_ne_true] at h
  cases hthrows : options.stringifyThrows p with
  | true =>
      rw [hthrows, if_pos rfl] at h
      exact absurd h.symm (nonempty _)
  | false =>
      rw [hthrows, if_neg Bool.false_ne_true] at h
      exact sameText_of_stringifyWith hp hq (injective h)

/-- The cache of a run with its log. -/
theorem sourced_run {cfg : ServerConfig} {redis : Option Bool} {presence : Bool}
    {es : List NodeEvent} {n : Node} {log : List CacheTouch}
    (hrun : run (logging (step cfg) (touches cfg)) (initial redis presence, []) es =
      some (n, log)) :
    Sourced cfg.idempotency n.idempotencyManager log ∧ AcksLogged log := by
  refine invariant (I := fun s : Node × List CacheTouch =>
    Sourced cfg.idempotency s.1.idempotencyManager s.2 ∧ AcksLogged s.2) ?_ ?_ hrun
  · rintro ⟨n, log⟩ e t ⟨hsourced, hacks⟩ hstep
    rw [logging, Option.map_eq_some_iff] at hstep
    obtain ⟨n', hn', rfl⟩ := hstep
    exact ⟨sourced_step hsourced hn', hacks.append_touches cfg n e⟩
  · exact ⟨(tracked_initial cfg.idempotency fun _ => True).sourced,
      fun _ _ _ h => absurd h List.not_mem_nil⟩

/-- In every run a replayed acknowledgement was recorded, no longer ago than the time to
live, for an event with the id and the payload digest of the message at hand. -/
theorem replayed_ack_sound (cfg : ServerConfig) (redis : Option Bool) (presence : Bool)
    (es : List NodeEvent) (n : Node) (log : List CacheTouch)
    (hrun : run (logging (step cfg) (touches cfg)) (initial redis presence, []) es =
      some (n, log))
    (sender : Connection) (raw : Option Json) (tick : Tick)
    (envelope cachedAck : PulseEventEnvelope)
    (verdict : (judge cfg n sender raw tick).2 = .replayed envelope cachedAck) :
    cachedAck.type = .deliveryAck ∧ ∃ original time,
      .recorded original cachedAck time ∈ log ∧
      tick.now - time ≤ cfg.idempotency.ttlMs ∧
      original.eventId = envelope.eventId ∧
      IdempotencyManager.hashPayload cfg.idempotency original.payload =
        IdempotencyManager.hashPayload cfg.idempotency envelope.payload ∧
      (Function.Injective cfg.idempotency.digest → (∀ text, cfg.idempotency.digest text ≠ "") →
        cfg.idempotency.stringifyThrows envelope.payload = false → original.payload.Flat →
        envelope.payload.Flat → SameText original.payload envelope.payload) := by
  obtain ⟨hsourced, hacks⟩ := sourced_run hrun
  obtain ⟨-, entry, hentry, hfresh, hhash, rfl⟩ := replayed_entry verdict
  obtain ⟨original, hmem, hid, horiginal⟩ := hsourced _ entry hentry
  have hsame := horiginal.symm.trans hhash
  refine ⟨hacks _ _ _ hmem, original, _, hmem, hfresh, hid, hsame, ?_⟩
  exact fun injective nonempty serialised hp hq =>
    hashPayload_inj injective nonempty serialised hp hq hsame

section sample

def replayConfig : ServerConfig :=
  { instanceId := "node-a", idempotency := { digest := IdempotencyManager.tagged } }

def replayTick (replyId : EventId) : Tick := { now := 0, frameId := "unused", replyId }

/-- The connection of a user, named like the user. -/
def connectionOf (userId : UserId) : Connection := { connectionId := userId, userId }

/-- Alice, a member of room `r`, sends a message to it; Bob is connected too. -/
def roomMessageRun : List NodeEvent :=
  [.connect (connectionOf "alice") (replayTick "r1"),
    .connect (connectionOf "bob") (replayTick "r2"),
    .frame "alice" (some (roomFrame .roomJoin "r" none)) (replayTick "r3"),
    .frame "alice" (some (roomFrame .roomMessage "r" none)) (replayTick "r4")]

/-- The node and its log after the run, and what a further frame gets replayed then: its
envelope and the cached acknowledgement. -/
def replay (sender : UserId) (raw : Json) :
    Option ((Node × List CacheTouch) × PulseEventEnvelope × PulseEventEnvelope) :=
  (run (logging (step replayConfig) (touches replayConfig)) (initial none false, [])
    roomMessageRun).bind fun s =>
      match (judge replayConfig s.1 (connectionOf sender) (some raw) (replayTick "r5")).2 with
      | .replayed envelope cachedAck => some (s, envelope, cachedAck)
      | _ => none

theorem replay_eq_some {sender : UserId} {raw : Json} {s : Node × List CacheTouch}
    {envelope cachedAck : PulseEventEnvelope}
    (h : replay sender raw = some (s, envelope, cachedAck)) :
    run (logging (step replayConfig) (touches replayConfig)) (initial none false, [])
        roomMessageRun = some s ∧
      (judge replayConfig s.1 (connectionOf sender) (some raw) (replayTick "r5")).2 =
        .replayed envelope cachedAck := by
  rw [replay, Option.bind_eq_some_iff] at h
  obtain ⟨s', hrun, h⟩ := h
  split at h
  · rename_i hverdict
    cases h
    exact ⟨hrun, hverdict⟩
  · cases h

/-- The message of a recorded acknowledgement satisfies `p`. -/
def originalSatisfies (p : PulseEventEnvelope → Bool) : CacheTouch → Bool
  | .hit _ => true
  | .recorded original _ _ => p original

/-- Alice repeats her message. -/
theorem replayed_ack_sound_retransmission :
    ∃ s envelope cachedAck original time,
      replay "alice" (roomFrame .roomMessage "r" none) = some (s, envelope, cachedAck) ∧
      .recorded original cachedAck time ∈ s.2 ∧ original.eventId = envelope.eventId ∧
      SameText original.payload envelope.payload := by
  have hreplay : (replay "alice" (roomFrame .roomMessage "r" none)).any (fun r =>
      decide r.2.1.payload.Flat &&
        r.1.2.all (originalSatisfies fun f => decide f.payload.Flat)) = true := by
    decide +kernel
  obtain ⟨⟨s, envelope, cachedAck⟩, hsome, hflat⟩ := (Option.any_eq_true _ _).mp hreplay
  obtain ⟨hrun, hverdict⟩ := replay_eq_some hsome
  obtain ⟨-, original, time, hmem, -, hid, -, hpayload⟩ := replayed_ack_sound replayConfig none
    false roomMessageRun s.1 s.2 hrun (connectionOf "alice")
    (some (roomFrame .roomMessage "r" none)) (replayTick "r5") envelope cachedAck hverdict
  rw [Bool.and_eq_true, List.all_eq_true] at hflat
  refine ⟨s, envelope, cachedAck, original, time, hsome, hmem, hid, ?_⟩
  exact hpayload IdempotencyManager.tagged_injective IdempotencyManager.tagged_ne_empty rfl
    (of_decide_eq_true (hflat.2 _ hmem)) (of_decide_eq_true hflat.1)

/-- The acknowledgement may be that of another user's message of another type to another
target: Bob sends Carol a direct message with the id and the payload of Alice's message. -/
theorem replayed_ack_of_other_message :
    ¬ ∀ (s : Node × List CacheTouch) (sender : Connection) (raw : Option Json) (tick : Tick)
        (envelope cachedAck : PulseEventEnvelope),
      run (logging (step replayConfig) (touches replayConfig)) (initial none false, [])
        roomMessageRun = some s →
      (judge replayConfig s.1 sender raw tick).2 = .replayed envelope cachedAck →
      ∃ original time, .recorded original cachedAck time ∈ s.2 ∧
        original.senderId = envelope.senderId ∧ original.type = envelope.type ∧
        original.target = envelope.target ∧ SameText original.payload envelope.payload := by
  intro hsound
  have hreplay : (replay "bob" (directFrame "0197-frame" "carol")).any (fun r =>
      r.2.1.senderId = "bob" &&
        r.1.2.all (originalSatisfies fun f => decide (f.senderId = "alice"))) = true := by
    decide +kernel
  obtain ⟨⟨s, envelope, cachedAck⟩, hsome, hsenders⟩ := (Option.any_eq_true _ _).mp hreplay
  obtain ⟨hrun, hverdict⟩ := replay_eq_some hsome
  obtain ⟨original, time, hmem, hsame, -⟩ := hsound s _ _ _ envelope cachedAck hrun hverdict
  rw [Bool.and_eq_true, List.all_eq_true] at hsenders
  have horiginal : original.senderId = "alice" := of_decide_eq_true (hsenders.2 _ hmem)
  have henvelope : envelope.senderId = "bob" := of_decide_eq_true hsenders.1
  rw [horiginal, henvelope] at hsame
  exact absurd hsame (by decide)

end sample

end Node

end Pulse
