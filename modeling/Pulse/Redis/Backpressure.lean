import Pulse.Redis.Subscriptions
import Pulse.Transition.Run

/-!
# Publish backpressure

`RedisPubSubManager.publish` bounds the PUBLISH commands in flight by a counter in
`RedisMetrics`. The counter is raised before the message is turned into text and
lowered when Redis answers. A message that cannot be turned into text makes the
call reject in between, and nothing lowers the counter again.

`stringify` is `JSON.stringify` with the error it may throw.
-/

namespace Pulse

open Transition

/-- The part of the metrics about publishing. -/
structure RedisMetrics where
  publishCount : Nat := 0
  publishErrors : Nat := 0
  publishLatencyTotalMs : Int := 0
  publishLatencyMaxMs : Int := 0
  inFlightPublishes : Nat := 0
  deriving DecidableEq, Repr

namespace RedisMetrics

def recordPublishStart (m : RedisMetrics) : RedisMetrics :=
  { m with inFlightPublishes := m.inFlightPublishes + 1 }

def recordPublishRejected (m : RedisMetrics) : RedisMetrics :=
  { m with publishErrors := m.publishErrors + 1 }

def recordPublishEnd (m : RedisMetrics) (durationMs : Int) (error : Bool) : RedisMetrics :=
  let m := { m with inFlightPublishes := m.inFlightPublishes - 1 }
  if error then { m with publishErrors := m.publishErrors + 1 }
  else
    { m with
      publishCount := m.publishCount + 1
      publishLatencyTotalMs := m.publishLatencyTotalMs + durationMs
      publishLatencyMaxMs :=
        if durationMs > m.publishLatencyMaxMs then durationMs else m.publishLatencyMaxMs }

@[simp] theorem recordPublishStart_inFlightPublishes (m : RedisMetrics) :
    m.recordPublishStart.inFlightPublishes = m.inFlightPublishes + 1 := rfl

@[simp] theorem recordPublishRejected_inFlightPublishes (m : RedisMetrics) :
    m.recordPublishRejected.inFlightPublishes = m.inFlightPublishes := rfl

@[simp] theorem recordPublishEnd_inFlightPublishes (m : RedisMetrics) (durationMs : Int)
    (error : Bool) :
    (m.recordPublishEnd durationMs error).inFlightPublishes = m.inFlightPublishes - 1 := by
  rw [recordPublishEnd]
  split <;> rfl

end RedisMetrics

/-- A message is sent as it is if it is a string, else as its JSON text. -/
inductive PublishMessage (μ : Type*)
  | text (s : String)
  | value (v : μ)

/-- A PUBLISH command which Redis has not answered. -/
structure PublishCommand where
  channel : Channel
  payload : String
  startTime : Int
  deriving DecidableEq, Repr

/-- What publishing reads and writes; `publisher` says that the client exists, and `ready`
that both clients are connected. -/
structure Publishing where
  publisher : Bool := false
  ready : Bool := false
  metrics : RedisMetrics := {}
  pending : List PublishCommand := []
  deriving DecidableEq, Repr

inductive PublishEvent (μ : Type*)
  | publish (channel : Channel) (message : PublishMessage μ) (now : Int)
  /-- Redis answers the `i`-th pending command, or the command fails. -/
  | settled (i : Nat) (failed : Bool) (now : Int)
  | link (publisher ready : Bool)

namespace Publishing

variable {μ : Type*} (maxInFlightPublishes : Nat) (stringify : μ → Except String String)

def isConnected (s : Publishing) : Bool := s.publisher && s.ready

def payloadOf : PublishMessage μ → Except String String
  | .text s => .ok s
  | .value v => stringify v

/-- Up to the `await`, with the error of a call that rejects at once. -/
def publish (s : Publishing) (channel : Channel) (message : PublishMessage μ) (now : Int) :
    Publishing × Option String :=
  if !s.isConnected then
    (s, some ("Cannot publish to channel \"" ++ channel ++ "\": Redis is not connected."))
  else if s.metrics.inFlightPublishes ≥ maxInFlightPublishes then
    ({ s with metrics := s.metrics.recordPublishRejected },
      some ("Redis publish backpressure limit reached (" ++ toString maxInFlightPublishes ++
        " in-flight)"))
  else
    let s := { s with metrics := s.metrics.recordPublishStart }
    match payloadOf stringify message with
    | .error thrown => (s, some thrown)
    | .ok payload =>
        if s.publisher then
          ({ s with pending := s.pending ++ [{ channel, payload, startTime := now }] }, none)
        else
          ({ s with metrics := s.metrics.recordPublishEnd 0 true },
            some "Redis publisher client is not initialized. Call connect() first.")

/-- Behind the `await`. -/
def settle (s : Publishing) (i : Nat) (command : PublishCommand) (failed : Bool) (now : Int) :
    Publishing :=
  { s with
    metrics := s.metrics.recordPublishEnd (now - command.startTime) failed
    pending := s.pending.eraseIdx i }

def step (s : Publishing) : PublishEvent μ → Option Publishing
  | .publish channel message now =>
      some (s.publish maxInFlightPublishes stringify channel message now).1
  | .settled i failed now => (s.pending[i]?).map fun command => s.settle i command failed now
  | .link publisher ready => some { s with publisher, ready }

/-- The counter counts the unanswered commands, and these stay within the limit. -/
def Balanced (s : Publishing) : Prop :=
  s.metrics.inFlightPublishes = s.pending.length ∧
    s.metrics.inFlightPublishes ≤ maxInFlightPublishes

/-- A call that rejects, at once or later, leaves no increment behind. -/
def LeavesNoIncrement (s : Publishing) (e : PublishEvent μ) (t : Publishing) : Prop :=
  match e with
  | .publish channel message now =>
      (s.publish maxInFlightPublishes stringify channel message now).2.isSome = true →
        t.metrics.inFlightPublishes = s.metrics.inFlightPublishes
  | .settled _ failed _ =>
      failed = true → t.metrics.inFlightPublishes + 1 = s.metrics.inFlightPublishes
  | .link .. => True

/-- A message which gets past the checks of `publish` can be turned into text. -/
def Stringifies (s : Publishing) : PublishEvent μ → Prop
  | .publish _ message _ =>
      s.isConnected = true → s.metrics.inFlightPublishes < maxInFlightPublishes →
        (payloadOf stringify message).isOk = true
  | _ => True

/-- What a call does up to its `await`. -/
theorem publish_cases (s : Publishing) (channel : Channel) (message : PublishMessage μ)
    (now : Int) :
    ((s.isConnected = false ∨ maxInFlightPublishes ≤ s.metrics.inFlightPublishes) ∧
      (s.publish maxInFlightPublishes stringify channel message now).2.isSome = true ∧
      (s.publish maxInFlightPublishes stringify channel message now).1.pending = s.pending ∧
      (s.publish maxInFlightPublishes stringify channel message now).1.metrics.inFlightPublishes =
        s.metrics.inFlightPublishes) ∨
    (s.isConnected = true ∧ s.metrics.inFlightPublishes < maxInFlightPublishes ∧
      ((∃ thrown, payloadOf stringify message = .error thrown ∧
          s.publish maxInFlightPublishes stringify channel message now =
            ({ s with metrics := s.metrics.recordPublishStart }, some thrown)) ∨
        ∃ payload, payloadOf stringify message = .ok payload ∧
          s.publish maxInFlightPublishes stringify channel message now =
            ({ s with
                metrics := s.metrics.recordPublishStart
                pending := s.pending ++ [{ channel, payload, startTime := now }] }, none))) := by
  cases hconnected : s.isConnected with
  | false =>
      refine Or.inl ⟨Or.inl rfl, ?_⟩
      simp [publish, hconnected]
  | true =>
      have hpublisher : s.publisher = true := (Bool.and_eq_true_iff.mp hconnected).1
      by_cases hfull : maxInFlightPublishes ≤ s.metrics.inFlightPublishes
      · refine Or.inl ⟨Or.inr hfull, ?_⟩
        simp [publish, hconnected, hfull]
      · refine Or.inr ⟨rfl, Nat.lt_of_not_le hfull, ?_⟩
        cases hpayload : payloadOf stringify message with
        | error thrown =>
            refine Or.inl ⟨thrown, rfl, ?_⟩
            simp [publish, hconnected, hfull, hpayload]
        | ok payload =>
            refine Or.inr ⟨payload, rfl, ?_⟩
            simp [publish, hconnected, hfull, hpayload, hpublisher]

variable {maxInFlightPublishes stringify}

theorem balanced_step_iff {s t : Publishing} {e : PublishEvent μ}
    (h : s.Balanced maxInFlightPublishes)
    (hstep : s.step maxInFlightPublishes stringify e = some t) :
    t.Balanced maxInFlightPublishes ↔ s.Stringifies maxInFlightPublishes stringify e := by
  obtain ⟨hcount, hbound⟩ := h
  cases e with
  | publish channel message now =>
      cases hstep
      obtain ⟨hrefused, -, hpending, hsame⟩ | ⟨hconnected, hfree, hrun⟩ :=
        s.publish_cases maxInFlightPublishes stringify channel message now
      · refine iff_of_true ?_ ?_
        · rw [Balanced, hsame, hpending]
          exact ⟨hcount, hbound⟩
        · intro hconnected hfree
          obtain hdown | hfull := hrefused
          · rw [hdown] at hconnected
            cases hconnected
          · omega
      · obtain ⟨thrown, hpayload, heq⟩ | ⟨payload, hpayload, heq⟩ := hrun
        · refine iff_of_false ?_ ?_
          · rw [heq]
            rintro ⟨hcounted, -⟩
            simp only [RedisMetrics.recordPublishStart_inFlightPublishes] at hcounted
            omega
          · intro hok
            have hok := hok hconnected hfree
            rw [hpayload] at hok
            cases hok
        · refine iff_of_true ?_ ?_
          · rw [heq]
            simp only [Balanced, RedisMetrics.recordPublishStart_inFlightPublishes,
              List.length_append, List.length_singleton]
            omega
          · intro _ _
            rw [hpayload]
            rfl
  | settled i failed now =>
      simp only [step, Option.map_eq_some_iff] at hstep
      obtain ⟨command, hcommand, rfl⟩ := hstep
      obtain ⟨hi, -⟩ := List.getElem?_eq_some_iff.mp hcommand
      refine iff_of_true ?_ trivial
      simp only [Balanced, settle, RedisMetrics.recordPublishEnd_inFlightPublishes,
        List.length_eraseIdx_of_lt hi]
      omega
  | link publisher ready =>
      cases hstep
      exact iff_of_true ⟨hcount, hbound⟩ trivial

theorem leavesNoIncrement_step {s t : Publishing} {e : PublishEvent μ}
    (h : s.Balanced maxInFlightPublishes)
    (hstep : s.step maxInFlightPublishes stringify e = some t)
    (stringifies : s.Stringifies maxInFlightPublishes stringify e) :
    s.LeavesNoIncrement maxInFlightPublishes stringify e t := by
  cases e with
  | publish channel message now =>
      cases hstep
      intro hrejected
      obtain ⟨-, -, -, hsame⟩ | ⟨hconnected, hfree, hrun⟩ :=
        s.publish_cases maxInFlightPublishes stringify channel message now
      · exact hsame
      · obtain ⟨thrown, hpayload, heq⟩ | ⟨payload, hpayload, heq⟩ := hrun
        · have hok := stringifies hconnected hfree
          rw [hpayload] at hok
          cases hok
        · rw [heq] at hrejected
          cases hrejected
  | settled i failed now =>
      simp only [step, Option.map_eq_some_iff] at hstep
      obtain ⟨command, hcommand, rfl⟩ := hstep
      obtain ⟨hi, -⟩ := List.getElem?_eq_some_iff.mp hcommand
      intro _
      obtain ⟨hcount, -⟩ := h
      simp only [settle, RedisMetrics.recordPublishEnd_inFlightPublishes]
      omega
  | link publisher ready => trivial

variable (maxInFlightPublishes stringify)

/-- The counter is right in every state of a run, and no rejected call leaves an increment
behind, exactly if every message which gets past the checks can be turned into text. -/
theorem publishes_accounted_iff (publisher ready : Bool) (es : List (PublishEvent μ)) :
    (Always (step maxInFlightPublishes stringify) (Balanced maxInFlightPublishes)
        { publisher, ready } es ∧
      EveryStep (step maxInFlightPublishes stringify)
        (LeavesNoIncrement maxInFlightPublishes stringify) { publisher, ready } es) ↔
      EveryStep (step maxInFlightPublishes stringify)
        (fun s e _ => s.Stringifies maxInFlightPublishes stringify e) { publisher, ready } es := by
  have hinitially : Balanced maxInFlightPublishes { publisher, ready } :=
    ⟨rfl, Nat.zero_le _⟩
  have hbalanced : Always (step maxInFlightPublishes stringify) (Balanced maxInFlightPublishes)
      { publisher, ready } es ↔
        EveryStep (step maxInFlightPublishes stringify)
          (fun s e _ => s.Stringifies maxInFlightPublishes stringify e)
          { publisher, ready } es := by
    refine always_iff_everyStep (I := fun _ => True) (fun _ _ _ _ _ => trivial) ?_ trivial
      hinitially es
    intro s e t _ hs hstep
    exact balanced_step_iff hs hstep
  refine ⟨fun h => hbalanced.mp h.1, fun h => ⟨hbalanced.mpr h, ?_⟩⟩
  have hgood : EveryStep (step maxInFlightPublishes stringify)
      (fun s e t => s.Balanced maxInFlightPublishes ∧
        s.step maxInFlightPublishes stringify e = some t) { publisher, ready } es :=
    (hbalanced.mpr h).everyStep fun _ _ _ hs hstep => ⟨hs, hstep⟩
  refine (hgood.and h).mono ?_
  rintro s e t ⟨⟨hs, hstep⟩, hstringifies⟩
  exact leavesNoIncrement_step hs hstep hstringifies

/-- `none` stands for a value that contains itself. -/
def stringifyAcyclic : Option String → Except String String
  | some text => .ok text
  | none => .error "Converting circular structure to JSON"

theorem publish_leaks_increment :
    ¬ ∀ (maxInFlightPublishes : Nat) (stringify : Option String → Except String String)
        (publisher ready : Bool) (es : List (PublishEvent (Option String))),
      Always (step maxInFlightPublishes stringify) (Balanced maxInFlightPublishes)
          { publisher, ready } es ∧
        EveryStep (step maxInFlightPublishes stringify)
          (LeavesNoIncrement maxInFlightPublishes stringify) { publisher, ready } es := by
  intro h
  have hrun : (run (step 1 stringifyAcyclic) { publisher := true, ready := true }
      [.publish "pulse:room:r" (.value none) 0]).any (fun s =>
        decide (s.metrics.inFlightPublishes = 1) && s.pending.isEmpty) = true := by
    decide +kernel
  refine not_always_of_run ?_ hrun (h 1 stringifyAcyclic true true _).1
  intro s hs hbalanced
  simp only [Bool.and_eq_true, decide_eq_true_eq, List.isEmpty_iff] at hs
  obtain ⟨hcount, hpending⟩ := hs
  rw [Balanced, hcount, hpending] at hbalanced
  exact absurd hbalanced.1 (by decide)

/-- An envelope with a JSON text is published as by the manager of a node. -/
theorem publish_agrees {maxInFlightPublishes : Nat}
    {stringify : PulseEventEnvelope → Except String String} {s : Publishing}
    {p : RedisPubSubManager} (link : p.connected = s.isConnected)
    (limit : p.maxInFlightPublishes = maxInFlightPublishes)
    (count : p.inFlightPublishes = s.metrics.inFlightPublishes)
    {envelope : PulseEventEnvelope} {payload : String}
    (stringified : stringify envelope = .ok payload) (channel : Channel) (now : Int) :
    match p.publish channel envelope with
    | .error thrown =>
        (s.publish maxInFlightPublishes stringify channel (.value envelope) now).2 =
            some thrown ∧
          (s.publish maxInFlightPublishes stringify channel (.value envelope)
            now).1.metrics.inFlightPublishes = p.inFlightPublishes
    | .ok p' =>
        (s.publish maxInFlightPublishes stringify channel (.value envelope) now).2 = none ∧
          (s.publish maxInFlightPublishes stringify channel (.value envelope)
            now).1.metrics.inFlightPublishes = p'.inFlightPublishes := by
  subst limit
  cases hconnected : s.isConnected with
  | false => simp [RedisPubSubManager.publish, publish, link, hconnected, count]
  | true =>
      have hpublisher : s.publisher = true := (Bool.and_eq_true_iff.mp hconnected).1
      by_cases hfull : p.maxInFlightPublishes ≤ s.metrics.inFlightPublishes
      · simp [RedisPubSubManager.publish, publish, link, hconnected, count, hfull]
      · simp [RedisPubSubManager.publish, publish, link, hconnected, count, hfull, payloadOf,
          stringified, hpublisher]

end Publishing

end Pulse
